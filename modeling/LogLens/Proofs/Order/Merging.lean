/-
Merging two sorted lists.

An element belongs before another if its key is less, or if the keys are equal and it stood before
the other one already.  Merging keeps this order, from either end.  Where a merge from the front
stops, everything that it has taken belongs before everything that it has left, and there is only
one such cut for a given number of elements.  So the two ends of `mergeHalves` meet.
-/
import Mathlib
import LogLens.Order.SmallSort

namespace LogLens
namespace StableSort

variable {α κ : Type} [LinearOrder κ] {less : α → α → Bool} {key : α → κ}
  {before : α → α → Prop}

/-! ## The order of a stable sort -/

/-- The comparison of the elements of a list is that of their keys. -/
def ByKey (less : α → α → Bool) (key : α → κ) (l : List α) : Prop :=
  ∀ a ∈ l, ∀ b ∈ l, (less a b = true ↔ key a < key b)

theorem ByKey.mono {l m : List α} (h : ByKey less key l) (hsub : m ⊆ l) : ByKey less key m :=
  fun a ha b hb => h a (hsub ha) b (hsub hb)

theorem ByKey.not_less {l : List α} (h : ByKey less key l) {a b : α} (ha : a ∈ l) (hb : b ∈ l) :
    less a b = false ↔ key b ≤ key a := by
  rw [← Bool.not_eq_true, h a ha b hb, not_lt]

/-- From the back a comparison is that of the keys in the dual order. -/
theorem ByKey.dual {l : List α} (h : ByKey less key l) :
    ByKey (fun a b => less b a) (fun a => OrderDual.toDual (key a)) l :=
  fun a ha b hb => h b hb a ha

/-- An element belongs before another one. -/
def Ahead (key : α → κ) (before : α → α → Prop) (a b : α) : Prop :=
  key a < key b ∨ key a = key b ∧ before a b

theorem Ahead.asymm (hasymm : ∀ a b, before a b → ¬ before b a) {a b : α}
    (hab : Ahead key before a b) : ¬ Ahead key before b a := by
  rintro (hba | ⟨heq, hba⟩)
  · rcases hab with hab | ⟨heq, -⟩
    · exact lt_asymm hab hba
    · exact hba.ne heq.symm
  · rcases hab with hab | ⟨-, hab⟩
    · exact hab.ne heq.symm
    · exact hasymm a b hab hba

theorem Ahead.of_le {a b : α} (hkey : key a ≤ key b) (hbefore : before a b) :
    Ahead key before a b :=
  hkey.lt_or_eq.imp_right fun heq => ⟨heq, hbefore⟩

theorem Ahead.key_le {a b : α} (h : Ahead key before a b) : key a ≤ key b :=
  h.elim le_of_lt fun heq => heq.1.le

theorem ahead_dual {a b : α} :
    Ahead (fun a => OrderDual.toDual (key a)) (fun a b => before b a) a b ↔
      Ahead key before b a := by
  rw [Ahead, Ahead, OrderDual.toDual_lt_toDual, OrderDual.toDual_inj, eq_comm]

theorem pairwise_ahead_reverse {l : List α} :
    l.reverse.Pairwise
        (Ahead (fun a => OrderDual.toDual (key a)) (fun a b => before b a)) ↔
      l.Pairwise (Ahead key before) := by
  simp only [List.pairwise_reverse, ahead_dual]

/-! ## A merge from the front -/

/-- What is taken from both lists is a front part of either. -/
theorem mergeFront_split (less : α → α → Bool) (n : Nat) (left right : List α) :
    ∃ a b, left = a ++ (mergeFront less n left right).left ∧
      right = b ++ (mergeFront less n left right).right ∧
      (mergeFront less n left right).taken.Perm (a ++ b) := by
  induction n generalizing left right with
  | zero => exact ⟨[], [], by simp [mergeFront]⟩
  | succ n ih =>
    cases left with
    | nil => exact ⟨[], right.take (n + 1), by simp [mergeFront]⟩
    | cons x left =>
      cases right with
      | nil => exact ⟨(x :: left).take (n + 1), [], by simp [mergeFront]⟩
      | cons y right =>
        simp only [mergeFront]
        split
        · obtain ⟨a, b, hl, hr, hperm⟩ := ih (x :: left) right
          exact ⟨a, y :: b, hl, congrArg (y :: ·) hr, (hperm.cons y).trans List.perm_middle.symm⟩
        · obtain ⟨a, b, hl, hr, hperm⟩ := ih left (y :: right)
          exact ⟨x :: a, b, congrArg (x :: ·) hl, hr, hperm.cons x⟩

theorem length_mergeFront (less : α → α → Bool) {n : Nat} {left right : List α}
    (h : n ≤ left.length + right.length) :
    (mergeFront less n left right).taken.length = n := by
  induction n generalizing left right with
  | zero => rfl
  | succ n ih =>
    cases left with
    | nil => simpa [mergeFront] using h
    | cons x left =>
      cases right with
      | nil => simpa [mergeFront] using h
      | cons y right =>
        simp only [List.length_cons] at h
        simp only [mergeFront]
        split
        · exact congrArg (· + 1) (ih (by simp only [List.length_cons]; omega))
        · exact congrArg (· + 1) (ih (by simp only [List.length_cons]; omega))

theorem mergeFront_perm (less : α → α → Bool) (n : Nat) (left right : List α) :
    ((mergeFront less n left right).taken ++
      ((mergeFront less n left right).left ++ (mergeFront less n left right).right)).Perm
      (left ++ right) := by
  obtain ⟨a, b, hl, hr, hperm⟩ := mergeFront_split less n left right
  generalize mergeFront less n left right = m at hl hr hperm ⊢
  rw [hl, hr]
  refine (hperm.append_right _).trans ?_
  rw [← Multiset.coe_eq_coe]
  simp only [← Multiset.coe_add]
  abel

/-- As long as there are elements to take, the cut tells how many are taken. -/
theorem mergeFront_cut (less : α → α → Bool) {n : Nat} {left right : List α}
    (h : n ≤ left.length + right.length) :
    ∃ a b, left = a ++ (mergeFront less n left right).left ∧
      right = b ++ (mergeFront less n left right).right ∧
      (mergeFront less n left right).taken.Perm (a ++ b) ∧ a.length + b.length = n := by
  obtain ⟨a, b, hl, hr, hperm⟩ := mergeFront_split less n left right
  have hlength := hperm.length_eq
  rw [length_mergeFront less h, List.length_append] at hlength
  exact ⟨a, b, hl, hr, hperm, hlength.symm⟩

/-- What is taken is in order and belongs before what is left. -/
structure Merged.Ordered (key : α → κ) (before : α → α → Prop) (m : Merged α) : Prop where
  taken : m.taken.Pairwise (Ahead key before)
  rest : ∀ x ∈ m.taken, ∀ y ∈ m.left ++ m.right, Ahead key before x y

theorem Merged.Ordered.cons {m : Merged α} (h : m.Ordered key before) {z : α}
    (hz : ∀ w ∈ m.taken ++ (m.left ++ m.right), Ahead key before z w) :
    Merged.Ordered key before { m with taken := z :: m.taken } := by
  refine ⟨List.pairwise_cons.mpr ⟨fun w hw => ?_, h.taken⟩, fun x hx y hy => ?_⟩
  · exact hz w (List.mem_append_left _ hw)
  · rcases List.mem_cons.mp hx with rfl | hx
    · exact hz y (List.mem_append_right _ hy)
    · exact h.rest x hx y hy

theorem mergeFront_ordered {n : Nat} {left right : List α}
    (hkey : ByKey less key (left ++ right)) (hl : left.Pairwise (Ahead key before))
    (hr : right.Pairwise (Ahead key before)) (hlr : ∀ x ∈ left, ∀ y ∈ right, before x y) :
    (mergeFront less n left right).Ordered key before := by
  induction n generalizing left right with
  | zero => exact ⟨List.Pairwise.nil, fun x hx => absurd hx List.not_mem_nil⟩
  | succ n ih =>
    cases left with
    | nil =>
      have hsplit := List.pairwise_append.mp ((List.take_append_drop (n + 1) right).symm ▸ hr)
      exact ⟨hsplit.1, hsplit.2.2⟩
    | cons x left =>
      cases right with
      | nil =>
        have hsplit :=
          List.pairwise_append.mp ((List.take_append_drop (n + 1) (x :: left)).symm ▸ hl)
        refine ⟨hsplit.1, ?_⟩
        simpa [mergeFront] using hsplit.2.2
      | cons y right =>
        have hx := List.pairwise_cons.mp hl
        have hy := List.pairwise_cons.mp hr
        simp only [mergeFront]
        split
        next hless =>
          have hlt := (hkey y (by simp) x (by simp)).mp hless
          have hsub : x :: left ++ right ⊆ x :: left ++ y :: right :=
            ((List.sublist_cons_self y right).append_left (x :: left)).subset
          refine (ih (hkey.mono hsub) hl hy.2
            fun v hv w hw => hlr v hv w (List.mem_cons_of_mem y hw)).cons fun w hw => ?_
          rcases List.mem_append.mp ((mergeFront_perm less n (x :: left) right).mem_iff.mp hw)
            with hw | hw
          · rcases List.mem_cons.mp hw with rfl | hw
            · exact Or.inl hlt
            · exact Or.inl (hlt.trans_le (hx.1 w hw).key_le)
          · exact hy.1 w hw
        next hless =>
          have hle := (hkey.not_less (by simp) (by simp)).mp (Bool.eq_false_iff.mpr hless)
          refine (ih (hkey.mono (List.subset_cons_self x _)) hx.2 hr
            fun v hv w hw => hlr v (List.mem_cons_of_mem x hv) w hw).cons fun w hw => ?_
          rcases List.mem_append.mp ((mergeFront_perm less n left (y :: right)).mem_iff.mp hw)
            with hw | hw
          · exact hx.1 w hw
          · have hbefore := hlr x List.mem_cons_self w hw
            rcases List.mem_cons.mp hw with rfl | hw
            · exact .of_le hle hbefore
            · exact .of_le (hle.trans (hy.1 w hw).key_le) hbefore

/-! ## A merge from the back -/

theorem mergeBack_cut (less : α → α → Bool) {n : Nat} {left right : List α}
    (h : n ≤ left.length + right.length) :
    ∃ a b, left = (mergeBack less n left right).right.reverse ++ a ∧
      right = (mergeBack less n left right).left.reverse ++ b ∧
      (mergeBack less n left right).taken.reverse.Perm (a ++ b) ∧ a.length + b.length = n := by
  have hreversed : n ≤ right.reverse.length + left.reverse.length := by
    simp only [List.length_reverse]
    omega
  obtain ⟨b, a, hr, hl, hperm, hlength⟩ := mergeFront_cut (fun x y => less y x) hreversed
  refine ⟨a.reverse, b.reverse, ?_, ?_, ?_, ?_⟩
  · rw [← List.reverse_append]
    exact (List.reverse_eq_iff).mp hl
  · rw [← List.reverse_append]
    exact (List.reverse_eq_iff).mp hr
  · exact (List.reverse_perm _).trans (hperm.trans (List.perm_append_comm.trans
      ((List.reverse_perm a).symm.append (List.reverse_perm b).symm)))
  · rw [List.length_reverse, List.length_reverse, Nat.add_comm]
    exact hlength

theorem mergeBack_ordered {n : Nat} {left right : List α}
    (hkey : ByKey less key (left ++ right)) (hl : left.Pairwise (Ahead key before))
    (hr : right.Pairwise (Ahead key before)) (hlr : ∀ x ∈ left, ∀ y ∈ right, before x y) :
    (mergeBack less n left right).Ordered (fun a => OrderDual.toDual (key a))
      (fun a b => before b a) := by
  refine mergeFront_ordered (hkey.dual.mono fun x hx => ?_) (pairwise_ahead_reverse.mpr hr)
    (pairwise_ahead_reverse.mpr hl) fun y hy x hx => ?_
  · simpa [or_comm] using hx
  · exact hlr x (List.mem_reverse.mp hx) y (List.mem_reverse.mp hy)

/-! ## Merging two lists -/

/-- A merge that takes as many elements as there are takes all. -/
theorem mergeFront_all (less : α → α → Bool) (left right : List α) :
    (mergeFront less (left.length + right.length) left right).taken.Perm (left ++ right) := by
  have hperm := mergeFront_perm less (left.length + right.length) left right
  have htaken := length_mergeFront less (Nat.le_refl (left.length + right.length))
  have hlength := hperm.length_eq
  rw [List.length_append, htaken, List.length_append, List.length_append] at hlength
  have hrest : (mergeFront less (left.length + right.length) left right).left ++
      (mergeFront less (left.length + right.length) left right).right = [] := by
    rw [← List.length_eq_zero_iff, List.length_append]
    omega
  rwa [hrest, List.append_nil] at hperm

theorem merge_perm (left right : List α) : (merge less left right).Perm (left ++ right) := by
  rw [merge]
  split
  · exact mergeFront_all less left right
  · have hall := mergeFront_all (fun x y => less y x) right.reverse left.reverse
    rw [List.length_reverse, List.length_reverse, Nat.add_comm, ← List.reverse_append] at hall
    exact (List.reverse_perm _).trans (hall.trans (List.reverse_perm _))

theorem pairwise_merge {left right : List α}
    (hkey : ByKey less key (left ++ right)) (hl : left.Pairwise (Ahead key before))
    (hr : right.Pairwise (Ahead key before)) (hlr : ∀ x ∈ left, ∀ y ∈ right, before x y) :
    (merge less left right).Pairwise (Ahead key before) := by
  rw [merge]
  split
  · exact (mergeFront_ordered hkey hl hr hlr).taken
  · refine pairwise_ahead_reverse.mp ?_
    rw [List.reverse_reverse]
    exact (mergeBack_ordered hkey hl hr hlr).taken

/-! ## The two ends meet -/

theorem exists_between {a b a' b' : List α} (h : a ++ b = a' ++ b') (hlt : a'.length < a.length) :
    ∃ x, x ∈ a ∧ x ∈ b' := by
  rcases List.append_eq_append_iff.mp h with ⟨c, hc, -⟩ | ⟨c, rfl, rfl⟩
  · have := congrArg List.length hc
    rw [List.length_append] at this
    omega
  · cases c with
    | nil => simp at hlt
    | cons x c => exact ⟨x, by simp, by simp⟩

/-- Of two cuts of a merge the one with fewer elements takes no more from the left list. -/
theorem length_le_of_cuts (hasymm : ∀ a b, before a b → ¬ before b a)
    {a b l r a' b' l' r' : List α} (hl : a ++ l = a' ++ l') (hr : b ++ r = b' ++ r')
    (h : ∀ x ∈ a, ∀ y ∈ r, Ahead key before x y) (h' : ∀ y ∈ b', ∀ x ∈ l', Ahead key before y x)
    (hle : a.length + b.length ≤ a'.length + b'.length) : a.length ≤ a'.length := by
  by_contra hlt
  obtain ⟨x, hx, hx'⟩ := exists_between hl (by omega)
  obtain ⟨y, hy, hy'⟩ := exists_between hr.symm (by omega : b.length < b'.length)
  exact (h x hx y hy').asymm hasymm (h' y hy x hx')

/-- Two cuts of a list, the second behind the first. -/
theorem eq_append_take {a f k d : List α} {n : Nat} (h : a ++ f = k ++ d)
    (hlength : k.length = a.length + n) : k = a ++ f.take n ∧ f = f.take n ++ d := by
  have hk : k = a ++ f.take n := by
    calc k = (k ++ d).take k.length := by simp
      _ = a ++ f.take n := by rw [← h, hlength, List.take_length_add_append]
  refine ⟨hk, List.append_cancel_left (h.trans ?_)⟩
  rw [hk, List.append_assoc]

/-- Where the ends meet, each list is cut into what is taken from its front, what lies between the
ends and what is taken from its back. -/
theorem cuts_of_meet {left right a b c d : List α} {front back : Merged α} {n : Nat}
    (hl : left = a ++ front.left) (hr : right = b ++ front.right)
    (hl' : left = back.right.reverse ++ d) (hr' : right = back.left.reverse ++ c)
    (hab : a.length + b.length = left.length) (hdc : d.length + c.length = left.length)
    (hle : left.length ≤ right.length) (hn : n ≤ right.length - left.length)
    (hmeet : left.length - front.left.length + n = back.right.length) :
    (back.right.reverse = a ++ front.left.take n ∧ front.left = front.left.take n ++ d) ∧
      back.left.reverse = b ++ front.right.take (right.length - left.length - n) ∧
      front.right = front.right.take (right.length - left.length - n) ++ c := by
  have hlength := congrArg List.length hl
  have hlength' := congrArg List.length hl'
  have hlengthr := congrArg List.length hr
  have hlengthr' := congrArg List.length hr'
  simp only [List.length_append, List.length_reverse] at hlength hlength' hlengthr hlengthr'
  exact ⟨eq_append_take (hl.symm.trans hl') (by rw [List.length_reverse]; omega),
    eq_append_take (hr.symm.trans hr') (by rw [List.length_reverse]; omega)⟩

/-- Between the ends lie `x` and `y`; the rest is taken from the back. -/
theorem mergeHalves_parts {left right m : List α} (hle : left.length ≤ right.length)
    (h : mergeHalves less left right = .ok m) :
    ∃ x y d c, (mergeFront less left.length left right).left = x ++ d ∧
      (mergeFront less left.length left right).right = y ++ c ∧
      (mergeBack less left.length left right).taken.reverse.Perm (d ++ c) ∧
      x ⊆ (mergeBack less left.length left right).right ∧
      y ⊆ (mergeBack less left.length left right).left ∧
      x.length + y.length ≤ right.length - left.length ∧
      m = (mergeFront less left.length left right).taken ++ (x ++ y) ++
        (mergeBack less left.length left right).taken.reverse := by
  have henough : left.length ≤ left.length + right.length := Nat.le_add_right _ _
  obtain ⟨a, b, hl, hr, -, hab⟩ := mergeFront_cut less henough
  obtain ⟨d, c, hl', hr', hback, hdc⟩ := mergeBack_cut less henough
  rw [mergeHalves] at h
  generalize mergeFront less left.length left right = front at hl hr h ⊢
  generalize mergeBack less left.length left right = back at hl' hr' hback h ⊢
  generalize hfrom : (if left.length - front.left.length < back.right.length then
    right.length - left.length else 0) = n at h
  have hn : n ≤ right.length - left.length := by split at hfrom <;> omega
  split at h
  next hmeet =>
    obtain ⟨⟨hkl, hfl⟩, hkr, hfr⟩ := cuts_of_meet hl hr hl' hr' hab hdc hle hn hmeet
    refine ⟨_, _, d, c, hfl, hfr, hback, fun x hx => ?_, fun y hy => ?_, ?_, ?_⟩
    · exact List.mem_reverse.mp (hkl ▸ List.mem_append_right a hx)
    · exact List.mem_reverse.mp (hkr ▸ List.mem_append_right b hy)
    · rw [List.length_take, List.length_take]
      omega
    · rw [← List.append_assoc]
      exact (Except.ok.inj h).symm
  next => exact absurd h (by simp)

theorem mergeHalves_perm {left right m : List α} (hle : left.length ≤ right.length)
    (h : mergeHalves less left right = .ok m) : m.Perm (left ++ right) := by
  obtain ⟨x, y, d, c, hl, hr, hback, -, -, -, rfl⟩ := mergeHalves_parts hle h
  refine List.Perm.trans ?_ (mergeFront_perm less left.length left right)
  rw [hl, hr]
  refine (hback.append_left _).trans ?_
  rw [← Multiset.coe_eq_coe]
  simp only [← Multiset.coe_add]
  abel

/-- With a comparison by keys the ends meet. -/
theorem exists_mergeHalves (hasymm : ∀ a b, before a b → ¬ before b a) {left right : List α}
    (hle : left.length ≤ right.length) (hlt : right.length ≤ left.length + 1)
    (hkey : ByKey less key (left ++ right)) (hl : left.Pairwise (Ahead key before))
    (hr : right.Pairwise (Ahead key before)) (hlr : ∀ x ∈ left, ∀ y ∈ right, before x y) :
    ∃ m, mergeHalves less left right = .ok m := by
  have henough : left.length ≤ left.length + right.length := Nat.le_add_right _ _
  obtain ⟨a, b, hla, hrb, hfront, hab⟩ := mergeFront_cut less henough
  obtain ⟨d, c, hld, hrc, hback, hdc⟩ := mergeBack_cut less henough
  have hordered := mergeFront_ordered (n := left.length) hkey hl hr hlr
  have hordered' := mergeBack_ordered (n := left.length) hkey hl hr hlr
  rw [mergeHalves]
  generalize mergeFront less left.length left right = front at hla hrb hfront hordered ⊢
  generalize mergeBack less left.length left right = back at hld hrc hback hordered' ⊢
  have htaken : ∀ x ∈ a ++ b, ∀ y ∈ front.left ++ front.right, Ahead key before x y :=
    fun x hx => hordered.rest x (hfront.mem_iff.mpr hx)
  have hkept : ∀ y ∈ back.left.reverse ++ back.right.reverse, ∀ x ∈ d ++ c,
      Ahead key before y x := fun y hy x hx =>
    ahead_dual.mp (hordered'.rest x (List.mem_reverse.mp (hback.mem_iff.mpr hx)) y
      (by simpa using hy))
  simp only [List.mem_append] at htaken hkept
  have hlength := congrArg List.length hla
  have hlength' := congrArg List.length hld
  have hlengthr := congrArg List.length hrb
  have hlengthr' := congrArg List.length hrc
  simp only [List.length_append, List.length_reverse] at hlength hlength' hlengthr hlengthr'
  have hleft : a.length ≤ back.right.reverse.length :=
    length_le_of_cuts hasymm (hla.symm.trans hld) (hrb.symm.trans hrc)
      (fun x hx y hy => htaken x (.inl hx) y (.inr hy))
      (fun y hy x hx => hkept y (.inl hy) x (.inl hx))
      (by simp only [List.length_reverse]; omega)
  have hright : b.length ≤ back.left.reverse.length :=
    length_le_of_cuts hasymm (hrb.symm.trans hrc) (hla.symm.trans hld)
      (fun y hy x hx => htaken y (.inr hy) x (.inl hx))
      (fun x hx y hy => hkept x (.inr hx) y (.inr hy))
      (by simp only [List.length_reverse]; omega)
  rw [List.length_reverse] at hleft hright
  refine ⟨_, if_pos ?_⟩
  split <;> omega

theorem mergeHalves_ordered {left right m : List α} (hle : left.length ≤ right.length)
    (hlt : right.length ≤ left.length + 1)
    (hkey : ByKey less key (left ++ right)) (hl : left.Pairwise (Ahead key before))
    (hr : right.Pairwise (Ahead key before)) (hlr : ∀ x ∈ left, ∀ y ∈ right, before x y)
    (h : mergeHalves less left right = .ok m) : m.Pairwise (Ahead key before) := by
  have hfront := mergeFront_ordered (n := left.length) hkey hl hr hlr
  have hback := mergeBack_ordered (n := left.length) hkey hl hr hlr
  obtain ⟨x, y, d, c, hx, hy, hperm, hx', hy', hone, rfl⟩ := mergeHalves_parts hle h
  generalize mergeFront less left.length left right = front at hfront hx hy ⊢
  generalize mergeBack less left.length left right = back at hback hperm hx' hy' ⊢
  have hsub : x ++ y ⊆ front.left ++ front.right := by
    intro z hz
    rw [hx, hy]
    simp only [List.mem_append] at hz ⊢
    tauto
  have hsub' : ∀ z ∈ back.taken.reverse, z ∈ front.left ++ front.right := by
    intro z hz
    rw [hx, hy]
    rw [hperm.mem_iff] at hz
    simp only [List.mem_append] at hz ⊢
    tauto
  have hbetween : (x ++ y).Pairwise (Ahead key before) := by
    have hlength : (x ++ y).length ≤ 1 := by
      rw [List.length_append]
      omega
    match x ++ y, hlength with
    | [], _ => exact .nil
    | [z], _ => exact List.pairwise_singleton _ z
  refine List.pairwise_append.mpr ⟨List.pairwise_append.mpr ⟨hfront.taken, hbetween, ?_⟩, ?_, ?_⟩
  · exact fun u hu v hv => hfront.rest u hu v (hsub hv)
  · exact List.pairwise_reverse.mpr (hback.taken.imp ahead_dual.mp)
  · intro u hu v hv
    rcases List.mem_append.mp hu with hu | hu
    · exact hfront.rest u hu v (hsub' v hv)
    · refine ahead_dual.mp (hback.rest v (List.mem_reverse.mp hv) u ?_)
      exact List.mem_append.mpr ((List.mem_append.mp hu).symm.imp (@hy' u) (@hx' u))

end StableSort
end LogLens
