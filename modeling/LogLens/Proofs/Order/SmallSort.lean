/-
Sorting a short list rearranges it, and with a comparison by keys it does so in order.

A comparison that contradicts itself may break a sort off, but whatever comes out is a
rearrangement of what went in.  The order is that of a stable sort: by key, and among equal keys as
before.
-/
import LogLens.Proofs.Order.Merging

namespace LogLens
namespace StableSort

/-! ## Steps that may break off -/

/-- What comes out of a step satisfies `Q`, and under a condition something does come out. -/
structure Yields {β : Type} (condition : Prop) (outcome : Except Disorder β) (Q : β → Prop) :
    Prop where
  holds : ∀ b, outcome = .ok b → Q b
  answers : condition → ∃ b, outcome = .ok b

namespace Yields

variable {β γ : Type} {c d : Prop} {outcome : Except Disorder β} {Q R : β → Prop}

theorem ok {b : β} (h : Q b) : Yields c (.ok b) Q :=
  ⟨fun _ hb => Except.ok.inj hb ▸ h, fun _ => ⟨b, rfl⟩⟩

theorem imp (h : Yields c outcome Q) (hc : d → c) (hQ : ∀ b, Q b → R b) : Yields d outcome R :=
  ⟨fun b hb => hQ b (h.holds b hb), fun hd => h.answers (hc hd)⟩

theorem bind {next : β → Except Disorder γ} {S : γ → Prop} (h : Yields c outcome Q) (hc : d → c)
    (hnext : ∀ b, Q b → Yields d (next b) S) : Yields d (outcome >>= next) S := by
  cases outcome with
  | error e =>
    refine ⟨fun b hb => absurd hb (by simp [Bind.bind, Except.bind]), fun hd => ?_⟩
    obtain ⟨b, hb⟩ := h.answers (hc hd)
    exact absurd hb (by simp)
  | ok b => exact hnext b (h.holds b rfl)

end Yields

variable {α κ : Type} [LinearOrder κ] {less : α → α → Bool} {key : α → κ}
  {before : α → α → Prop}

/-- The elements of a list are compared by keys and stand in an order of their own. -/
structure Orderly (less : α → α → Bool) (key : α → κ) (before : α → α → Prop) (l : List α) :
    Prop where
  byKey : ByKey less key l
  before : l.Pairwise before

theorem Orderly.sublist {l m : List α} (h : Orderly less key before l) (hsub : m.Sublist l) :
    Orderly less key before m :=
  ⟨h.byKey.mono hsub.subset, h.before.sublist hsub⟩

theorem Orderly.left {l m : List α} (h : Orderly less key before (l ++ m)) :
    Orderly less key before l :=
  h.sublist (List.sublist_append_left l m)

theorem Orderly.right {l m : List α} (h : Orderly less key before (l ++ m)) :
    Orderly less key before m :=
  h.sublist (List.sublist_append_right l m)

theorem Orderly.cross {l m : List α} (h : Orderly less key before (l ++ m)) :
    ∀ x ∈ l, ∀ y ∈ m, before x y :=
  (List.pairwise_append.mp h.before).2.2

/-- A rearrangement of a list, and a stable sort of it if it is orderly. -/
structure SortOf (less : α → α → Bool) (key : α → κ) (before : α → α → Prop) (m l : List α) :
    Prop where
  perm : m.Perm l
  ordered : Orderly less key before l → m.Pairwise (Ahead key before)

/-- An outcome sorts a list. -/
abbrev Sorts (less : α → α → Bool) (key : α → κ) (before : α → α → Prop)
    (outcome : Except Disorder (List α)) (l : List α) : Prop :=
  Yields (Orderly less key before l) outcome (SortOf less key before · l)

/-! ## Insertion -/

theorem insertBack_perm (x : α) (back : List α) : (insertBack less x back).Perm (x :: back) := by
  induction back with
  | nil => exact .refl _
  | cons y rest ih =>
    rw [insertBack]
    split
    · exact (ih.cons y).trans (.swap x y rest)
    · exact .refl _

theorem insertBack_ordered {x : α} {back : List α} (hkey : ByKey less key (x :: back))
    (hback : back.Pairwise fun a b => Ahead key before b a) (hx : ∀ y ∈ back, before y x) :
    (insertBack less x back).Pairwise fun a b => Ahead key before b a := by
  induction back with
  | nil => exact List.pairwise_singleton _ x
  | cons y rest ih =>
    have hy := List.pairwise_cons.mp hback
    rw [insertBack]
    split
    next hless =>
      have hlt := (hkey x (by simp) y (by simp)).mp hless
      have hsub : x :: rest ⊆ x :: y :: rest := ((List.sublist_cons_self y rest).cons_cons x).subset
      refine List.pairwise_cons.mpr ⟨fun z hz => ?_,
        ih (hkey.mono hsub) hy.2 fun z hz => hx z (List.mem_cons_of_mem y hz)⟩
      rcases List.mem_cons.mp ((insertBack_perm x rest).mem_iff.mp hz) with rfl | hz
      · exact Or.inl hlt
      · exact hy.1 z hz
    next hless =>
      have hle := (hkey.not_less (by simp) (by simp)).mp (Bool.eq_false_iff.mpr hless)
      refine List.pairwise_cons.mpr ⟨fun z hz => ?_, hback⟩
      have hzx := hx z hz
      rcases List.mem_cons.mp hz with rfl | hz
      · exact .of_le hle hzx
      · exact .of_le ((hy.1 z hz).key_le.trans hle) hzx

theorem insertAll_cons (sorted rest : List α) (x : α) :
    insertAll less sorted (x :: rest) =
      insertAll less (insertBack less x sorted.reverse).reverse rest := by
  simp only [insertAll, List.foldl_cons, List.reverse_reverse]

theorem insertAll_perm (sorted rest : List α) :
    (insertAll less sorted rest).Perm (sorted ++ rest) := by
  induction rest generalizing sorted with
  | nil => simp [insertAll]
  | cons x rest ih =>
    rw [insertAll_cons]
    have hback : (insertBack less x sorted.reverse).reverse.Perm (x :: sorted) :=
      (List.reverse_perm _).trans ((insertBack_perm x _).trans ((List.reverse_perm _).cons x))
    exact (ih _).trans ((hback.append_right rest).trans List.perm_middle.symm)

theorem insertAll_ordered {sorted rest : List α} (hkey : ByKey less key (sorted ++ rest))
    (hsorted : sorted.Pairwise (Ahead key before)) (hrest : rest.Pairwise before)
    (hcross : ∀ x ∈ sorted, ∀ y ∈ rest, before x y) :
    (insertAll less sorted rest).Pairwise (Ahead key before) := by
  induction rest generalizing sorted with
  | nil => simpa [insertAll] using hsorted
  | cons x rest ih =>
    rw [insertAll_cons]
    have hx := List.pairwise_cons.mp hrest
    have hmem : ∀ z, z ∈ (insertBack less x sorted.reverse).reverse ↔ z = x ∨ z ∈ sorted := by
      intro z
      rw [List.mem_reverse, (insertBack_perm x _).mem_iff, List.mem_cons, List.mem_reverse]
    refine ih (hkey.mono fun z hz => ?_) ?_ hx.2 fun y hy z hz => ?_
    · simp only [List.mem_append, hmem, List.mem_cons] at hz ⊢
      tauto
    · refine List.pairwise_reverse.mpr (insertBack_ordered (hkey.mono fun z hz => ?_)
        (List.pairwise_reverse.mpr hsorted) fun y hy => ?_)
      · simp only [List.mem_cons, List.mem_reverse, List.mem_append] at hz ⊢
        tauto
      · exact hcross y (List.mem_reverse.mp hy) x List.mem_cons_self
    · rcases (hmem y).mp hy with rfl | hy
      · exact hx.1 z hz
      · exact hcross y hy z (List.mem_cons_of_mem x hz)

/-- A list whose start is sorted already. -/
theorem sortOf_insertAll {start sorted rest : List α} (h : SortOf less key before sorted start) :
    SortOf less key before (insertAll less sorted rest) (start ++ rest) := by
  refine ⟨(insertAll_perm sorted rest).trans (h.perm.append_right rest), fun hgood => ?_⟩
  refine insertAll_ordered (hgood.byKey.mono (h.perm.append_right rest).subset)
    (h.ordered hgood.left) hgood.right.before fun x hx => ?_
  exact hgood.cross x (h.perm.mem_iff.mp hx)

theorem sortOf_insertion (l : List α) : SortOf less key before (insertAll less [] l) l := by
  have hnone : SortOf less key before [] [] := ⟨.refl _, fun _ => .nil⟩
  exact sortOf_insertAll hnone

/-! ## Fixed patterns -/

theorem sort2_perm (less : α → α → Bool) (x y : α) :
    [(sort2 less x y).1, (sort2 less x y).2].Perm [x, y] := by
  rw [sort2]
  split
  · exact .swap x y []
  · exact .refl _

/-- Two elements between two others. -/
theorem pairwise_sort2 {x u v y : α} (hkey : less v u = true ↔ key v < key u)
    (hxu : Ahead key before x u) (hxv : Ahead key before x v) (hxy : Ahead key before x y)
    (huy : Ahead key before u y) (hvy : Ahead key before v y)
    (huv : key u ≤ key v → Ahead key before u v) :
    [x, (sort2 less u v).1, (sort2 less u v).2, y].Pairwise (Ahead key before) := by
  rw [sort2]
  split
  next h =>
    have hlt : Ahead key before v u := Or.inl (hkey.mp h)
    simp [hxu, hxv, hxy, huy, hvy, hlt]
  next h =>
    have hle := huv (not_lt.mp (mt hkey.mpr h))
    simp [hxu, hxv, hxy, huy, hvy, hle]

theorem mergePairs_perm (a b c d : α) : (mergePairs less a b c d).Perm [a, b, c, d] := by
  have hmiddle : ∀ x u v y : α, [x, (sort2 less u v).1, (sort2 less u v).2, y].Perm [x, u, v, y] :=
    fun x u v y => ((sort2_perm less u v).append_right [y]).cons x
  rw [mergePairs]
  refine (hmiddle _ _ _ _).trans ?_
  rw [← Multiset.coe_eq_coe]
  split_ifs <;> simp only [← Multiset.cons_coe, ← Multiset.singleton_add] <;> abel

theorem mergePairs_ordered {a b c d : α} (hkey : ByKey less key [a, b, c, d])
    (hab : Ahead key before a b) (hcd : Ahead key before c d)
    (hcross : ∀ x ∈ [a, b], ∀ y ∈ [c, d], before x y) :
    (mergePairs less a b c d).Pairwise (Ahead key before) := by
  have hac := hcross a (by simp) c (by simp)
  have had := hcross a (by simp) d (by simp)
  have hbc := hcross b (by simp) c (by simp)
  have hbd := hcross b (by simp) d (by simp)
  rw [mergePairs]
  by_cases hfirst : less c a = true
  · have hca := (hkey c (by simp) a (by simp)).mp hfirst
    by_cases hlast : less d b = true
    · have hdb := (hkey d (by simp) b (by simp)).mp hlast
      simp only [hfirst, hlast, if_true]
      exact pairwise_sort2 (hkey d (by simp) a (by simp)) (.inl hca) hcd
        (.inl (hca.trans_le hab.key_le)) hab (.inl hdb) fun h => .of_le h had
    · have hbd' := not_lt.mp (mt (hkey d (by simp) b (by simp)).mpr hlast)
      simp only [hfirst, hlast, if_true]
      exact pairwise_sort2 (hkey b (by simp) a (by simp)) (.inl hca)
        (.inl (hca.trans_le hab.key_le)) hcd (.of_le (hab.key_le.trans hbd') had)
        (.of_le hbd' hbd) fun _ => hab
  · have hac' := not_lt.mp (mt (hkey c (by simp) a (by simp)).mpr hfirst)
    by_cases hlast : less d b = true
    · have hdb := (hkey d (by simp) b (by simp)).mp hlast
      simp only [hfirst, hlast, if_true]
      exact pairwise_sort2 (hkey d (by simp) c (by simp)) (.of_le hac' hac)
        (.of_le (hac'.trans hcd.key_le) had) hab (.inl (hcd.key_le.trans_lt hdb)) (.inl hdb)
        fun _ => hcd
    · have hbd' := not_lt.mp (mt (hkey d (by simp) b (by simp)).mpr hlast)
      simp only [hfirst, hlast]
      exact pairwise_sort2 (hkey c (by simp) b (by simp)) hab (.of_le hac' hac)
        (.of_le (hab.key_le.trans hbd') had) (.of_le hbd' hbd) hcd fun h => .of_le h hbc

theorem sort2_ahead {u v : α} (hkey : less v u = true ↔ key v < key u) (huv : before u v) :
    Ahead key before (sort2 less u v).1 (sort2 less u v).2 := by
  rw [sort2]
  split
  next h => exact .inl (hkey.mp h)
  next h => exact .of_le (not_lt.mp (mt hkey.mpr h)) huv

theorem sortOf_sort4 (p q r s : α) :
    SortOf less key before (sort4 less p q r s) [p, q, r, s] := by
  have hperm := (sort2_perm less p q).append (sort2_perm less r s)
  rw [sort4]
  refine ⟨(mergePairs_perm _ _ _ _).trans hperm, fun hgood => ?_⟩
  have hkey := hgood.byKey
  have hhalves : Orderly less key before ([p, q] ++ [r, s]) := hgood
  refine mergePairs_ordered (hkey.mono hperm.subset)
    (sort2_ahead (hkey q (by simp) p (by simp)) (by simpa using hhalves.left.before))
    (sort2_ahead (hkey s (by simp) r (by simp)) (by simpa using hhalves.right.before))
    fun x hx y hy => ?_
  exact hhalves.cross x ((sort2_perm less p q).mem_iff.mp hx) y
    ((sort2_perm less r s).mem_iff.mp hy)

/-! ## Lists of moderate length -/

/-- Sorted halves are merged to a sorted list. -/
theorem sorts_mergeHalves (hasymm : ∀ a b, before a b → ¬ before b a) {left right l r : List α}
    (hl : SortOf less key before left l) (hr : SortOf less key before right r)
    (hle : l.length ≤ r.length) (hlt : r.length ≤ l.length + 1) :
    Sorts less key before (mergeHalves less left right) (l ++ r) := by
  rw [← hl.perm.length_eq, ← hr.perm.length_eq] at hle hlt
  have hperm := hl.perm.append hr.perm
  have hcross : Orderly less key before (l ++ r) → ∀ x ∈ left, ∀ y ∈ right, before x y :=
    fun hgood x hx y hy => hgood.cross x (hl.perm.mem_iff.mp hx) y (hr.perm.mem_iff.mp hy)
  refine ⟨fun m h => ⟨(mergeHalves_perm hle h).trans hperm, fun hgood => ?_⟩, fun hgood => ?_⟩
  · exact mergeHalves_ordered hle hlt (hgood.byKey.mono hperm.subset) (hl.ordered hgood.left)
      (hr.ordered hgood.right) (hcross hgood) h
  · exact exists_mergeHalves hasymm hle hlt (hgood.byKey.mono hperm.subset)
      (hl.ordered hgood.left) (hr.ordered hgood.right) (hcross hgood)

theorem sorts_sortHalf (hasymm : ∀ a b, before a b → ¬ before b a) (total : Nat) (l : List α) :
    Sorts less key before (sortHalf less total l) l := by
  have hfour : ∀ a b c d rest, Sorts less key before
      (.ok (insertAll less (sort4 less a b c d) rest)) (a :: b :: c :: d :: rest) :=
    fun a b c d rest => .ok (sortOf_insertAll (sortOf_sort4 a b c d))
  rw [sortHalf.eq_def]
  split
  next a b c d rest =>
    split
    · split
      next e f g h rest =>
        have height : Sorts less key before
            (mergeHalves less (sort4 less a b c d) (sort4 less e f g h))
            ([a, b, c, d] ++ [e, f, g, h]) :=
          sorts_mergeHalves hasymm (sortOf_sort4 a b c d) (sortOf_sort4 e f g h) (Nat.le_refl 4)
            (Nat.le_succ 4)
        exact height.bind (fun hgood => hgood.sublist (List.sublist_append_left _ rest))
          fun start hstart => .ok (sortOf_insertAll hstart)
      · exact hfour a b c d _
    · split
      · exact hfour a b c d rest
      · exact .ok (sortOf_insertion _)
  · exact .ok (sortOf_insertion _)

theorem sorts_sortShort (hasymm : ∀ a b, before a b → ¬ before b a) (l : List α) :
    Sorts less key before (sortShort less l) l := by
  refine (sorts_sortHalf hasymm l.length (l.take (l.length / 2))).bind
    (fun hgood => hgood.sublist (List.take_sublist _ l)) fun left hleft => ?_
  refine (sorts_sortHalf hasymm l.length (l.drop (l.length / 2))).bind
    (fun hgood => hgood.sublist (List.drop_sublist _ l)) fun right hright => ?_
  have hmerged := sorts_mergeHalves hasymm hleft hright
    (by rw [List.length_take, List.length_drop]; omega)
    (by rw [List.length_take, List.length_drop]; omega)
  rwa [List.take_append_drop] at hmerged

end StableSort
end LogLens
