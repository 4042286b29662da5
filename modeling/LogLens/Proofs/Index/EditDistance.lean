/-
The bounded distance is the edit distance.

`Edits s t n` says that `n` edits of single characters, made from left to right, lead from `s` to
`t`.  The distance of two texts is the least such `n`, which makes it symmetric under reversal: the
definition takes texts apart from the left, while row `i` of the search holds the distances of the
first `i` characters and so grows at the right.

A row whose entries are all over the bound can end the search, because edits that lead from a text
to another one lead from each beginning of the first to some beginning of the second.

The search keeps two rows and writes each over the last but one.  Rows as lists, each made from the
one above it, are what the proofs speak of; `distanceInRows_eq` says that the rows in place hold the
same entries and that no access to them is behind their end.
-/
import Mathlib
import LogLens.Index.EditDistance

namespace LogLens
namespace Index

/-! ## Edits -/

/-- `n` edits lead from the first text to the second. -/
inductive Edits : List Char → List Char → Nat → Prop
  | done : Edits [] [] 0
  | keep (a : Char) {s t : List Char} {n : Nat} : Edits s t n → Edits (a :: s) (a :: t) n
  | substitute (a b : Char) {s t : List Char} {n : Nat} :
    Edits s t n → Edits (a :: s) (b :: t) (n + 1)
  | delete (a : Char) {s t : List Char} {n : Nat} : Edits s t n → Edits (a :: s) t (n + 1)
  | insert (b : Char) {s t : List Char} {n : Nat} : Edits s t n → Edits s (b :: t) (n + 1)

namespace Edits

theorem symm {s t : List Char} {n : Nat} (h : Edits s t n) : Edits t s n := by
  induction h with
  | done => exact done
  | keep a _ ih => exact keep a ih
  | substitute a b _ ih => exact substitute b a ih
  | delete a _ ih => exact insert a ih
  | insert b _ ih => exact delete b ih

theorem append {s t s' t' : List Char} {n m : Nat} (h : Edits s t n) (h' : Edits s' t' m) :
    Edits (s ++ s') (t ++ t') (n + m) := by
  induction h with
  | done => rwa [Nat.zero_add]
  | keep a _ ih => exact keep a ih
  | substitute a b _ ih => rw [Nat.add_right_comm]; exact substitute a b ih
  | delete a _ ih => rw [Nat.add_right_comm]; exact delete a ih
  | insert b _ ih => rw [Nat.add_right_comm]; exact insert b ih

theorem reverse {s t : List Char} {n : Nat} (h : Edits s t n) :
    Edits s.reverse t.reverse n := by
  induction h with
  | done => exact done
  | keep a _ ih =>
    rw [List.reverse_cons, List.reverse_cons]
    exact ih.append (keep a done)
  | substitute a b _ ih =>
    rw [List.reverse_cons, List.reverse_cons]
    exact ih.append (substitute a b done)
  | @delete a s t n _ ih =>
    rw [List.reverse_cons, ← List.append_nil t.reverse]
    exact ih.append (delete a done)
  | @insert b s t n _ ih =>
    rw [List.reverse_cons, ← List.append_nil s.reverse]
    exact ih.append (insert b done)

theorem length_le {s t : List Char} {n : Nat} (h : Edits s t n) :
    s.length ≤ t.length + n ∧ t.length ≤ s.length + n := by
  induction h with
  | done => exact ⟨Nat.le_refl _, Nat.le_refl _⟩
  | keep a _ ih => simp only [List.length_cons]; omega
  | substitute a b _ ih => simp only [List.length_cons]; omega
  | delete a _ ih => simp only [List.length_cons]; omega
  | insert b _ ih => simp only [List.length_cons]; omega

/-- Leaving out the first character of the goal costs one edit at most. -/
theorem drop_goal {s t : List Char} {b : Char} {n : Nat} (h : Edits s (b :: t) n) :
    ∃ m ≤ n + 1, Edits s t m := by
  generalize hgoal : b :: t = goal at h
  induction h with
  | done => exact absurd hgoal (List.cons_ne_nil b t)
  | @keep a s t' n h _ =>
    cases hgoal
    exact ⟨n + 1, Nat.le_refl _, delete b h⟩
  | @substitute a c s t' n h _ =>
    cases hgoal
    exact ⟨n + 1, by omega, delete a h⟩
  | delete a _ ih =>
    obtain ⟨m, hm, h⟩ := ih hgoal
    exact ⟨m + 1, by omega, delete a h⟩
  | @insert c s t' n h _ =>
    cases hgoal
    exact ⟨n, by omega, h⟩

/-- Edits of a text are edits of its beginning followed by edits of the rest. -/
theorem split {p s t : List Char} {n : Nat} (h : Edits (p ++ s) t n) :
    ∃ u v k m, t = u ++ v ∧ Edits p u k ∧ Edits s v m ∧ k + m = n := by
  generalize hsource : p ++ s = source at h
  induction h generalizing p with
  | done =>
    obtain ⟨rfl, rfl⟩ := List.append_eq_nil_iff.mp hsource
    exact ⟨[], [], 0, 0, rfl, done, done, rfl⟩
  | @keep a s' t n h ih =>
    cases p with
    | nil =>
      obtain rfl : s = a :: s' := hsource
      exact ⟨[], a :: t, 0, n, rfl, done, keep a h, Nat.zero_add n⟩
    | cons c p =>
      obtain ⟨rfl, hrest⟩ := List.cons.inj hsource
      obtain ⟨u, v, k, m, rfl, hu, hv, rfl⟩ := ih hrest
      exact ⟨c :: u, v, k, m, rfl, keep c hu, hv, rfl⟩
  | @substitute a b s' t n h ih =>
    cases p with
    | nil =>
      obtain rfl : s = a :: s' := hsource
      exact ⟨[], b :: t, 0, n + 1, rfl, done, substitute a b h, Nat.zero_add _⟩
    | cons c p =>
      obtain ⟨rfl, hrest⟩ := List.cons.inj hsource
      obtain ⟨u, v, k, m, rfl, hu, hv, rfl⟩ := ih hrest
      exact ⟨b :: u, v, k + 1, m, rfl, substitute c b hu, hv, by omega⟩
  | @delete a s' t n h ih =>
    cases p with
    | nil =>
      obtain rfl : s = a :: s' := hsource
      exact ⟨[], t, 0, n + 1, rfl, done, delete a h, Nat.zero_add _⟩
    | cons c p =>
      obtain ⟨rfl, hrest⟩ := List.cons.inj hsource
      obtain ⟨u, v, k, m, rfl, hu, hv, rfl⟩ := ih hrest
      exact ⟨u, v, k + 1, m, rfl, delete c hu, hv, by omega⟩
  | @insert b s' t n h ih =>
    obtain ⟨u, v, k, m, rfl, hu, hv, rfl⟩ := ih hsource
    exact ⟨b :: u, v, k + 1, m, rfl, insert b hu, hv, by omega⟩

end Edits

/-! ## The distance is the least number of edits -/

theorem editDistance_nil_left (t : List Char) : editDistance [] t = t.length := by
  rw [editDistance]

theorem editDistance_nil_right (s : List Char) : editDistance s [] = s.length := by
  cases s with
  | nil => rw [editDistance]
  | cons a s => rw [editDistance]; exact List.cons_ne_nil a s

theorem edits_from_nil (t : List Char) : Edits [] t t.length := by
  induction t with
  | nil => exact .done
  | cons b t ih => exact .insert b ih

theorem edits_editDistance (s t : List Char) : Edits s t (editDistance s t) := by
  induction s, t using editDistance.induct with
  | case1 t =>
    rw [editDistance_nil_left]
    exact edits_from_nil t
  | case2 s _ =>
    rw [editDistance_nil_right]
    exact (edits_from_nil s).symm
  | case3 s b t ih =>
    rw [editDistance, if_pos rfl]
    exact .keep b ih
  | case4 a s b t hab ih₁ ih₂ ih₃ =>
    rw [editDistance, if_neg hab, Nat.add_comm]
    rcases Nat.le_total (editDistance s t)
      (min (editDistance s (b :: t)) (editDistance (a :: s) t)) with h | h
    · rw [Nat.min_eq_left h]
      exact .substitute a b ih₁
    · rw [Nat.min_eq_right h]
      rcases Nat.le_total (editDistance s (b :: t)) (editDistance (a :: s) t) with h' | h'
      · rw [Nat.min_eq_left h']
        exact .delete a ih₂
      · rw [Nat.min_eq_right h']
        exact .insert b ih₃

theorem Edits.distance_le {s t : List Char} {n : Nat} (h : Edits s t n) :
    editDistance s t ≤ n := by
  induction s, t using editDistance.induct generalizing n with
  | case1 t =>
    rw [editDistance_nil_left]
    simpa using h.length_le.2
  | case2 s _ =>
    rw [editDistance_nil_right]
    simpa using h.length_le.1
  | case3 s b t ih =>
    rw [editDistance, if_pos rfl]
    cases h with
    | keep _ h => exact ih h
    | substitute _ _ h => exact Nat.le_succ_of_le (ih h)
    | delete _ h =>
      obtain ⟨m, hm, h⟩ := h.drop_goal
      exact Nat.le_trans (ih h) hm
    | insert _ h =>
      obtain ⟨m, hm, h⟩ := h.symm.drop_goal
      exact Nat.le_trans (ih h.symm) hm
  | case4 a s b t hab ih₁ ih₂ ih₃ =>
    rw [editDistance, if_neg hab]
    cases h with
    | keep _ h => exact absurd rfl hab
    | substitute _ _ h => have := ih₁ h; omega
    | delete _ h => have := ih₂ h; omega
    | insert _ h => have := ih₃ h; omega

theorem editDistance_le_iff {s t : List Char} {n : Nat} :
    editDistance s t ≤ n ↔ ∃ m ≤ n, Edits s t m := by
  constructor
  · intro h
    exact ⟨editDistance s t, h, edits_editDistance s t⟩
  · intro h
    obtain ⟨m, hm, h⟩ := h
    exact Nat.le_trans h.distance_le hm

theorem editDistance_reverse (s t : List Char) :
    editDistance s.reverse t.reverse = editDistance s t := by
  refine Nat.le_antisymm (edits_editDistance s t).reverse.distance_le ?_
  have h := (edits_editDistance s.reverse t.reverse).reverse.distance_le
  rwa [List.reverse_reverse, List.reverse_reverse] at h

/-- The distance is the least of the three ways to treat the first characters, also when these are
equal. -/
theorem editDistance_cons_cons (a b : Char) (s t : List Char) :
    editDistance (a :: s) (b :: t) =
      min (min (editDistance s t + if a = b then 0 else 1) (editDistance s (b :: t) + 1))
        (editDistance (a :: s) t + 1) := by
  by_cases hab : a = b
  · subst hab
    obtain ⟨m, hm, h⟩ := (edits_editDistance s (a :: t)).drop_goal
    have hdelete := h.distance_le
    obtain ⟨m', hm', h'⟩ := (edits_editDistance (a :: s) t).symm.drop_goal
    have hinsert := h'.symm.distance_le
    rw [editDistance, if_pos rfl, if_pos rfl]
    omega
  · rw [editDistance, if_neg hab, if_neg hab]
    omega

/-- The same for the last characters. -/
theorem editDistance_concat (a b : Char) (s t : List Char) :
    editDistance (s ++ [a]) (t ++ [b]) =
      min (min (editDistance s t + if a = b then 0 else 1) (editDistance s (t ++ [b]) + 1))
        (editDistance (s ++ [a]) t + 1) := by
  rw [← editDistance_reverse (s ++ [a]) (t ++ [b]), ← editDistance_reverse s (t ++ [b]),
    ← editDistance_reverse (s ++ [a]) t, ← editDistance_reverse s t]
  simp only [List.reverse_append, List.reverse_singleton, List.singleton_append]
  exact editDistance_cons_cons a b s.reverse t.reverse

/-! ## Rows -/

/-- The entries of a row behind its first one, from those of the row above it. -/
def rowTail (a : Char) (left : Nat) : List Char → List Nat → List Nat
  | b :: t, diagonal :: above :: rest =>
    let entry := min (min (diagonal + if a = b then 0 else 1) (above + 1)) (left + 1)
    entry :: rowTail a entry t (above :: rest)
  | _, _ => []

def leastOf (row : List Nat) : Nat :=
  row.foldl min (row.headD 0)

/-- Goes on from row `i` for the remaining characters of the first text. -/
def rows? (t : List Char) (limit : Nat) : Nat → List Nat → List Char → Option (List Nat)
  | _, row, [] => some row
  | i, row, a :: s =>
    let next := (i + 1) :: rowTail a (i + 1) t row
    if limit < leastOf next then none else rows? t limit (i + 1) next s

/-- The distances from a text to the beginnings of another one. -/
def row (p t : List Char) : List Nat := t.inits.map (editDistance p)

/-- A row without its first entry follows from that entry and the row above; `u` holds the
characters that are behind. -/
theorem rowTail_eq (a : Char) (p u t : List Char) :
    rowTail a (editDistance (p ++ [a]) u) t (t.inits.map fun v => editDistance p (u ++ v)) =
      t.inits.tail.map fun v => editDistance (p ++ [a]) (u ++ v) := by
  induction t generalizing u with
  | nil => rfl
  | cons b t ih =>
    obtain ⟨rest, hrest⟩ : ∃ rest, t.inits = [] :: rest := by
      cases t with
      | nil => exact ⟨[], rfl⟩
      | cons c t => exact ⟨_, List.inits_cons c t⟩
    have hih := ih (u ++ [b])
    rw [hrest] at hih
    simp only [List.map_cons, List.tail_cons, List.append_assoc, List.singleton_append] at hih
    rw [List.inits_cons, hrest]
    simp only [List.map_cons, List.map_map, List.tail_cons, List.append_nil, rowTail,
      Function.comp_def]
    rw [← editDistance_concat a b p u, hih]

theorem row_concat (a : Char) (p t : List Char) :
    (p.length + 1) :: rowTail a (p.length + 1) t (row p t) = row (p ++ [a]) t := by
  have hfirst : p.length + 1 = editDistance (p ++ [a]) [] := by
    rw [editDistance_nil_right, List.length_append, List.length_singleton]
  have htail := rowTail_eq a p [] t
  simp only [List.nil_append] at htail
  rw [hfirst, row, row]
  refine (congrArg _ htail).trans ?_
  cases t with
  | nil => rfl
  | cons b t => rw [List.inits_cons, List.map_cons, List.tail_cons]

theorem leastOf_le {row : List Nat} {n : Nat} (h : n ∈ row) : leastOf row ≤ n := by
  have hfold : ∀ (l : List Nat) (m : Nat), l.foldl min m ≤ m ∧ ∀ x ∈ l, l.foldl min m ≤ x := by
    intro l
    induction l with
    | nil => exact fun m => ⟨Nat.le_refl m, fun x hx => absurd hx List.not_mem_nil⟩
    | cons a l ih =>
      intro m
      obtain ⟨hm, hl⟩ := ih (min m a)
      refine ⟨Nat.le_trans hm (Nat.min_le_left m a), fun x hx => ?_⟩
      rcases List.mem_cons.mp hx with rfl | hx
      · exact Nat.le_trans hm (Nat.min_le_right m x)
      · exact hl x hx
  exact (hfold row (row.headD 0)).2 n h

/-- Some entry of each row is at most the distance at the end. -/
theorem exists_mem_row_le (p s t : List Char) : ∃ n ∈ row p t, n ≤ editDistance (p ++ s) t := by
  obtain ⟨u, v, k, m, ht, hu, -, hkm⟩ := (edits_editDistance (p ++ s) t).split
  refine ⟨editDistance p u, List.mem_map.mpr ⟨u, ?_, rfl⟩, ?_⟩
  · rw [List.mem_inits, ht]
    exact List.prefix_append u v
  · have := hu.distance_le
    omega

/-- The search finds the row of the whole text, unless the distance is over the bound. -/
theorem rows?_row (limit : Nat) (p s t : List Char) :
    rows? t limit p.length (row p t) s = some (row (p ++ s) t) ∨
      (rows? t limit p.length (row p t) s = none ∧ limit < editDistance (p ++ s) t) := by
  induction s generalizing p with
  | nil =>
    rw [List.append_nil]
    exact Or.inl rfl
  | cons a s ih =>
    have hp : p ++ a :: s = (p ++ [a]) ++ s := by simp
    simp only [rows?, row_concat]
    split
    · rename_i hover
      refine Or.inr ⟨rfl, ?_⟩
      obtain ⟨n, hn, hle⟩ := exists_mem_row_le (p ++ [a]) s t
      rw [hp]
      exact Nat.lt_of_lt_of_le (Nat.lt_of_lt_of_le hover (leastOf_le hn)) hle
    · have h := ih (p ++ [a])
      rwa [List.length_append, List.length_singleton, ← hp] at h

theorem row_nil (t : List Char) : row [] t = List.range (t.length + 1) := by
  refine List.ext_getElem (by simp [row]) fun i h _ => ?_
  have hi : i ≤ t.length := by simpa [row, Nat.lt_succ_iff] using h
  simp [row, editDistance_nil_left, hi]

theorem getLast?_row (p t : List Char) : (row p t).getLast? = some (editDistance p t) := by
  have hlast : t.inits.getLast? = some t := by
    rw [List.getLast?_eq_getElem?]
    simp
  rw [row, List.getLast?_map, hlast, Option.map_some]

/-! ## Rows in place -/

theorem length_rowTail {a : Char} {left : Nat} {t : List Char} {row : List Nat}
    (h : row.length = t.length + 1) : (rowTail a left t row).length = t.length := by
  induction t generalizing left row with
  | nil => cases row <;> rfl
  | cons b t ih =>
    match row, h with
    | diagonal :: above :: rest, h =>
      rw [rowTail, List.length_cons, List.length_cons, ih (by simpa using h)]

theorem entry_eq {row : Array Nat} {u v : List Nat} {n : Nat} (h : row.toList = u ++ n :: v) :
    entry row u.length = .ok n := by
  have hget : row[u.length]? = some n := by
    rw [← Array.getElem?_toList, h]
    simp
  rw [entry, hget]

theorem setEntry_eq {row : Array Nat} {u v : List Nat} {n : Nat} (h : row.toList = u ++ n :: v)
    (m : Nat) : ∃ row', setEntry row u.length m = .ok row' ∧ row'.toList = u ++ m :: v := by
  have hsize : u.length < row.size := by
    rw [← Array.length_toList, h, List.length_append, List.length_cons]
    omega
  refine ⟨row.setIfInBounds u.length m, by rw [setEntry, if_pos hsize], ?_⟩
  rw [Array.toList_setIfInBounds, h, List.set_append_right _ _ (Nat.le_refl _), Nat.sub_self,
    List.set_cons_zero]

/-- The entries that are written are those of the row behind its first one.  `u` and `v` are the
parts of the two rows that the loop has left behind, `junk` is written over. -/
theorem fillRow_eq (a : Char) (above : Array Nat) {t : List Char} {row : Array Nat}
    {u v rest junk : List Nat} {diagonal left : Nat} (habove : above.toList = u ++ diagonal :: rest)
    (hrow : row.toList = v ++ left :: junk) (hplace : v.length = u.length)
    (hrest : rest.length = t.length) (hjunk : junk.length = t.length) (least : Nat) :
    ∃ next, fillRow a above u.length t row least =
        .ok (next, (rowTail a left t (diagonal :: rest)).foldl min least) ∧
      next.toList = v ++ left :: rowTail a left t (diagonal :: rest) := by
  induction t generalizing u v rest junk diagonal left row least with
  | nil =>
    obtain rfl : junk = [] := List.eq_nil_of_length_eq_zero hjunk
    exact ⟨row, rfl, hrow⟩
  | cons b t ih =>
    cases rest with
    | nil => simp at hrest
    | cons upper rest =>
    cases junk with
    | nil => simp at hjunk
    | cons old junk =>
    have hplace' : (v ++ [left]).length = (u ++ [diagonal]).length := by simp [hplace]
    have habove' : above.toList = (u ++ [diagonal]) ++ upper :: rest := by simp [habove]
    have hrow' : row.toList = (v ++ [left]) ++ old :: junk := by simp [hrow]
    let n := min (min (diagonal + if a = b then 0 else 1) (upper + 1)) (left + 1)
    obtain ⟨row', hset, hwritten⟩ := setEntry_eq hrow' n
    obtain ⟨next, hnext, hlist⟩ := ih habove' hwritten hplace' (by simpa using hrest)
      (by simpa using hjunk) (min least n)
    have hleft := entry_eq hrow
    have hupper := entry_eq habove'
    rw [hplace'] at hset
    rw [hplace] at hleft
    rw [List.length_append, List.length_singleton] at hset hupper hnext
    refine ⟨next, ?_, ?_⟩
    · rw [fillRow, entry_eq habove, hupper, hleft]
      show (setEntry row (u.length + 1) n >>= fun row =>
        fillRow a above (u.length + 1) t row (min least n)) = _
      rw [hset]
      exact hnext
    · rw [hlist, List.append_assoc]
      rfl

/-- Both rows have an entry for each beginning of the text, so no access to them fails. -/
theorem fillRows_eq (t : List Char) (limit i : Nat) (s : List Char) (row spare : Array Nat)
    (hrow : row.size = t.length + 1) (hspare : spare.size = t.length + 1) :
    ∃ found, fillRows t limit i s row spare = .ok found ∧
      found.map Array.toList = rows? t limit i row.toList s := by
  induction s generalizing i row spare with
  | nil => exact ⟨some row, rfl, rfl⟩
  | cons a s ih =>
    rw [← Array.length_toList] at hrow hspare
    obtain ⟨diagonal, rest, hlist⟩ := List.exists_cons_of_length_eq_add_one hrow
    obtain ⟨old, junk, hold⟩ := List.exists_cons_of_length_eq_add_one hspare
    have hrest : rest.length = t.length := by simpa [hlist] using hrow
    have hjunk : junk.length = t.length := by simpa [hold] using hspare
    obtain ⟨first, hset, hfirst⟩ := setEntry_eq (u := []) hold (i + 1)
    obtain ⟨next, hfill, hnext⟩ :=
      fillRow_eq a row (u := []) (v := []) hlist hfirst rfl hrest hjunk (i + 1)
    rw [← hlist, List.nil_append] at hnext
    rw [← hlist, List.length_nil] at hfill
    rw [List.length_nil] at hset
    have hsize : next.size = t.length + 1 := by
      rw [← Array.length_toList, hnext, List.length_cons, length_rowTail hrow]
    have hleast : leastOf ((i + 1) :: rowTail a (i + 1) t row.toList) =
        (rowTail a (i + 1) t row.toList).foldl min (i + 1) := by simp [leastOf]
    have hstep : fillRows t limit i (a :: s) row spare =
        if limit < leastOf ((i + 1) :: rowTail a (i + 1) t row.toList) then .ok none
        else fillRows t limit (i + 1) s next row := by
      rw [fillRows, hset]
      show (fillRow a row 0 t first (i + 1) >>= fun filled =>
        if limit < filled.2 then pure none else fillRows t limit (i + 1) s filled.1 row) = _
      rw [hfill, hleast]
      rfl
    rw [hstep, rows?]
    split
    · exact ⟨none, rfl, rfl⟩
    · rw [← hnext]
      exact ih (i + 1) next row hsize hrow

/-- The program over two rows is the bounded distance, and none of its accesses fails. -/
theorem distanceInRows_eq (s t : List Char) (limit : Nat) :
    distanceInRows s t limit =
      .ok (if editDistance s t ≤ limit then some (editDistance s t) else none) := by
  have hlength := (edits_editDistance s t).length_le
  rw [distanceInRows]
  split
  · rw [if_neg (by omega)]
  · obtain ⟨found, hfound, hrows⟩ := fillRows_eq t limit 0 s (Array.range (t.length + 1))
      (Array.replicate (t.length + 1) 0) (by simp) (by simp)
    rw [hfound]
    rw [Array.toList_range, ← row_nil] at hrows
    rcases rows?_row limit [] s t with h | ⟨h, hover⟩
    · obtain ⟨last, rfl, hlast⟩ := Option.map_eq_some_iff.mp (hrows.trans h)
      obtain ⟨entries, hentries⟩ := List.getLast?_eq_some_iff.mp (getLast?_row s t)
      have hplace : entries.length = t.length := by
        have hrow := congrArg List.length hentries
        simp [row] at hrow
        omega
      show (entry last t.length >>= fun distance =>
        pure (if distance ≤ limit then some distance else none)) = _
      rw [← hplace, entry_eq (hlast.trans hentries)]
      rfl
    · obtain rfl := Option.map_eq_none_iff.mp (hrows.trans h)
      rw [List.nil_append] at hover
      rw [if_neg (Nat.not_le.mpr hover)]
      rfl

/-- The bounded distance is the distance, where that is within the bound. -/
theorem boundedDistance?_eq (s t : String) (limit : Nat) :
    boundedDistance? s t limit =
      if editDistance s.toList t.toList ≤ limit then some (editDistance s.toList t.toList)
      else none := by
  rw [boundedDistance?, distanceInRows_eq]

end Index
end LogLens
