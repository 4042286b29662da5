/-
Merging runs sorts a list.

Every run lies over a stretch of the list: a sorted run sorts its stretch, any other is its stretch.
The runs on the stack, from the bottom to the top, the run at hand and those to come lie over the
whole list side by side, and no merge changes that.  So the run that is left in the end lies over
the whole list.  How deep in the tree two runs meet has no part in this.
-/
import LogLens.Order.StableSort
import LogLens.Proofs.Order.SmallSort

namespace LogLens
namespace StableSort

variable {α κ : Type} [LinearOrder κ] {less : α → α → Bool} {key : α → κ}
  {before : α → α → Prop}

/-! ## Runs that are there already -/

/-- How the keys of a chain of elements follow each other. -/
def Follows (key : α → κ) (down : Bool) (a b : α) : Prop :=
  if down then key b < key a else key a ≤ key b

theorem Follows.trans {down : Bool} {a b c : α} (hab : Follows key down a b)
    (hbc : Follows key down b c) : Follows key down a c := by
  cases down with
  | false => exact le_trans (show key a ≤ key b from hab) hbc
  | true => exact lt_trans (show key c < key b from hbc) hab

theorem pairwise_chain {down : Bool} (x : α) (rest : List α)
    (hkey : ByKey less key (x :: rest.take (chainLength less down x rest))) :
    (x :: rest.take (chainLength less down x rest)).Pairwise (Follows key down) := by
  induction rest generalizing x with
  | nil => exact List.pairwise_singleton _ x
  | cons y rest ih =>
    rw [chainLength] at hkey ⊢
    split
    next h =>
      rw [if_pos h, List.take_succ_cons] at hkey
      have hxy : Follows key down x y := by
        have hcomp := hkey y (by simp) x (by simp)
        rw [beq_iff_eq.mp h] at hcomp
        cases down with
        | false => exact not_lt.mp (mt hcomp.mpr Bool.false_ne_true)
        | true => exact hcomp.mp rfl
      have hy := ih y (hkey.mono (List.subset_cons_self x _))
      rw [List.take_succ_cons]
      refine List.pairwise_cons.mpr ⟨fun z hz => ?_, hy⟩
      rcases List.mem_cons.mp hz with rfl | hz
      · exact hxy
      · exact hxy.trans ((List.pairwise_cons.mp hy).1 z hz)
    next => exact List.pairwise_singleton _ x

/-- A run that is there already is sorted once it is turned round if it descends. -/
theorem sortOf_lead (x : α) (rest : List α) :
    SortOf less key before
      (if descends less (x :: rest) then ((x :: rest).take (leadLength less (x :: rest))).reverse
        else (x :: rest).take (leadLength less (x :: rest)))
      ((x :: rest).take (leadLength less (x :: rest))) := by
  have hchain : ∀ down, ByKey less key (x :: rest.take (chainLength less down x rest)) →
      (x :: rest.take (chainLength less down x rest)).Pairwise (Follows key down) :=
    fun down => pairwise_chain x rest
  rw [leadLength, List.take_succ_cons]
  split
  next hdown =>
    refine ⟨List.reverse_perm _, fun hgood => List.pairwise_reverse.mpr ?_⟩
    refine (hchain _ hgood.byKey).imp fun hab => ?_
    rw [Follows, if_pos hdown] at hab
    exact Or.inl hab
  next hdown =>
    refine ⟨.refl _, fun hgood => ?_⟩
    refine ((hchain _ hgood.byKey).and hgood.before).imp fun hab => ?_
    rw [Follows, if_neg hdown] at hab
    exact .of_le hab.1 hab.2

/-! ## Runs over stretches -/

/-- A run lies over a stretch of the list. -/
structure Run.Over (less : α → α → Bool) (key : α → κ) (before : α → α → Prop) (r : Run α)
    (part : List α) : Prop where
  sorted : r.sorted = true → SortOf less key before r.elems part
  unsorted : r.sorted = false → r.elems = part

theorem Run.Over.perm {r : Run α} {part : List α} (h : r.Over less key before part) :
    r.elems.Perm part := by
  cases hs : r.sorted with
  | true => exact (h.sorted hs).perm
  | false => rw [h.unsorted hs]

theorem Run.Over.of_sortOf {l part : List α} (h : SortOf less key before l part) :
    Run.Over less key before ⟨l, true⟩ part :=
  ⟨fun _ => h, fun hs => absurd hs (by simp)⟩

theorem Run.Over.of_eq (part : List α) : Run.Over less key before ⟨part, false⟩ part :=
  ⟨fun hs => absurd hs (by simp), fun _ => rfl⟩

theorem firstRun_pos (m : Manner α) (x : α) (rest : List α) :
    0 < (firstRun less m (x :: rest)).1 := by
  have hlead : 0 < leadLength less (x :: rest) := Nat.succ_pos _
  rw [firstRun]
  split
  · exact hlead
  · split
    · exact Nat.succ_pos 31
    · show 0 < m.good
      omega

theorem yields_firstRun (m : Manner α) (hquick : ∀ l, Sorts less key before (m.quick l) l) (x : α)
    (rest : List α) :
    Yields (Orderly less key before ((x :: rest).take (firstRun less m (x :: rest)).1))
      (firstRun less m (x :: rest)).2
      (Run.Over less key before · ((x :: rest).take (firstRun less m (x :: rest)).1)) := by
  rw [firstRun]
  split
  · exact .ok (.of_sortOf (sortOf_lead x rest))
  · split
    · have hshort := hquick ((x :: rest).take shortLength)
      exact hshort.bind id fun l hl => .ok (Run.Over.of_sortOf hl)
    · exact .ok (.of_eq _)

/-- The runs of a list lie over it side by side. -/
theorem yields_runsOf (m : Manner α) (hquick : ∀ l, Sorts less key before (m.quick l) l)
    (v : List α) :
    Yields (Orderly less key before v) (runsOf less m v) fun runs =>
      ∃ parts, parts.flatten = v ∧ List.Forall₂ (Run.Over less key before) runs parts := by
  induction hn : v.length using Nat.strong_induction_on generalizing v with
  | _ n ih =>
    cases v with
    | nil =>
      rw [runsOf]
      exact .ok ⟨[], rfl, .nil⟩
    | cons x rest =>
      have hsplit : (x :: rest).take (firstRun less m (x :: rest)).1 ++
          rest.drop ((firstRun less m (x :: rest)).1 - 1) = x :: rest := by
        obtain ⟨k, hk⟩ := Nat.exists_eq_succ_of_ne_zero (firstRun_pos m x rest).ne'
        rw [hk, Nat.succ_eq_add_one, List.take_succ_cons, Nat.add_sub_cancel, List.cons_append,
          List.take_append_drop]
      rw [runsOf]
      refine (yields_firstRun m hquick x rest).bind
        (fun hgood => hgood.sublist (List.take_sublist _ _)) fun run hrun => ?_
      have hrest := ih _ (by simp only [← hn, List.length_drop, List.length_cons]; omega)
        (rest.drop ((firstRun less m (x :: rest)).1 - 1)) rfl
      refine hrest.bind (fun hgood => Orderly.right (hsplit ▸ hgood)) fun runs hruns => ?_
      obtain ⟨parts, hparts, hover⟩ := hruns
      exact .ok ⟨_ :: parts, by rw [List.flatten_cons, hparts, hsplit], .cons hrun hover⟩

/-! ## Merging two runs -/

theorem sorts_settle {quick : List α → Except Disorder (List α)}
    (hquick : ∀ l, Sorts less key before (quick l) l) {r : Run α} {part : List α}
    (h : r.Over less key before part) : Sorts less key before (r.settle quick) part := by
  rw [Run.settle]
  split
  next hs => exact .ok (h.sorted hs)
  next hs =>
    rw [h.unsorted (Bool.eq_false_iff.mpr hs)]
    exact hquick part

theorem sortOf_merge {left right l r : List α} (hl : SortOf less key before left l)
    (hr : SortOf less key before right r) :
    SortOf less key before (merge less left right) (l ++ r) := by
  have hperm := hl.perm.append hr.perm
  refine ⟨(merge_perm left right).trans hperm, fun hgood => ?_⟩
  refine pairwise_merge (hgood.byKey.mono hperm.subset) (hl.ordered hgood.left)
    (hr.ordered hgood.right) fun x hx y hy => ?_
  exact hgood.cross x (hl.perm.mem_iff.mp hx) y (hr.perm.mem_iff.mp hy)

theorem yields_mergeRuns {quick : List α → Except Disorder (List α)}
    (hquick : ∀ l, Sorts less key before (quick l) l) (room : Nat) {left right : Run α}
    {l r : List α} (hl : left.Over less key before l) (hr : right.Over less key before r) :
    Yields (Orderly less key before (l ++ r)) (mergeRuns less quick room left right)
      (Run.Over less key before · (l ++ r)) := by
  rw [mergeRuns]
  split
  next hunsorted =>
    simp only [Bool.and_eq_true, Bool.not_eq_true'] at hunsorted
    rw [hl.unsorted hunsorted.1.1, hr.unsorted hunsorted.1.2]
    exact .ok (.of_eq _)
  next =>
    refine (sorts_settle hquick hl).bind Orderly.left fun a ha => ?_
    refine (sorts_settle hquick hr).bind Orderly.right fun b hb => ?_
    exact .ok (.of_sortOf (sortOf_merge ha hb))

/-! ## The stack of runs -/

/-- The runs of a stack lie over a stretch of the list, the bottom one over its beginning. -/
def Piled (less : α → α → Bool) (key : α → κ) (before : α → α → Prop) :
    List (Run α × Nat) → List α → Prop
  | [], l => l = []
  | (run, _) :: stack, l =>
    ∃ below part, l = below ++ part ∧ Piled less key before stack below ∧
      run.Over less key before part

theorem yields_collapse {quick : List α → Except Disorder (List α)}
    (hquick : ∀ l, Sorts less key before (quick l) l) (room depth : Nat)
    {stack : List (Run α × Nat)} {run : Run α} {l part : List α}
    (hstack : Piled less key before stack l) (hrun : run.Over less key before part) :
    Yields (Orderly less key before (l ++ part)) (collapse less quick room depth stack run)
      fun result => ∃ l' part', l ++ part = l' ++ part' ∧
        Piled less key before result.1 l' ∧ result.2.Over less key before part' := by
  induction stack generalizing run l part with
  | nil => exact .ok ⟨l, part, rfl, hstack, hrun⟩
  | cons top stack ih =>
    obtain ⟨left, d⟩ := top
    rw [collapse]
    split
    · obtain ⟨below, lpart, rfl, hbelow, hleft⟩ := hstack
      rw [List.append_assoc]
      exact (yields_mergeRuns hquick room hleft hrun).bind Orderly.right fun merged hmerged =>
        ih hbelow hmerged
    · exact .ok ⟨l, part, rfl, hstack, hrun⟩

/-- In the end all runs of the stack are merged with the last one. -/
theorem yields_unpile {quick : List α → Except Disorder (List α)}
    (hquick : ∀ l, Sorts less key before (quick l) l) (room : Nat)
    {stack : List (Run α × Nat)} {run : Run α} {l part : List α}
    (hstack : Piled less key before stack l) (hrun : run.Over less key before part) :
    Yields (Orderly less key before (l ++ part))
      (stack.foldlM (fun run e => mergeRuns less quick room e.1 run) run)
      (Run.Over less key before · (l ++ part)) := by
  induction stack generalizing run l part with
  | nil =>
    rw [show l = [] from hstack]
    exact .ok hrun
  | cons top stack ih =>
    obtain ⟨below, lpart, rfl, hbelow, hleft⟩ := hstack
    rw [List.foldlM_cons, List.append_assoc]
    exact (yields_mergeRuns hquick room hleft hrun).bind Orderly.right fun merged hmerged =>
      ih hbelow hmerged

theorem yields_mergeAll {quick : List α → Except Disorder (List α)}
    (hquick : ∀ l, Sorts less key before (quick l) l) (room factor : Nat)
    {runs : List (Run α)} {parts : List (List α)}
    (hruns : List.Forall₂ (Run.Over less key before) runs parts)
    {stack : List (Run α × Nat)} {run : Run α} {l part : List α} (scanned : Nat)
    (hstack : Piled less key before stack l) (hrun : run.Over less key before part) :
    Yields (Orderly less key before (l ++ part ++ parts.flatten))
      (mergeAll less quick room factor stack run scanned runs)
      (Run.Over less key before · (l ++ part ++ parts.flatten)) := by
  induction hruns generalizing stack run l part scanned with
  | nil =>
    rw [mergeAll, List.flatten_nil, List.append_nil]
    exact yields_unpile hquick room hstack hrun
  | cons hnext hrest ih =>
    rw [mergeAll]
    refine (yields_collapse hquick room _ hstack hrun).bind Orderly.left fun result hresult => ?_
    obtain ⟨l', part', hsame, hpiled, hover⟩ := hresult
    rw [hsame, List.flatten_cons, ← List.append_assoc]
    exact ih _ ⟨l', part', rfl, hpiled, hover⟩ hnext

/-- Merging runs sorts, whatever sorts the runs. -/
theorem sorts_sortRuns (room : Nat) (eager : Bool) {quick : List α → Except Disorder (List α)}
    (hquick : ∀ l, Sorts less key before (quick l) l) (v : List α) :
    Sorts less key before (sortRuns less room eager quick v) v := by
  rw [sortRuns]
  refine (yields_runsOf ⟨goodLength v.length, eager, quick⟩ hquick v).bind id fun runs hruns => ?_
  obtain ⟨parts, rfl, hover⟩ := hruns
  cases hover with
  | nil => exact .ok ⟨.refl _, fun _ => .nil⟩
  | cons hrun hrest =>
    have hempty : Piled less key before [] [] := rfl
    exact (yields_mergeAll hquick room _ hrest _ hempty hrun).bind id fun run hlast =>
      sorts_settle hquick hlast

end StableSort
end LogLens
