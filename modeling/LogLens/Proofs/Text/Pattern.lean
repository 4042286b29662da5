/-
What patterns leave of a text.

What remains behind a match is the text without what is matched, and where nothing matches the text
is not cut.
To know what a search settles for, it is enough to know the preferred rest of each pattern and with
what characters its other rests begin (`Prefers`): patterns in a row go on from the preferred rest
when what follows matches there, and from no other when it fails on those characters.
-/
import Mathlib
import LogLens.Text.Pattern

namespace LogLens
namespace Pattern

theorem eq_drop_of_mem_one {p : Char → Bool} {cs rest : List Char} (h : rest ∈ one p cs) :
    rest = cs.drop 1 := by
  cases cs with
  | nil => cases h
  | cons c cs =>
    rw [one] at h
    split at h
    · exact List.mem_singleton.mp h
    · cases h

/-! ## Single matches -/

section Single

variable {p : Char → Bool} {a : Pattern} {ps : List Pattern} {c : Char} {cs rest : List Char}

theorem one_of_pos (h : p c = true) (cs : List Char) : one p (c :: cs) = [cs] := if_pos h

theorem one_of_neg (h : p c = false) (cs : List Char) : one p (c :: cs) = [] :=
  if_neg (Bool.eq_false_iff.mp h)

theorem char_self (c : Char) (cs : List Char) : char c (c :: cs) = [cs] :=
  one_of_pos (beq_self_eq_true c) cs

theorem char_of_ne {d : Char} (h : c ≠ d) (cs : List Char) : char d (c :: cs) = [] :=
  one_of_neg (beq_eq_false_iff_ne.mpr h) cs

theorem inOrder_cons (a : Pattern) (ps : List Pattern) (cs : List Char) :
    inOrder (a :: ps) cs = (a cs).flatMap (inOrder ps) := by
  have hfold : ∀ (ps : List Pattern) (rests : List (List Char)),
      ps.foldl (fun rests p => rests.flatMap p) rests = rests.flatMap (inOrder ps) := by
    intro ps
    induction ps with
    | nil => exact fun rests => (List.flatMap_singleton' rests).symm
    | cons a ps ih =>
      intro rests
      rw [List.foldl_cons, ih, List.flatMap_assoc]
      refine congrArg (fun f => rests.flatMap f) (funext fun cs => ?_)
      rw [inOrder, List.foldl_cons, ih, List.flatMap_singleton]
  rw [inOrder, List.foldl_cons, hfold, List.flatMap_singleton]

theorem eq_drop_of_mem_times {n : Nat} (h : rest ∈ times n p cs) : rest = cs.drop n := by
  induction n generalizing cs with
  | zero => exact List.mem_singleton.mp h
  | succ n ih =>
    rw [times, List.replicate_succ, inOrder_cons] at h
    obtain ⟨mid, hmid, hrest⟩ := List.mem_flatMap.mp h
    rw [ih hrest, eq_drop_of_mem_one hmid, List.drop_drop, Nat.add_comm]

theorem inOrder_of_single (h : a cs = [rest]) : inOrder (a :: ps) cs = inOrder ps rest := by
  rw [inOrder_cons, h, List.flatMap_singleton]

theorem inOrder_of_none (h : a cs = []) : inOrder (a :: ps) cs = [] := by
  rw [inOrder_cons, h, List.flatMap_nil]

theorem seq_of_single {b : Pattern} (h : a cs = [rest]) : seq a b cs = b rest := by
  rw [seq, h, List.flatMap_singleton]

theorem seq_of_none {b : Pattern} (h : a cs = []) : seq a b cs = [] := by
  rw [seq, h, List.flatMap_nil]

theorem maybe_of_none (h : a cs = []) : maybe a cs = [cs] := by
  rw [maybe, h, List.nil_append]

theorem anyOf_cons (a : Pattern) (ps : List Pattern) (cs : List Char) :
    anyOf (a :: ps) cs = a cs ++ anyOf ps cs := rfl

theorem anyOf_of_none (h : a cs = []) : anyOf (a :: ps) cs = anyOf ps cs := by
  rw [anyOf_cons, h, List.nil_append]

theorem many_of_neg (h : ∀ c ∈ cs.head?, p c = false) : many p cs = [cs] := by
  cases cs with
  | nil => rfl
  | cons c cs => rw [many, if_neg (Bool.eq_false_iff.mp (h c rfl)), List.nil_append]

theorem times_append {n : Nat} {ds : List Char} (hlength : ds.length = n)
    (hds : ∀ c ∈ ds, p c = true) (rest : List Char) : times n p (ds ++ rest) = [rest] := by
  induction ds generalizing n with
  | nil =>
    subst hlength
    rfl
  | cons d ds ih =>
    obtain ⟨n, rfl⟩ : ∃ m, n = m + 1 := ⟨ds.length, hlength.symm⟩
    rw [List.cons_append, times, List.replicate_succ,
      inOrder_of_single (one_of_pos (hds d List.mem_cons_self) _)]
    exact ih (Nat.succ.inj hlength) fun c hc => hds c (List.mem_cons_of_mem d hc)

theorem oneOrTwo_of_pos {d : Char} (hc : p c = true) (hd : p d = true) (cs : List Char) :
    oneOrTwo p (c :: d :: cs) = [cs, d :: cs] := by
  rw [oneOrTwo, seq_of_single (one_of_pos hc _), maybe, one_of_pos hd]
  rfl

/-- Too few characters of the class in front of another one. -/
theorem times_of_short {n : Nat} {ds : List Char} (hlength : ds.length < n) (h : p c = false)
    (rest : List Char) : times n p (ds ++ c :: rest) = [] := by
  induction ds generalizing n with
  | nil =>
    obtain ⟨n, rfl⟩ : ∃ m, n = m + 1 := ⟨n - 1, by rw [List.length_nil] at hlength; omega⟩
    rw [List.nil_append, times, List.replicate_succ, inOrder_of_none (one_of_neg h rest)]
  | cons d ds ih =>
    rw [List.length_cons] at hlength
    obtain ⟨n, rfl⟩ : ∃ m, n = m + 1 := ⟨n - 1, by omega⟩
    rw [List.cons_append, times, List.replicate_succ]
    by_cases hd : p d = true
    · rw [inOrder_of_single (one_of_pos hd _)]
      exact ih (by omega)
    · exact inOrder_of_none (one_of_neg (Bool.eq_false_iff.mpr hd) _)

theorem exactly_of_not_prefix {w : List Char} (h : ¬ w <+: cs) : exactly w cs = [] := by
  induction w generalizing cs with
  | nil => exact absurd List.nil_prefix h
  | cons c w ih =>
    cases cs with
    | nil => rfl
    | cons d cs =>
      rw [exactly]
      by_cases hd : d = c
      · subst hd
        rw [char_self, List.flatMap_singleton]
        exact ih fun hw => h (List.cons_prefix_cons.mpr ⟨rfl, hw⟩)
      · rw [char_of_ne hd, List.flatMap_nil]

end Single

/-! ## Preferred rests -/

/-- A row of patterns prefers what they prefer one after the other. -/
theorem head?_inOrder {a : Pattern} {ps : List Pattern} {cs rest rest' : List Char}
    (h : (a cs).head? = some rest) (hrest : (inOrder ps rest).head? = some rest') :
    (inOrder (a :: ps) cs).head? = some rest' := by
  obtain ⟨others, hothers⟩ := List.head?_eq_some_iff.mp h
  rw [inOrder_cons, hothers, List.flatMap_cons, List.head?_append, hrest]
  rfl

/-- The longest run of a class is preferred. -/
theorem head?_many (p : Char → Bool) (cs : List Char) :
    (many p cs).head? = some (cs.dropWhile p) := by
  induction cs with
  | nil => rfl
  | cons c cs ih =>
    rw [many, List.dropWhile_cons]
    split
    · rw [List.head?_append, ih]
      rfl
    · rfl

theorem head?_anyOf {a : Pattern} {ps : List Pattern} {cs rest : List Char}
    (h : (a cs).head? = some rest) : (anyOf (a :: ps) cs).head? = some rest := by
  rw [anyOf_cons, List.head?_append, h]
  rfl

theorem findSome?_of_head? {α β : Type} {found : List α} {rest : α} {f : α → Option β} {b : β}
    (h : found.head? = some rest) (hrest : f rest = some b) : found.findSome? f = some b := by
  obtain ⟨others, rfl⟩ := List.head?_eq_some_iff.mp h
  rw [List.findSome?_cons, hrest]

theorem covered_append (cs rest : List Char) : covered (cs ++ rest) rest = cs := by
  rw [covered, List.length_append, Nat.add_sub_cancel, List.take_left]

/-- The text begins with a character of the class. -/
def BeginsWith (q : Char → Prop) (cs : List Char) : Prop := ∃ c tail, cs = c :: tail ∧ q c

/-- Of what can remain `rest` comes first, and anything else begins with a character of the
class. -/
def Prefers (found : List (List Char)) (rest : List Char) (q : Char → Prop) : Prop :=
  ∃ others, found = rest :: others ∧ ∀ other ∈ others, BeginsWith q other

section Prefers

variable {found : List (List Char)} {rest : List Char} {q q' : Char → Prop}

theorem Prefers.of_single (h : found = [rest]) : Prefers found rest q :=
  ⟨[], h, List.forall_mem_nil _⟩

theorem Prefers.head? (h : Prefers found rest q) : found.head? = some rest := by
  obtain ⟨others, rfl, -⟩ := h
  rfl

theorem Prefers.mono (h : Prefers found rest q) (hq : ∀ c, q c → q' c) :
    Prefers found rest q' := by
  obtain ⟨others, rfl, hothers⟩ := h
  refine ⟨others, rfl, fun other hother => ?_⟩
  obtain ⟨c, cs, rfl, hc⟩ := hothers other hother
  exact ⟨c, cs, rfl, hq c hc⟩

theorem Prefers.append (h : Prefers found rest q) {more : List (List Char)}
    (hmore : ∀ other ∈ more, BeginsWith q other) : Prefers (found ++ more) rest q := by
  obtain ⟨others, rfl, hothers⟩ := h
  refine ⟨others ++ more, rfl, fun other hother => ?_⟩
  rcases List.mem_append.mp hother with hother | hother
  · exact hothers other hother
  · exact hmore other hother

/-- Patterns go on from the preferred rest, if from the others they come to none that begins
otherwise. -/
theorem Prefers.flatMap (h : Prefers found rest q) {a : Pattern} {rest' : List Char}
    (hrest : Prefers (a rest) rest' q')
    (hothers : ∀ c, q c → ∀ cs, ∀ other ∈ a (c :: cs), BeginsWith q' other) :
    Prefers (found.flatMap a) rest' q' := by
  obtain ⟨others, rfl, hbegin⟩ := h
  rw [List.flatMap_cons]
  refine hrest.append fun other hother => ?_
  obtain ⟨before, hbefore, hmem⟩ := List.mem_flatMap.mp hother
  obtain ⟨c, cs, rfl, hc⟩ := hbegin before hbefore
  exact hothers c hc cs other hmem

variable {β : Type} {f : List Char → Option β}

theorem Prefers.findSome?_eq_none (h : Prefers found rest q) (hrest : f rest = none)
    (hothers : ∀ c, q c → ∀ cs, f (c :: cs) = none) : found.findSome? f = none := by
  obtain ⟨others, rfl, hbegin⟩ := h
  rw [List.findSome?_eq_none_iff]
  intro other hother
  rcases List.mem_cons.mp hother with rfl | hother
  · exact hrest
  · obtain ⟨c, cs, rfl, hc⟩ := hbegin other hother
    exact hothers c hc cs

theorem prefers_many {p : Char → Bool} {ds : List Char} (hds : ∀ c ∈ ds, p c = true)
    (hrest : ∀ c ∈ rest.head?, p c = false) : Prefers (many p (ds ++ rest)) rest (· ∈ ds) := by
  induction ds with
  | nil => exact .of_single (many_of_neg hrest)
  | cons d ds ih =>
    obtain ⟨others, hmany, hbegin⟩ := ih fun c hc => hds c (List.mem_cons_of_mem d hc)
    rw [List.cons_append, many, if_pos (hds d List.mem_cons_self), hmany]
    refine Prefers.append ⟨others, rfl, fun other hother => ?_⟩ fun other hother => ?_
    · obtain ⟨c, cs, rfl, hc⟩ := hbegin other hother
      exact ⟨c, cs, rfl, List.mem_cons_of_mem d hc⟩
    · exact ⟨d, _, List.mem_singleton.mp hother, List.mem_cons_self⟩

end Prefers

/-! ## Texts without a match -/

/-- No match begins in the text when `more` follows it. -/
def MatchFree (p : Pattern) (cs more : List Char) : Prop :=
  ∀ tail, tail <:+ cs → tail ≠ [] → first? p (tail ++ more) = none

section MatchFree

variable {p : Pattern} {c : Char} {cs more piece : List Char} {pieces : List (List Char)}

theorem matchFree_nil (p : Pattern) (more : List Char) : MatchFree p [] more :=
  fun _ htail hne => absurd (List.suffix_nil.mp htail) hne

theorem matchFree_cons :
    MatchFree p (c :: cs) more ↔ first? p (c :: cs ++ more) = none ∧ MatchFree p cs more := by
  constructor
  · intro h
    refine ⟨h (c :: cs) List.suffix_rfl (List.cons_ne_nil c cs), fun tail htail hne => ?_⟩
    exact h tail (htail.trans (List.suffix_cons c cs)) hne
  · rintro ⟨hfirst, hrest⟩ tail htail hne
    rcases List.suffix_cons_iff.mp htail with rfl | htail
    · exact hfirst
    · exact hrest tail htail hne

/-- Where no match begins, no piece ends. -/
theorem splitFrom_of_matchFree (hcs : MatchFree p cs more)
    (hmore : splitFrom p 0 more = piece :: pieces) :
    splitFrom p 0 (cs ++ more) = (cs ++ piece) :: pieces := by
  induction cs with
  | nil => exact hmore
  | cons c cs ih =>
    obtain ⟨hfirst, hrest⟩ := matchFree_cons.mp hcs
    rw [List.cons_append] at hfirst ⊢
    rw [splitFrom, hfirst, ih hrest]
    rfl

theorem splitFrom_length (taken rest : List Char) :
    splitFrom p taken.length (taken ++ rest) = splitFrom p 0 rest := by
  induction taken with
  | nil => rfl
  | cons c taken ih => exact ih

end MatchFree

end Pattern
end LogLens
