/-
Languages of patterns.

A pattern is told by the texts that it covers when what remains behind its matches is whatever a
text of its language leaves (`Spells`).  Patterns in a row spell the product of their languages and
alternatives the sum, so that whether a search answers is a question about one language
(`isSome_findSome?`); the order of the answers plays no part in this.  A pattern splits a text at its
first match, and leaves two pieces when that match is the only one (`split_eq_pair_iff`).
-/
import LogLens.Proofs.Text.Pattern

namespace LogLens
namespace Pattern

/-! ## Languages -/

/-- One character of a class. -/
def letter (p : Char → Bool) : Language Char := {w | ∃ c, p c = true ∧ w = [c]}

/-- Any number of characters of a class. -/
def run (p : Char → Bool) : Language Char := {w | ∀ c ∈ w, p c = true}

/-- At least one character of a class. -/
def someRun (p : Char → Bool) : Language Char := letter p * run p

def mark (c : Char) : Language Char := {[c]}

theorem mem_letter {p : Char → Bool} {w : List Char} :
    w ∈ letter p ↔ ∃ c, p c = true ∧ w = [c] := Iff.rfl

theorem letter_eq_mark (c : Char) : letter (· == c) = mark c := by
  ext w
  constructor
  · rintro ⟨d, hd, rfl⟩
    exact congrArg (fun d => [d]) (eq_of_beq hd)
  · rintro rfl
    exact ⟨c, beq_self_eq_true c, rfl⟩

theorem nil_mem_run (p : Char → Bool) : [] ∈ run p := List.forall_mem_nil _

section Run

variable {p q : Char → Bool} {L M : Language Char}

theorem one_le_run : 1 ≤ run p := by
  intro w hw
  obtain rfl := (Language.mem_one w).mp hw
  exact nil_mem_run p

theorem letter_le_run (h : ∀ c, q c = true → p c = true) : letter q ≤ run p := by
  intro w hw
  obtain ⟨c, hc, rfl⟩ := hw
  exact List.forall_mem_singleton.mpr (h c hc)

theorem mark_le_run {c : Char} (h : p c = true) : mark c ≤ run p := by
  rintro w rfl
  exact List.forall_mem_singleton.mpr h

theorem run_le_run (h : ∀ c, q c = true → p c = true) : run q ≤ run p :=
  fun _ hw c hc => h c (hw c hc)

theorem add_le_run (hL : L ≤ run p) (hM : M ≤ run p) : L + M ≤ run p := by
  intro w hw
  rcases (Language.mem_add L M w).mp hw with hw | hw
  · exact hL hw
  · exact hM hw

theorem mul_le_run (hL : L ≤ run p) (hM : M ≤ run p) : L * M ≤ run p := by
  intro w hw
  obtain ⟨a, ha, b, hb, rfl⟩ := Language.mem_mul.mp hw
  exact List.forall_mem_append.mpr ⟨hL ha, hM hb⟩

theorem someRun_singleton {c : Char} (h : p c = true) : [c] ∈ someRun p :=
  Language.append_mem_mul (mem_letter.mpr ⟨c, h, rfl⟩) (nil_mem_run p)

theorem someRun_le_run (h : ∀ c, q c = true → p c = true) : someRun q ≤ run p :=
  mul_le_run (letter_le_run h) (run_le_run h)

end Run

/-- Every text of the language begins with a character of the class. -/
def Opens (q : Char → Prop) (L : Language Char) : Prop := ∀ w ∈ L, BeginsWith q w

section Opens

variable {p : Char → Bool} {q : Char → Prop} {L M : Language Char}

theorem opens_letter (h : ∀ c, p c = true → q c) : Opens q (letter p) := by
  rintro w ⟨c, hc, rfl⟩
  exact ⟨c, [], rfl, h c hc⟩

theorem opens_mark {c : Char} (h : q c) : Opens q (mark c) := by
  rintro w rfl
  exact ⟨c, [], rfl, h⟩

theorem Opens.add (hL : Opens q L) (hM : Opens q M) : Opens q (L + M) := by
  intro w hw
  rcases (Language.mem_add L M w).mp hw with hw | hw
  · exact hL w hw
  · exact hM w hw

theorem Opens.mul (hL : Opens q L) (M : Language Char) : Opens q (L * M) := by
  intro w hw
  obtain ⟨a, ha, b, -, rfl⟩ := Language.mem_mul.mp hw
  obtain ⟨c, tail, rfl, hc⟩ := hL a ha
  exact ⟨c, tail ++ b, rfl, hc⟩

/-- What may be left out in front is of the class too. -/
theorem Opens.run_mul (hM : Opens q M) (hL : L ≤ run p) (h : ∀ c, p c = true → q c) :
    Opens q (L * M) := by
  intro w hw
  obtain ⟨a, ha, b, hb, rfl⟩ := Language.mem_mul.mp hw
  cases a with
  | nil => exact hM b hb
  | cons c a => exact ⟨c, a ++ b, rfl, h c (hL ha c List.mem_cons_self)⟩

end Opens

/-! ## Patterns that spell a language -/

/-- What remains behind a match is what a text of the language leaves. -/
def Spells (a : Pattern) (L : Language Char) : Prop :=
  ∀ cs rest, rest ∈ a cs ↔ ∃ w ∈ L, w ++ rest = cs

section Spells

variable {a b : Pattern} {ps : List Pattern} {L M : Language Char} {Ls : List (Language Char)}

theorem spells_one (p : Char → Bool) : Spells (one p) (letter p) := by
  intro cs rest
  constructor
  · intro h
    cases cs with
    | nil => cases h
    | cons c cs =>
      by_cases hc : p c = true
      · rw [one_of_pos hc] at h
        obtain rfl := List.mem_singleton.mp h
        exact ⟨[c], ⟨c, hc, rfl⟩, rfl⟩
      · rw [one_of_neg (Bool.eq_false_iff.mpr hc)] at h
        cases h
  · rintro ⟨w, ⟨c, hc, rfl⟩, rfl⟩
    rw [List.cons_append, one_of_pos hc]
    exact List.mem_singleton_self rest

theorem spells_char (c : Char) : Spells (char c) (mark c) := letter_eq_mark c ▸ spells_one (· == c)

theorem spells_nil : Spells (fun cs => [cs]) 1 := by
  intro cs rest
  simp [eq_comm]

theorem Spells.seq (ha : Spells a L) (hb : Spells b M) : Spells (seq a b) (L * M) := by
  intro cs rest
  rw [Pattern.seq, List.mem_flatMap]
  constructor
  · rintro ⟨mid, hmid, hrest⟩
    obtain ⟨v, hv, rfl⟩ := (ha cs mid).mp hmid
    obtain ⟨w, hw, rfl⟩ := (hb mid rest).mp hrest
    exact ⟨v ++ w, Language.append_mem_mul hv hw, List.append_assoc v w rest⟩
  · rintro ⟨u, hu, rfl⟩
    obtain ⟨v, hv, w, hw, rfl⟩ := Language.mem_mul.mp hu
    refine ⟨w ++ rest, (ha _ _).mpr ⟨v, hv, ?_⟩, (hb _ _).mpr ⟨w, hw, rfl⟩⟩
    exact (List.append_assoc v w rest).symm

theorem spells_inOrder (h : List.Forall₂ Spells ps Ls) : Spells (inOrder ps) Ls.prod := by
  induction h with
  | nil => exact spells_nil
  | @cons a L ps Ls ha _ ih =>
    have hseq : inOrder (a :: ps) = Pattern.seq a (inOrder ps) := funext (inOrder_cons a ps)
    rw [hseq, List.prod_cons]
    exact ha.seq ih

theorem spells_add (ha : Spells a L) (hb : Spells b M) :
    Spells (fun cs => a cs ++ b cs) (L + M) := by
  intro cs rest
  rw [List.mem_append, ha cs rest, hb cs rest]
  simp only [Language.mem_add, or_and_right, exists_or]

theorem spells_anyOf (h : List.Forall₂ Spells ps Ls) : Spells (anyOf ps) Ls.sum := by
  induction h with
  | nil =>
    intro cs rest
    simp [anyOf, Language.notMem_zero]
  | cons ha _ ih => exact spells_add ha ih

theorem spells_anyOf_map {α : Type} {f : α → Pattern} {g : α → Language Char}
    (h : ∀ x, Spells (f x) (g x)) (l : List α) : Spells (anyOf (l.map f)) (l.map g).sum := by
  refine spells_anyOf ?_
  rw [List.forall₂_map_left_iff, List.forall₂_map_right_iff, List.forall₂_same]
  exact fun x _ => h x

theorem Spells.maybe (h : Spells a L) : Spells (maybe a) (L + 1) := spells_add h spells_nil

theorem spells_many (p : Char → Bool) : Spells (many p) (run p) := by
  intro cs
  induction cs with
  | nil =>
    intro rest
    rw [many, List.mem_singleton]
    constructor
    · rintro rfl
      exact ⟨[], nil_mem_run p, rfl⟩
    · rintro ⟨w, -, hw⟩
      exact (List.append_eq_nil_iff.mp hw).2
  | cons c cs ih =>
    intro rest
    rw [many, List.mem_append, List.mem_singleton]
    constructor
    · rintro (h | rfl)
      · by_cases hc : p c = true
        · rw [if_pos hc] at h
          obtain ⟨w, hw, rfl⟩ := (ih rest).mp h
          exact ⟨c :: w, List.forall_mem_cons.mpr ⟨hc, hw⟩, rfl⟩
        · rw [if_neg hc] at h
          cases h
      · exact ⟨[], nil_mem_run p, rfl⟩
    · rintro ⟨w, hw, hcs⟩
      cases w with
      | nil => exact Or.inr hcs
      | cons d w =>
        obtain ⟨rfl, rfl⟩ := List.cons.inj hcs
        obtain ⟨hd, hw⟩ := List.forall_mem_cons.mp hw
        rw [if_pos hd]
        exact Or.inl ((ih rest).mpr ⟨w, hw, rfl⟩)

theorem spells_oneOrMore (p : Char → Bool) : Spells (oneOrMore p) (someRun p) :=
  (spells_one p).seq (spells_many p)

/-- A run is taken whole first. -/
theorem head?_oneOrMore {p : Char → Bool} {w rest : List Char} (hw : w ∈ someRun p)
    (hrest : ∀ c ∈ rest.head?, p c = false) : (oneOrMore p (w ++ rest)).head? = some rest := by
  obtain ⟨_, ⟨c, hc, rfl⟩, tail, htail, rfl⟩ := Language.mem_mul.mp hw
  have hmany := head?_many p (tail ++ rest)
  rw [List.append_assoc, List.singleton_append, oneOrMore, seq_of_single (one_of_pos hc _), hmany,
    List.dropWhile_append_of_pos htail]
  cases rest with
  | nil => rfl
  | cons d rest => rw [List.dropWhile_cons_of_neg (Bool.eq_false_iff.mp (hrest d rfl))]

theorem spells_oneOrTwo (p : Char → Bool) :
    Spells (oneOrTwo p) (letter p * (letter p + 1)) :=
  (spells_one p).seq (spells_one p).maybe

theorem spells_times (n : Nat) (p : Char → Bool) : Spells (times n p) (letter p ^ n) := by
  have hall : List.Forall₂ Spells (List.replicate n (one p)) (List.replicate n (letter p)) := by
    induction n with
    | zero => exact .nil
    | succ n ih => exact .cons (spells_one p) ih
  rw [← List.prod_replicate]
  exact spells_inOrder hall

theorem spells_exactly (w : List Char) : Spells (exactly w) {w} := by
  induction w with
  | nil => exact spells_nil
  | cons c w ih =>
    have hseq : exactly (c :: w) = Pattern.seq (char c) (exactly w) := rfl
    have hmul : ({c :: w} : Language Char) = mark c * {w} := by
      ext v
      rw [Language.mem_mul]
      constructor
      · rintro rfl
        exact ⟨[c], rfl, w, rfl, rfl⟩
      · rintro ⟨_, rfl, _, rfl, rfl⟩
        rfl
    rw [hseq, hmul]
    exact (spells_char c).seq ih

/-! ## Searches -/

/-- A search answers if a text of the language leaves something for which it does. -/
theorem Spells.isSome_findSome? {β : Type} (h : Spells a L) {f : List Char → Option β}
    (hf : ∀ cs, (f cs).isSome ↔ cs ∈ M) (cs : List Char) :
    ((a cs).findSome? f).isSome ↔ cs ∈ L * M := by
  rw [List.findSome?_isSome_iff, Language.mem_mul]
  constructor
  · rintro ⟨rest, hrest, hsome⟩
    obtain ⟨w, hw, hcs⟩ := (h cs rest).mp hrest
    exact ⟨w, hw, rest, (hf rest).mp hsome, hcs⟩
  · rintro ⟨w, hw, rest, hrest, hcs⟩
    exact ⟨rest, (h cs rest).mpr ⟨w, hw, hcs⟩, (hf rest).mpr hrest⟩

/-- What a search answers is its answer for the rest behind some text of the language. -/
theorem Spells.exists_of_findSome? {β : Type} (h : Spells a L) {f : List Char → Option β}
    {cs : List Char} {found : β} (hfound : (a cs).findSome? f = some found) :
    ∃ w ∈ L, ∃ rest, w ++ rest = cs ∧ f rest = some found := by
  obtain ⟨rest, hrest, hf⟩ := List.exists_of_findSome?_eq_some hfound
  obtain ⟨w, hw, hcs⟩ := (h cs rest).mp hrest
  exact ⟨w, hw, rest, hcs, hf⟩

end Spells

/-! ## The end of a text -/

/-- What remains behind a match is what a text of the language leaves; and at the end of a text the
pattern matches nothing. -/
def SpellsOrEnd (a : Pattern) (L : Language Char) : Prop :=
  ∀ cs rest, rest ∈ a cs ↔ (∃ w ∈ L, w ++ rest = cs) ∨ cs = [] ∧ rest = []

section SpellsOrEnd

variable {a b : Pattern} {ps : List Pattern} {L M : Language Char}

theorem Spells.orEnd (ha : Spells a L) : SpellsOrEnd (anyOf [a, atEnd]) L := by
  intro cs rest
  have hend : rest ∈ anyOf [atEnd] cs ↔ cs = [] ∧ rest = [] := by
    cases cs <;> simp [anyOf, atEnd]
  rw [Pattern.anyOf_cons, List.mem_append, ha cs rest, hend]

theorem SpellsOrEnd.anyOf_cons (ha : Spells a L) (hps : SpellsOrEnd (anyOf ps) M) :
    SpellsOrEnd (anyOf (a :: ps)) (L + M) := by
  intro cs rest
  rw [Pattern.anyOf_cons, List.mem_append, ha cs rest, hps cs rest]
  simp only [Language.mem_add, or_and_right, exists_or, or_assoc]

/-- What follows must match nothing at the end too. -/
theorem SpellsOrEnd.inOrder_cons (ha : SpellsOrEnd a L) (hps : Spells (inOrder ps) M)
    (hM : [] ∈ M) : SpellsOrEnd (inOrder (a :: ps)) (L * M) := by
  intro cs rest
  rw [Pattern.inOrder_cons, List.mem_flatMap]
  constructor
  · rintro ⟨mid, hmid, hrest⟩
    obtain ⟨w, hw, rfl⟩ := (hps mid rest).mp hrest
    rcases (ha cs _).mp hmid with ⟨v, hv, rfl⟩ | ⟨rfl, hnil⟩
    · exact Or.inl ⟨v ++ w, Language.append_mem_mul hv hw, List.append_assoc v w rest⟩
    · exact Or.inr ⟨rfl, (List.append_eq_nil_iff.mp hnil).2⟩
  · rintro (⟨u, hu, rfl⟩ | ⟨rfl, rfl⟩)
    · obtain ⟨v, hv, w, hw, rfl⟩ := Language.mem_mul.mp hu
      refine ⟨w ++ rest, (ha _ _).mpr (Or.inl ⟨v, hv, ?_⟩), (hps _ _).mpr ⟨w, hw, rfl⟩⟩
      exact (List.append_assoc v w rest).symm
    · exact ⟨[], (ha [] []).mpr (Or.inr ⟨rfl, rfl⟩), (hps [] []).mpr ⟨[], hM, rfl⟩⟩

theorem SpellsOrEnd.isSome_findSome? {β : Type} (h : SpellsOrEnd a L) {f : List Char → Option β}
    (hf : ∀ cs, (f cs).isSome ↔ cs ∈ M) (hM : [] ∈ M) (cs : List Char) :
    ((a cs).findSome? f).isSome ↔ cs ∈ L * M + 1 := by
  rw [List.findSome?_isSome_iff, Language.mem_add, Language.mem_mul, Language.mem_one]
  constructor
  · rintro ⟨rest, hrest, hsome⟩
    rcases (h cs rest).mp hrest with ⟨w, hw, hcs⟩ | ⟨hcs, -⟩
    · exact Or.inl ⟨w, hw, rest, (hf rest).mp hsome, hcs⟩
    · exact Or.inr hcs
  · rintro (⟨w, hw, rest, hrest, hcs⟩ | rfl)
    · exact ⟨rest, (h cs rest).mpr (Or.inl ⟨w, hw, hcs⟩), (hf rest).mpr hrest⟩
    · exact ⟨[], (h [] []).mpr (Or.inr ⟨rfl, rfl⟩), (hf []).mpr hM⟩

end SpellsOrEnd

/-! ## Pieces between matches -/

section Pieces

variable {a : Pattern} {L : Language Char} {cs found rest : List Char}

theorem Spells.of_first? (h : Spells a L) (hfirst : first? a cs = some (found, rest)) :
    found ∈ L ∧ found ++ rest = cs := by
  obtain ⟨behind, hbehind, hpair⟩ := Option.map_eq_some_iff.mp hfirst
  obtain ⟨rfl, rfl⟩ := Prod.mk.inj hpair
  obtain ⟨w, hw, rfl⟩ := (h cs behind).mp (List.mem_of_head? hbehind)
  rw [covered_append]
  exact ⟨hw, rfl⟩

theorem Spells.first?_eq_none_iff (h : Spells a L) :
    first? a cs = none ↔ ∀ w ∈ L, ¬ w <+: cs := by
  rw [first?, Option.map_eq_none_iff, List.head?_eq_none_iff, List.eq_nil_iff_forall_not_mem]
  constructor
  · rintro hnone w hw ⟨rest, hcs⟩
    exact hnone rest ((h cs rest).mpr ⟨w, hw, hcs⟩)
  · intro hnone rest hrest
    obtain ⟨w, hw, hcs⟩ := (h cs rest).mp hrest
    exact hnone w hw ⟨rest, hcs⟩

theorem splitFrom_ne_nil (p : Pattern) (skip : Nat) (cs : List Char) :
    splitFrom p skip cs ≠ [] := by
  induction cs generalizing skip with
  | nil =>
    rw [splitFrom]
    exact List.cons_ne_nil _ _
  | cons c cs ih =>
    cases skip with
    | succ skip => exact ih skip
    | zero =>
      rw [splitFrom]
      split
      · exact List.cons_ne_nil _ _
      · split <;> exact List.cons_ne_nil _ _

/-- The first match ends the first piece, and what follows the match is split on its own. -/
theorem splitFrom_of_first? {piece : List Char} (hpiece : MatchFree a piece (found ++ rest))
    (hne : found ≠ []) (hfirst : first? a (found ++ rest) = some (found, rest)) :
    splitFrom a 0 (piece ++ (found ++ rest)) = piece :: splitFrom a 0 rest := by
  obtain ⟨c, tail, rfl⟩ := List.exists_cons_of_ne_nil hne
  have hmore : splitFrom a 0 (c :: tail ++ rest) = [] :: splitFrom a 0 rest := by
    rw [List.cons_append] at hfirst ⊢
    rw [splitFrom, hfirst]
    exact congrArg _ (splitFrom_length tail rest)
  rw [splitFrom_of_matchFree hpiece hmore, List.append_nil]

/-- A text is one piece, or is split at its first match. -/
theorem Spells.splitFrom_cases (h : Spells a L) (hL : [] ∉ L) (cs : List Char) :
    (MatchFree a cs [] ∧ splitFrom a 0 cs = [cs]) ∨
    ∃ piece found rest, cs = piece ++ (found ++ rest) ∧ MatchFree a piece (found ++ rest) ∧
      first? a (found ++ rest) = some (found, rest) ∧
      splitFrom a 0 cs = piece :: splitFrom a 0 rest := by
  induction cs with
  | nil => exact Or.inl ⟨matchFree_nil a [], rfl⟩
  | cons c cs ih =>
    cases hfirst : first? a (c :: cs) with
    | some match_ =>
      obtain ⟨found, rest⟩ := match_
      obtain ⟨hfound, happend⟩ := h.of_first? hfirst
      have hne : found ≠ [] := fun hnil => hL (hnil ▸ hfound)
      rw [← happend] at hfirst ⊢
      have hfree := matchFree_nil a (found ++ rest)
      exact Or.inr ⟨[], found, rest, rfl, hfree, hfirst, splitFrom_of_first? hfree hne hfirst⟩
    | none =>
      rcases ih with ⟨hfree, hsplit⟩ | ⟨piece, found, rest, rfl, hfree, hmatch, hsplit⟩
      · refine Or.inl ⟨matchFree_cons.mpr ⟨?_, hfree⟩, ?_⟩
        · rwa [List.append_nil]
        · rw [splitFrom, hfirst, hsplit]
      · refine Or.inr ⟨c :: piece, found, rest, rfl, matchFree_cons.mpr ⟨hfirst, hfree⟩, hmatch, ?_⟩
        rw [splitFrom, hfirst, hsplit]

/-- A text is in two pieces when its first match is its only one. -/
theorem Spells.split_eq_pair_iff (h : Spells a L) (hL : [] ∉ L) {low high : List Char} :
    split a cs = [low, high] ↔ ∃ found, cs = low ++ (found ++ high) ∧
      MatchFree a low (found ++ high) ∧ first? a (found ++ high) = some (found, high) ∧
      MatchFree a high [] := by
  rw [split]
  constructor
  · intro hsplit
    rcases h.splitFrom_cases hL cs with ⟨-, hone⟩ | ⟨piece, found, rest, rfl, hfree, hfirst, htwo⟩
    · rw [hone] at hsplit
      cases hsplit
    · rw [htwo] at hsplit
      obtain ⟨rfl, hrest⟩ := List.cons.inj hsplit
      rcases h.splitFrom_cases hL rest with ⟨hhigh, hone⟩ | ⟨_, _, more, -, -, -, hthree⟩
      · rw [hone] at hrest
        obtain ⟨rfl, -⟩ := List.cons.inj hrest
        exact ⟨found, rfl, hfree, hfirst, hhigh⟩
      · rw [hthree] at hrest
        exact absurd (List.cons.inj hrest).2 (splitFrom_ne_nil a 0 more)
  · rintro ⟨found, rfl, hfree, hfirst, hhigh⟩
    have hne : found ≠ [] := fun hnil => hL (hnil ▸ (h.of_first? hfirst).1)
    have hend := splitFrom_of_matchFree hhigh (rfl : splitFrom a 0 [] = [[]])
    rw [List.append_nil] at hend
    rw [splitFrom_of_first? hfree hne hfirst, hend]

end Pieces

end Pattern
end LogLens
