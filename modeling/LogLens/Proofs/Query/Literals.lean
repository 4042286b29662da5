/-
What the value behind a field asks for.

The literal of a condition is a range, a word with stars, or something to compare with.  Which it is
can be said without the reader: by the first separator of a range and the lack of a second
(`bounds?_eq_some_iff`), by where the stars stand (`wildcard?_eq_some_iff`), and by the last
comparison among the operators (`operatorOf_cases`).
-/
import LogLens.Proofs.Text.Language
import LogLens.Proofs.Text.Trim
import LogLens.Query.Parser

namespace LogLens
namespace Query

open Pattern

/-! ## Comparisons -/

/-- What a comparison asks for; a colon leaves it open. -/
def Comparison.operator? : Comparison → Option Operator
  | .colon => none
  | .gt => some .gt
  | .gte => some .gte
  | .lt => some .lt
  | .lte => some .lte

/-- The last comparison of a run, with only colons behind it. -/
def LastComparison (operators : List Comparison) (op : Operator) : Prop :=
  ∃ first c colons, operators = first ++ c :: colons ∧ c.operator? = some op ∧
    ∀ d ∈ colons, d = Comparison.colon

theorem operatorOf_concat (operators : List Comparison) (c : Comparison) :
    operatorOf (operators ++ [c]) = c.operator?.getD (operatorOf operators) := by
  rw [operatorOf, List.foldl_append]
  cases c <;> rfl

theorem operator?_ne_equals {c : Comparison} {op : Operator} (h : c.operator? = some op) :
    op ≠ .equals := by
  cases c <;> cases h <;> decide

theorem operatorOf_cases (operators : List Comparison) :
    (operatorOf operators = .equals ∧ ∀ c ∈ operators, c = .colon) ∨
    (operatorOf operators ≠ .equals ∧ LastComparison operators (operatorOf operators)) := by
  -- The last operator decides, unless it is a colon.
  induction operators using List.reverseRecOn with
  | nil => exact Or.inl ⟨rfl, List.forall_mem_nil _⟩
  | append_singleton operators c ih =>
    rw [operatorOf_concat]
    cases hc : c.operator? with
    | some op =>
      refine Or.inr ⟨operator?_ne_equals hc, operators, c, [], rfl, hc, List.forall_mem_nil _⟩
    | none =>
      have hcolon : c = .colon := by cases c <;> first | rfl | cases hc
      rcases ih with ⟨hequals, hcolons⟩ | ⟨hne, first, d, colons, rfl, hd, hcolons⟩
      · refine Or.inl ⟨hequals, List.forall_mem_append.mpr ⟨hcolons, ?_⟩⟩
        exact List.forall_mem_singleton.mpr hcolon
      · refine Or.inr ⟨hne, first, d, colons ++ [c], ?_, hd, ?_⟩
        · rw [List.append_assoc, List.cons_append]
        · exact List.forall_mem_append.mpr ⟨hcolons, List.forall_mem_singleton.mpr hcolon⟩

/-! ## Stars -/

/-- A word that stands for more than itself. -/
inductive Wildcard : List Char → Operator → Operand → Prop
  | anything : Wildcard ['*'] .present .absent
  | inside {core : List Char} (hne : core ≠ []) (hplain : '*' ∉ core) (m n : Nat) :
      Wildcard (List.replicate (m + 1) '*' ++ core ++ List.replicate (n + 1) '*') .contains
        (.scalar (.text (String.ofList core)))
  | beginning {core : List Char} (hne : core ≠ []) (hplain : '*' ∉ core) (n : Nat) :
      Wildcard (core ++ List.replicate (n + 1) '*') .startsWith
        (.scalar (.text (String.ofList core)))
  | ending {core : List Char} (hne : core ≠ []) (hplain : '*' ∉ core) (m : Nat) :
      Wildcard (List.replicate (m + 1) '*' ++ core) .endsWith
        (.scalar (.text (String.ofList core)))

theorem exists_trimMatches (d : Char) (cs : List Char) : ∃ m n, cs =
    List.replicate m d ++ trimMatches (· == d) cs ++ List.replicate n d := by
  have hreplicate : ∀ l : List Char,
      l.takeWhile (· == d) = List.replicate (l.takeWhile (· == d)).length d := by
    intro l
    refine List.eq_replicate_iff.mpr ⟨rfl, fun c hc => ?_⟩
    have hd : (c == d) = true := List.mem_takeWhile_imp (p := (· == d)) hc
    exact eq_of_beq hd
  have hend : ∀ l : List Char, ∃ n, l = dropEndWhile (· == d) l ++ List.replicate n d := by
    intro l
    refine ⟨(l.reverse.takeWhile (· == d)).length, ?_⟩
    rw [dropEndWhile, ← List.reverse_inj, List.reverse_append, List.reverse_reverse,
      List.reverse_replicate, ← hreplicate, List.takeWhile_append_dropWhile]
  obtain ⟨n, hn⟩ := hend (cs.dropWhile (· == d))
  refine ⟨(cs.takeWhile (· == d)).length, n, ?_⟩
  rw [← hreplicate, trimMatches, List.append_assoc, ← hn, List.takeWhile_append_dropWhile]

/-- The filter of a word with any number of stars at its ends. -/
theorem wildcard?_starred (name : String) {core : List Char} (hne : core ≠ [])
    (hplain : '*' ∉ core) (m n : Nat) :
    wildcard? name (List.replicate m '*' ++ core ++ List.replicate n '*') =
      let operand := Operand.scalar (.text (String.ofList core))
      match m, n with
      | 0, 0 => none
      | 0, _ + 1 => some ⟨name, .startsWith, operand, false⟩
      | _ + 1, 0 => some ⟨name, .endsWith, operand, false⟩
      | _ + 1, _ + 1 => some ⟨name, .contains, operand, false⟩ := by
  have hstars : ∀ k, ∀ c ∈ List.replicate k '*', (c == '*') = true :=
    fun k c hc => beq_iff_eq.mpr (List.eq_of_mem_replicate hc)
  have hstar : ∀ c ∈ core, (c == '*') = false :=
    fun c hc => beq_eq_false_iff_ne.mpr fun heq => hplain (heq ▸ hc)
  have hcore := trimMatches_around (hstars m) hne
    (fun c hc => hstar c (List.mem_of_mem_head? hc))
    (fun c hc => hstar c (List.mem_of_getLast? hc)) (hstars n)
  have hword : List.replicate m '*' ++ core ++ List.replicate n '*' ≠ ['*'] := by
    intro hword
    rw [hword] at hcore
    exact hne (hcore.symm.trans (by decide))
  have hinside : (core.isEmpty || core.contains '*') = false := by
    simp [hne, hplain]
  have hleading : ((List.replicate m '*' ++ core ++ List.replicate n '*').head? == some '*') =
      decide (0 < m) := by
    cases m with
    | zero =>
      obtain ⟨c, rest, rfl⟩ := List.exists_cons_of_ne_nil hne
      exact hstar c List.mem_cons_self
    | succ m => rw [List.replicate_succ]; rfl
  have htrailing : ((List.replicate m '*' ++ core ++ List.replicate n '*').getLast? == some '*' &&
      decide (1 < (List.replicate m '*' ++ core ++ List.replicate n '*').length)) =
        decide (0 < n) := by
    have hlength := List.length_pos_of_ne_nil hne
    have hlast : core.getLast? ≠ some '*' := fun hc => hplain (List.mem_of_getLast? hc)
    cases n with
    | zero =>
      rw [List.replicate_zero, List.append_nil, List.getLast?_append_of_ne_nil _ hne]
      simp [hlast]
    | succ n =>
      simp [List.getLast?_replicate]
      omega
  simp only [wildcard?, if_neg hword, hcore, hinside, hleading, htrailing]
  cases m <;> cases n <;> rfl

theorem wildcard?_eq_some_iff {name : String} {cs : List Char} {f : Filter} :
    wildcard? name cs = some f ↔
      ∃ op operand, Wildcard cs op operand ∧ f = ⟨name, op, operand, false⟩ := by
  constructor
  · intro h
    by_cases hstar : cs = ['*']
    · subst hstar
      exact ⟨_, _, .anything, (Option.some.inj h).symm⟩
    · by_cases hcore : ((trimMatches (· == '*') cs).isEmpty ||
          (trimMatches (· == '*') cs).contains '*') = true
      · rw [wildcard?, if_neg hstar] at h
        simp only [hcore, if_true] at h
        cases h
      · obtain ⟨m, n, hcs⟩ := exists_trimMatches '*' cs
        obtain ⟨hne, hplain⟩ : trimMatches (· == '*') cs ≠ [] ∧
            '*' ∉ trimMatches (· == '*') cs := by
          simpa [not_or] using hcore
        generalize trimMatches (· == '*') cs = core at hcs hne hplain
        subst hcs
        rw [wildcard?_starred name hne hplain] at h
        cases m with
        | zero =>
          cases n with
          | zero => cases h
          | succ n => exact ⟨_, _, .beginning hne hplain n, (Option.some.inj h).symm⟩
        | succ m =>
          cases n with
          | zero =>
            refine ⟨_, _, ?_, (Option.some.inj h).symm⟩
            rw [List.replicate_zero, List.append_nil]
            exact .ending hne hplain m
          | succ n => exact ⟨_, _, .inside hne hplain m n, (Option.some.inj h).symm⟩
  · rintro ⟨op, operand, hword, rfl⟩
    cases hword with
    | anything => rfl
    | inside hne hplain m n => exact wildcard?_starred name hne hplain (m + 1) (n + 1)
    | beginning hne hplain n => exact wildcard?_starred name hne hplain 0 (n + 1)
    | @ending core hne hplain m =>
      have hstarred := wildcard?_starred name hne hplain (m + 1) 0
      rwa [List.replicate_zero, List.append_nil] at hstarred

/-! ## Ranges -/

/-- The word `TO` in any case, between white space. -/
def separators : Language Char :=
  [someRun isBlank, letter (fun c => c == 'T' || c == 't'), letter (fun c => c == 'O' || c == 'o'),
    someRun isBlank].prod

theorem spells_rangeSeparator : Spells rangeSeparator separators :=
  spells_inOrder (.cons (spells_oneOrMore _) (.cons (spells_one _) (.cons (spells_one _)
    (.cons (spells_oneOrMore _) .nil))))

theorem mem_separators {w : List Char} : w ∈ separators ↔ ∃ before ∈ someRun isBlank,
    ∃ t o, (t == 'T' || t == 't') = true ∧ (o == 'O' || o == 'o') = true ∧
      ∃ behind ∈ someRun isBlank, w = before ++ t :: o :: behind := by
  simp only [separators, List.prod_cons, List.prod_nil, mul_one, Language.mem_mul]
  constructor
  · rintro ⟨before, hbefore, _, ⟨_, ⟨t, ht, rfl⟩, _, ⟨_, ⟨o, ho, rfl⟩, behind, hbehind, rfl⟩, rfl⟩,
      rfl⟩
    exact ⟨before, hbefore, t, o, ht, ho, behind, hbehind, rfl⟩
  · rintro ⟨before, hbefore, t, o, ht, ho, behind, hbehind, rfl⟩
    exact ⟨before, hbefore, _, ⟨[t], ⟨t, ht, rfl⟩, _, ⟨[o], ⟨o, ho, rfl⟩, behind, hbehind, rfl⟩,
      rfl⟩, rfl⟩

theorem nil_not_mem_separators : [] ∉ separators := by
  intro hnil
  obtain ⟨before, -, t, o, -, -, behind, -, h⟩ := mem_separators.mp hnil
  cases before <;> cases h

/-- A separator takes all of the white space behind it first. -/
theorem head?_rangeSeparator {w rest : List Char} (hw : w ∈ separators)
    (hrest : ∀ c ∈ rest.head?, isBlank c = false) :
    (rangeSeparator (w ++ rest)).head? = some rest := by
  obtain ⟨before, hbefore, t, o, ht, ho, behind, hbehind, rfl⟩ := mem_separators.mp hw
  have hblank : ∀ c ∈ (t :: o :: (behind ++ rest)).head?, isBlank c = false := by
    intro c hc
    obtain rfl := Option.some.inj hc
    rcases Bool.or_eq_true_iff.mp ht with ht | ht <;> obtain rfl := eq_of_beq ht <;> decide
  rw [List.append_assoc, List.cons_append, List.cons_append, rangeSeparator]
  refine head?_inOrder (head?_oneOrMore hbefore hblank) ?_
  rw [inOrder_of_single (one_of_pos ht _), inOrder_of_single (one_of_pos ho _)]
  exact head?_inOrder (head?_oneOrMore hbehind hrest) rfl

theorem first?_rangeSeparator_iff {found rest : List Char} :
    first? rangeSeparator (found ++ rest) = some (found, rest) ↔
      found ∈ separators ∧ ∀ c ∈ rest.head?, isBlank c = false := by
  constructor
  · intro hfirst
    have hfound := (spells_rangeSeparator.of_first? hfirst).1
    -- All white space goes to the separator, so what is left is what the reader leaves.
    obtain ⟨before, hbefore, t, o, ht, ho, behind, hbehind, rfl⟩ := mem_separators.mp hfound
    have hrun : behind ++ rest.takeWhile isBlank ∈ someRun isBlank := by
      obtain ⟨first, hletter, tail, htail, rfl⟩ := Language.mem_mul.mp hbehind
      rw [List.append_assoc]
      refine Language.append_mem_mul hletter (List.forall_mem_append.mpr ⟨htail, fun c hc => ?_⟩)
      exact List.mem_takeWhile_imp hc
    have hlonger : before ++ t :: o :: (behind ++ rest.takeWhile isBlank) ∈ separators :=
      mem_separators.mpr ⟨before, hbefore, t, o, ht, ho, _, hrun, rfl⟩
    have hdrop : ∀ c ∈ (rest.dropWhile isBlank).head?, isBlank c = false := by
      refine head?_of_dropWhile_eq_self ?_
      exact List.dropWhile_idempotent isBlank rest
    have hhead := head?_rangeSeparator hlonger hdrop
    have htext : before ++ t :: o :: (behind ++ rest.takeWhile isBlank) ++ rest.dropWhile isBlank =
        before ++ t :: o :: behind ++ rest := by
      simp [List.takeWhile_append_dropWhile]
    obtain ⟨rest', hrest', hpair⟩ := Option.map_eq_some_iff.mp hfirst
    obtain ⟨-, rfl⟩ := Prod.mk.inj hpair
    rw [htext, hrest'] at hhead
    rw [Option.some.inj hhead]
    exact ⟨hfound, hdrop⟩
  · rintro ⟨hfound, hrest⟩
    rw [first?, head?_rangeSeparator hfound hrest, Option.map_some, covered_append]

/-- No separator begins in the text when `more` follows it. -/
def Undivided (cs more : List Char) : Prop :=
  ∀ tail, tail <:+ cs → tail ≠ [] → ∀ w ∈ separators, ¬ w <+: tail ++ more

/-- The first separator of the text divides it, with all white space around it, and it is the only
one. -/
structure Divided (cs low high : List Char) : Prop where
  divided : ∃ w ∈ separators, cs = low ++ (w ++ high) ∧ Undivided low (w ++ high)
  whole : ∀ c ∈ high.head?, isBlank c = false
  only : Undivided high []

theorem undivided_iff {cs more : List Char} :
    Undivided cs more ↔ MatchFree rangeSeparator cs more := by
  refine forall_congr' fun tail => forall_congr' fun _ => forall_congr' fun _ => ?_
  exact spells_rangeSeparator.first?_eq_none_iff.symm

/-- Separators begin with white space. -/
theorem undivided_of_not_blank {cs : List Char} (h : ∀ c ∈ cs, isBlank c = false)
    (more : List Char) : Undivided cs more := by
  intro tail htail hne w hw hprefix
  have hopens : Opens (isBlank · = true) separators := by
    rw [separators, List.prod_cons]
    exact ((opens_letter fun _ hc => hc).mul _).mul _
  obtain ⟨c, w, rfl, hc⟩ := hopens w hw
  obtain ⟨d, tail, rfl⟩ := List.exists_cons_of_ne_nil hne
  obtain ⟨rfl, -⟩ := List.cons_prefix_cons.mp hprefix
  have hd := h c (htail.subset List.mem_cons_self)
  rw [hc] at hd
  cases hd

theorem split_rangeSeparator_iff {cs low high : List Char} :
    split rangeSeparator cs = [low, high] ↔ Divided cs low high := by
  rw [spells_rangeSeparator.split_eq_pair_iff nil_not_mem_separators]
  constructor
  · rintro ⟨w, hcs, hfree, hfirst, hhigh⟩
    obtain ⟨hw, hwhole⟩ := first?_rangeSeparator_iff.mp hfirst
    exact ⟨⟨w, hw, hcs, undivided_iff.mpr hfree⟩, hwhole, undivided_iff.mpr hhigh⟩
  · rintro ⟨⟨w, hw, hcs, hfree⟩, hwhole, honly⟩
    exact ⟨w, hcs, undivided_iff.mp hfree, first?_rangeSeparator_iff.mpr ⟨hw, hwhole⟩,
      undivided_iff.mp honly⟩

/-- The literal of a range: two parts in square brackets, neither of them blank, with the word `TO`
between them. -/
def IsRange (literal low high : String) : Prop :=
  ∃ inside, literal.toList = '[' :: (inside ++ [']']) ∧ ∃ first second,
    Divided (trim inside) first second ∧ trim first ≠ [] ∧ trim second ≠ [] ∧
    low = String.ofList (trim first) ∧ high = String.ofList (trim second)

theorem afterPrefix?_singleton {c : Char} {cs rest : List Char} :
    afterPrefix? [c] cs = some rest ↔ cs = c :: rest := by
  cases cs with
  | nil => simp [afterPrefix?]
  | cons d cs =>
    rw [afterPrefix?]
    by_cases hd : c = d
    · subst hd
      rw [if_pos (beq_self_eq_true c), afterPrefix?, Option.some.injEq, List.cons.injEq]
      exact ⟨fun h => ⟨rfl, h⟩, And.right⟩
    · rw [if_neg (mt eq_of_beq hd), List.cons.injEq]
      exact iff_of_false (Option.some_ne_none _).symm fun h => hd h.1.symm

theorem beforeSuffix?_singleton {c : Char} {cs before : List Char} :
    beforeSuffix? [c] cs = some before ↔ cs = before ++ [c] := by
  rw [beforeSuffix?, List.reverse_singleton, Option.map_eq_some_iff]
  constructor
  · rintro ⟨rest, hrest, rfl⟩
    rw [← List.reverse_inj, afterPrefix?_singleton.mp hrest]
    simp
  · rintro rfl
    exact ⟨before.reverse, afterPrefix?_singleton.mpr (by simp), before.reverse_reverse⟩

theorem bounds?_eq_some_iff {literal low high : String} :
    bounds? literal = some (low, high) ↔ IsRange literal low high := by
  have hinside : ∀ inside, (afterPrefix? ['['] literal.toList).bind (beforeSuffix? [']']) =
      some inside ↔ literal.toList = '[' :: (inside ++ [']']) := by
    intro inside
    rw [Option.bind_eq_some_iff]
    simp only [afterPrefix?_singleton, beforeSuffix?_singleton]
    exact ⟨fun ⟨_, h, hrest⟩ => hrest ▸ h, fun h => ⟨_, h, rfl⟩⟩
  rw [bounds?, Option.bind_eq_bind, Option.bind_eq_some_iff]
  refine exists_congr fun inside => and_congr (hinside inside) ?_
  simp only [← split_rangeSeparator_iff]
  constructor
  · intro h
    split at h
    · rename_i first second hsplit
      split at h
      · cases h
      · rename_i hne
        simp only [Bool.or_eq_true, List.isEmpty_iff, not_or] at hne
        obtain ⟨rfl, rfl⟩ := Prod.mk.inj (Option.some.inj h)
        exact ⟨first, second, hsplit, hne.1, hne.2, rfl, rfl⟩
    · cases h
  · rintro ⟨first, second, hsplit, hfirst, hsecond, rfl, rfl⟩
    simp only [hsplit, List.isEmpty_eq_false_iff.mpr hfirst, List.isEmpty_eq_false_iff.mpr hsecond]
    rfl

/-! ## Conditions -/

/-- What operators and a literal ask for: a range whatever the operators, else the last comparison,
else what the stars of a word without quotes say, else equality. -/
inductive ReadAs (reference : Instant) (operators : List Comparison) :
    Literal → Operator → Operand → Prop
  | range {s low high : String} {v w : FieldValue} (hrange : IsRange s low high)
      (hlow : coerce low reference = .ok v) (hhigh : coerce high reference = .ok w) :
      ReadAs reference operators (.range s) .range (.range v w)
  | compared {literal : Literal} {op : Operator} {v : FieldValue}
      (hliteral : ∀ s, literal ≠ .range s) (hop : LastComparison operators op)
      (hv : coerce literal.text reference = .ok v) :
      ReadAs reference operators literal op (.scalar v)
  | wildcard {word : String} {op : Operator} {operand : Operand}
      (hcolons : ∀ c ∈ operators, c = .colon) (hword : Wildcard word.toList op operand) :
      ReadAs reference operators (.word word) op operand
  | equals {literal : Literal} {v : FieldValue} (hliteral : ∀ s, literal ≠ .range s)
      (hcolons : ∀ c ∈ operators, c = .colon)
      (hplain : ∀ word op operand, literal = .word word → ¬Wildcard word.toList op operand)
      (hv : coerce literal.text reference = .ok v) :
      ReadAs reference operators literal .equals (.scalar v)

/-- What reading a condition can come to: a filter, nothing when brackets hold no range, or a value
that cannot be placed in time. -/
inductive Outcome (reference : Instant) (name : String) (operators : List Comparison) :
    Literal → Except Stamp.OutOfRange (Option Filter) → Prop
  | filter {literal : Literal} {op : Operator} {operand : Operand}
      (hread : ReadAs reference operators literal op operand) :
      Outcome reference name operators literal (.ok (some ⟨name, op, operand, false⟩))
  | unread {s : String} (hrange : ∀ low high, ¬IsRange s low high) :
      Outcome reference name operators (.range s) (.ok none)
  | failed {literal : Literal} {s : String} (hs : coerce s reference = .error ⟨⟩) :
      Outcome reference name operators literal (.error ⟨⟩)

section Conditions

variable (reference : Instant) (name : String) (operators : List Comparison)

theorem outcome_comparison {literal : Literal} (hliteral : ∀ s, literal ≠ .range s)
    (hplain : operatorOf operators = .equals →
      ∀ word op operand, literal = .word word → ¬Wildcard word.toList op operand) :
    Outcome reference name operators literal
      (some <$> comparison reference name operators literal.text) := by
  rw [comparison]
  cases hv : coerce literal.text reference with
  | error e => exact .failed hv
  | ok v =>
    refine Outcome.filter ?_
    rcases operatorOf_cases operators with ⟨hequals, hcolons⟩ | ⟨-, hlast⟩
    · rw [hequals]
      exact .equals hliteral hcolons (hplain hequals) hv
    · exact .compared hliteral hlast hv

theorem outcome_range (s : String) :
    Outcome reference name operators (.range s)
      (condition reference name operators (.range s)) := by
  rw [condition]
  cases hbounds : bounds? s with
  | none =>
    refine .unread fun low high hrange => ?_
    rw [bounds?_eq_some_iff.mpr hrange] at hbounds
    cases hbounds
  | some bounds =>
    obtain ⟨low, high⟩ := bounds
    have hrange := bounds?_eq_some_iff.mp hbounds
    rw [Option.mapM_some]
    dsimp only
    cases hlow : coerce low reference with
    | error e => exact .failed hlow
    | ok v =>
      cases hhigh : coerce high reference with
      | error e => exact .failed hhigh
      | ok w => exact .filter (.range hrange hlow hhigh)

theorem outcome_condition (literal : Literal) :
    Outcome reference name operators literal (condition reference name operators literal) := by
  cases literal with
  | range s => exact outcome_range reference name operators s
  | phrase s =>
    exact outcome_comparison reference name operators (by simp) fun _ _ _ _ h => by cases h
  | word s =>
    rw [condition]
    split
    · rename_i f hf
      split at hf
      · rename_i hequals
        obtain ⟨op, operand, hword, rfl⟩ := wildcard?_eq_some_iff.mp hf
        rcases operatorOf_cases operators with ⟨-, hcolons⟩ | ⟨hne, -⟩
        · exact .filter (.wildcard hcolons hword)
        · exact absurd hequals hne
      · cases hf
    · rename_i hnone
      refine outcome_comparison reference name operators (by simp) ?_
      intro hequals word op operand hs hword
      obtain rfl := Literal.word.inj hs
      rw [if_pos hequals, wildcard?_eq_some_iff.mpr ⟨op, operand, hword, rfl⟩] at hnone
      cases hnone

end Conditions

end Query
end LogLens
