/-
Values that are written and read again.

An item or a member is read by the tokens of its own text, so the texts of the parts of a value make
up its text.  By recursion over values the compact text of one is read as that value, if the numbers
in it are (`parseAsWritten?_compact`).  Whatever is read holds no number beyond all finite ones.
-/
import LogLens.Proofs.Json.Lexing
import LogLens.Proofs.Json.Machine

namespace LogLens
namespace Json

open Reader

/-! ## Texts of values -/

theorem parseAsWritten?_eq_some_iff {s : String} {j : Json} :
    parseAsWritten? s = some j ↔
      ∃ ts, Lexes s.toList ts ∧ ofTokens? asWritten ts = some j :=
  Option.bind_eq_some_iff

theorem ofTokens?_of_run {ts : List Token} {stack : List Frame} {j : Json}
    (h : ts.foldlM (step asWritten) start = some ⟨stack, .nothing j⟩) :
    ofTokens? asWritten ts = some j := by
  rw [ofTokens?, h]

/-- The text of items, with commas between them, is taken inside an array. -/
def SpellsItems (s : String) (items : List Json) : Prop :=
  ∃ t ts, Lexes s.toList (t :: ts) ∧ ∀ done stack,
    (t :: ts).foldlM (step asWritten) ⟨.array done :: stack, .value⟩ =
      some ⟨.array (items.reverse ++ done) :: stack, .comma⟩

theorem spellsItems_single {s : String} {j : Json} (h : parseAsWritten? s = some j) :
    SpellsItems s [j] := by
  obtain ⟨ts, hlexes, hts⟩ := parseAsWritten?_eq_some_iff.mp h
  cases ts with
  | nil => cases hts
  | cons t ts => exact ⟨t, ts, hlexes, fun done stack => run_value hts (.array done :: stack)⟩

theorem SpellsItems.cons {s s' : String} {j : Json} {items : List Json}
    (h : parseAsWritten? s = some j) (h' : SpellsItems s' items) :
    SpellsItems (s ++ "," ++ s') (j :: items) := by
  obtain ⟨t, ts, hlexes, hts⟩ := spellsItems_single h
  obtain ⟨t', ts', hlexes', hts'⟩ := h'
  refine ⟨t, ts ++ .comma :: t' :: ts', ?_, fun done stack => ?_⟩
  · have hcomma : Lexes (',' :: s'.toList) (.comma :: t' :: ts') :=
      .cons (by decide) (fun _ => rfl) hlexes'
    have happend := hlexes.append hcomma (by simp [Ends])
    simpa using happend
  · rw [← List.cons_append, List.foldlM_append, hts]
    refine (hts' (j :: done) stack).trans ?_
    simp

theorem SpellsItems.array {s : String} {items : List Json} (h : SpellsItems s items) :
    parseAsWritten? ("[" ++ s ++ "]") = some (.array items) := by
  obtain ⟨t, ts, hlexes, hts⟩ := h
  refine parseAsWritten?_eq_some_iff.mpr ⟨.openArray :: (t :: ts ++ [.closeArray]), ?_, ?_⟩
  · have hclose : Lexes "]".toList [.closeArray] := lexes_single (by decide) rfl
    have happend := hlexes.append hclose (by simp [Ends])
    simpa using happend.cons (c := '[') (by decide) (fun _ => rfl)
  · have hrun : (t :: ts ++ [Token.closeArray]).foldlM (step asWritten) ⟨[.array []], .item⟩ =
        some ⟨[], .nothing (.array items)⟩ := by
      rw [List.foldlM_append, run_item (hts [] [])]
      simp [step, closeArray, deliver]
    exact ofTokens?_of_run hrun

/-- The text of members, with commas between them, is taken inside an object. -/
def SpellsMembers (s : String) (members : List (String × Json)) : Prop :=
  ∃ t ts, Lexes s.toList (t :: ts) ∧ ∀ done stack,
    (t :: ts).foldlM (step asWritten) ⟨.object (some done) :: stack, .name⟩ =
      some ⟨.object (some (done ++ members)) :: stack, .comma⟩

theorem spellsMembers_single (name : String) {s : String} {j : Json}
    (h : parseAsWritten? s = some j) : SpellsMembers (printText name ++ ":" ++ s) [(name, j)] := by
  obtain ⟨ts, hlexes, hts⟩ := parseAsWritten?_eq_some_iff.mp h
  refine ⟨.text name, .colon :: ts, ?_, fun done stack => ?_⟩
  · have hcolon : Lexes (':' :: s.toList) (.colon :: ts) :=
      .cons (by decide) (fun _ => rfl) hlexes
    have happend := (lexes_printText name).append hcolon (by simp [Ends])
    simpa using happend
  · exact run_value hts (.member (some done) (some name) :: stack)

theorem SpellsMembers.cons {name s s' : String} {j : Json} {members : List (String × Json)}
    (h : parseAsWritten? s = some j) (h' : SpellsMembers s' members) :
    SpellsMembers (printText name ++ ":" ++ s ++ "," ++ s') ((name, j) :: members) := by
  obtain ⟨t, ts, hlexes, hts⟩ := spellsMembers_single name h
  obtain ⟨t', ts', hlexes', hts'⟩ := h'
  refine ⟨t, ts ++ .comma :: t' :: ts', ?_, fun done stack => ?_⟩
  · have hcomma : Lexes (',' :: s'.toList) (.comma :: t' :: ts') :=
      .cons (by decide) (fun _ => rfl) hlexes'
    have happend := hlexes.append hcomma (by simp [Ends])
    simpa using happend
  · rw [← List.cons_append, List.foldlM_append, hts]
    refine (hts' (done ++ [(name, j)]) stack).trans ?_
    simp

theorem SpellsMembers.object {s : String} {members : List (String × Json)}
    (h : SpellsMembers s members) :
    parseAsWritten? ("\x7b" ++ s ++ "\x7d") = some (.object members) := by
  obtain ⟨t, ts, hlexes, hts⟩ := h
  refine parseAsWritten?_eq_some_iff.mpr ⟨.openObject :: (t :: ts ++ [.closeObject]), ?_, ?_⟩
  · have hclose : Lexes "\x7d".toList [.closeObject] := lexes_single (by decide) rfl
    have happend := hlexes.append hclose (by simp [Ends])
    simpa using happend.cons (c := '\x7b') (by decide) (fun _ => rfl)
  · have hrun : (t :: ts ++ [Token.closeObject]).foldlM (step asWritten)
        ⟨[.object (some [])], .nameOrClose⟩ = some ⟨[], .nothing (.object members)⟩ := by
      rw [List.foldlM_append, run_nameOrClose (hts [] [])]
      simp [step, closeObject, deliver]
    exact ofTokens?_of_run hrun

end Json

/-- The text of a number is read as that number. -/
def JsonNumber.ReadsBack (n : JsonNumber) : Prop :=
  Json.parseAsWritten? n.print = some (.number n)

namespace Json

open Reader

/-! ## Compact texts -/

theorem readsBack_integer {n : Nat} (h : n ≤ maxWord) : (JsonNumber.integer n).ReadsBack :=
  parseAsWritten?_eq_some_iff.mpr ⟨_, lexes_toString h, rfl⟩

mutual

/-- A value is read as it was written, if the numbers in it are. -/
theorem parseAsWritten?_compact : ∀ j : Json, (∀ n ∈ j.numbers, n.ReadsBack) →
    parseAsWritten? j.compact = some j
  | .null, _ => rfl
  | .bool b, _ => by cases b <;> rfl
  | .number n, h => h n (by simp [numbers])
  | .text s, _ => parseAsWritten?_eq_some_iff.mpr ⟨_, lexes_printText s, rfl⟩
  | .array items, h => by
    cases hitems : items with
    | nil => rfl
    | cons j rest =>
      rw [← hitems]
      exact (spellsItems_compactItems items (by simp [hitems]) h).array
  | .object members, h => by
    cases hmembers : members with
    | nil => rfl
    | cons m rest =>
      rw [← hmembers]
      exact (spellsMembers_compactMembers members (by simp [hmembers]) h).object

theorem spellsItems_compactItems : ∀ items : List Json, items ≠ [] →
    (∀ n ∈ numbersOfItems items, n.ReadsBack) → SpellsItems (compactItems items) items
  | [], hne, _ => absurd rfl hne
  | [j], _, h =>
    spellsItems_single (parseAsWritten?_compact j fun n hn => h n (List.mem_append_left _ hn))
  | j :: j' :: rest, _, h =>
    .cons (parseAsWritten?_compact j fun n hn => h n (List.mem_append_left _ hn))
      (spellsItems_compactItems (j' :: rest) (List.cons_ne_nil _ _) fun n hn =>
        h n (List.mem_append_right _ hn))

theorem parseAsWritten?_compact_value : ∀ m : String × Json,
    (∀ n ∈ numbersOfMember m, n.ReadsBack) → parseAsWritten? m.2.compact = some m.2
  | (_, j), h => parseAsWritten?_compact j h

theorem spellsMembers_compactMembers : ∀ members : List (String × Json), members ≠ [] →
    (∀ n ∈ numbersOfMembers members, n.ReadsBack) →
      SpellsMembers (compactMembers members) members
  | [], hne, _ => absurd rfl hne
  | [(name, j)], _, h => by
    rw [compactMembers, compactMember]
    exact spellsMembers_single name
      (parseAsWritten?_compact_value (name, j) fun n hn => h n (List.mem_append_left _ hn))
  | (name, j) :: m :: rest, _, h => by
    simp only [compactMembers, compactMember]
    exact .cons
      (parseAsWritten?_compact_value (name, j) fun n hn => h n (List.mem_append_left _ hn))
      (spellsMembers_compactMembers (m :: rest) (List.cons_ne_nil _ _) fun n hn =>
        h n (List.mem_append_right _ hn))

end

/-- What is read holds finite numbers only. -/
theorem allFinite_parseAsWritten? {s : String} {j : Json} (h : parseAsWritten? s = some j) :
    AllFinite j.numbers := by
  obtain ⟨ts, -, hts⟩ := parseAsWritten?_eq_some_iff.mp h
  exact allFinite_ofTokens? hts

end Json
end LogLens
