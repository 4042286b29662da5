/-
Reading what the query language writes.

Plain words and filters that the language can write are items of a query.  Each of them, written on
its own, is a complete query that says just this (`Reads`).  So a list of items joined by blanks is
read back item by item (`parse_print`): no item leaks into the next one.
-/
import LogLens.Proofs.Query.Literals
import LogLens.Proofs.Query.Words

namespace LogLens
namespace Query

open Token

/-! ## What can be written -/

/-- The text of a value that stands behind an operator as it is. -/
structure ScalarText (s : String) : Prop where
  nonempty : s ≠ ""
  plain : ∀ c ∈ s.toList, endsValue c = false ∧ c ≠ '*'
  first : ∀ c ∈ s.toList.head?, c ∉ [':', '<', '>', '=']

instance (s : String) : Decidable (ScalarText s) :=
  decidable_of_iff (s ≠ "" ∧ s.toList.all (fun c => !endsValue c && c != '*') = true ∧
    s.toList.head?.all (fun c => !List.contains [':', '<', '>', '='] c) = true) <| by
    simp only [List.all_eq_true, Bool.and_eq_true, Bool.not_eq_true', bne_iff_ne,
      Option.all_eq_true, List.contains_eq_mem, decide_eq_false_iff_not]
    exact ⟨fun h => ⟨h.1, h.2.1, h.2.2⟩, fun h => ⟨h.nonempty, h.plain, h.first⟩⟩

/-- The text of a bound of a range. -/
structure BoundText (s : String) : Prop where
  nonempty : s ≠ ""
  plain : ∀ c ∈ s.toList, isBlank c = false ∧ c ≠ ']'

instance (s : String) : Decidable (BoundText s) :=
  decidable_of_iff (s ≠ "" ∧ s.toList.all (fun c => !isBlank c && c != ']') = true) <| by
    simp only [List.all_eq_true, Bool.and_eq_true, Bool.not_eq_true', bne_iff_ne]
    exact ⟨fun h => ⟨h.1, h.2⟩, fun h => ⟨h.nonempty, h.plain⟩⟩

/-- An operator with an operand that the query language can write. -/
inductive Writable (reference : Instant) : Operator → Operand → Prop where
  | present : Writable reference .present .absent
  | textual {op : Operator} {s : String} (hop : op.isTextual = true) (hs : ScalarText s) :
      Writable reference op (.scalar (.text s))
  | compared {op : Operator} {v : FieldValue} (hop : op ∈ [.equals, .gt, .gte, .lt, .lte])
      (hs : ScalarText v.display) (hv : coerce v.display reference = .ok v) :
      Writable reference op (.scalar v)
  | range {low high : FieldValue} (hlow : BoundText low.display) (hhigh : BoundText high.display)
      (hlow' : coerce low.display reference = .ok low)
      (hhigh' : coerce high.display reference = .ok high) :
      Writable reference .range (.range low high)

/-- What stands behind the colon of a filter. -/
def written (op : Operator) (operand : Operand) : String :=
  match op with
  | .equals | .range => operand.display
  | .present => "*"
  | .contains => "*" ++ operand.display ++ "*"
  | .startsWith => operand.display ++ "*"
  | .endsWith => "*" ++ operand.display
  | op => op.symbol ++ operand.display

theorem display_eq (f : Filter) : f.display =
    (if f.negate then "NOT " else "") ++ f.field ++ ":" ++ written f.operator f.operand := rfl

/-! ## Values behind an operator -/

namespace ScalarText

variable {s : String}

theorem toList_ne_nil (h : ScalarText s) : s.toList ≠ [] := by
  simpa using h.nonempty

theorem isSpecial_first (h : ScalarText s) :
    ∀ c ∈ s.toList.head?, isSpecial c = false ∧ c ≠ '=' := by
  intro c hc
  have hfirst := h.first c hc
  have hplain := (h.plain c (List.mem_of_mem_head? hc)).1
  rw [endsValue_eq_false_iff] at hplain
  rw [isSpecial_eq_false_iff]
  simp only [List.mem_cons, List.not_mem_nil, or_false, not_or] at hfirst
  tauto

end ScalarText

/-- A value right behind an operator that reaches to the end of the text is one token. -/
theorem scan_value_end {word : List Char} (hne : word ≠ [])
    (hfirst : ∀ c ∈ word.head?, isSpecial c = false) (hword : ∀ c ∈ word, endsValue c = false) :
    scan true false word = [.text (String.ofList word)] := by
  obtain ⟨c, word, rfl⟩ := List.exists_cons_of_ne_nil hne
  have hall : ∀ d ∈ word, (!endsValue d) = true := fun d hd => by
    simp [hword d (List.mem_cons_of_mem c hd)]
  rw [scan_value word (hfirst c rfl), List.takeWhile_eq_self_iff.mpr hall,
    List.dropWhile_eq_nil_iff.mpr hall, scan_nil]

theorem bracketed_closed {inside : List Char} (h : ']' ∉ inside) (rest : List Char) :
    bracketed (inside ++ ']' :: rest) = (inside ++ [']'], rest) := by
  induction inside with
  | nil => rfl
  | cons c inside ih =>
    obtain ⟨hc, hinside⟩ := not_or.mp (mt List.mem_cons.mpr h)
    rw [List.cons_append, bracketed, if_neg (Ne.symm hc), ih hinside]
    rfl

/-! ## Stars -/

section Stars

variable {s : String} (field : String)

def stars (there : Bool) : List Char := if there then ['*'] else []

/-- The filter of a word says at which ends of it the stars are. -/
theorem wildcard?_stars (h : ScalarText s) (leading trailing : Bool) :
    wildcard? field (stars leading ++ s.toList ++ stars trailing) =
      match leading, trailing with
      | true, true => some ⟨field, .contains, .scalar (.text s), false⟩
      | false, true => some ⟨field, .startsWith, .scalar (.text s), false⟩
      | true, false => some ⟨field, .endsWith, .scalar (.text s), false⟩
      | false, false => none := by
  have hreplicate : ∀ there : Bool, stars there = List.replicate there.toNat '*' := by
    intro there
    cases there <;> rfl
  have hplain : '*' ∉ s.toList := fun hc => (h.plain _ hc).2 rfl
  rw [hreplicate, hreplicate, wildcard?_starred field h.toList_ne_nil hplain]
  cases leading <;> cases trailing <;> simp

end Stars

/-! ## Ranges -/

theorem bounds?_eq {low high : String} (hlow : BoundText low) (hhigh : BoundText high) :
    bounds? ("[" ++ low ++ " TO " ++ high ++ "]") = some (low, high) := by
  have hlowne : low.toList ≠ [] := by simpa using hlow.nonempty
  have hhighne : high.toList ≠ [] := by simpa using hhigh.nonempty
  have hlowplain : ∀ c ∈ low.toList, isBlank c = false := fun c hc => (hlow.plain c hc).1
  have hhighplain : ∀ c ∈ high.toList, isBlank c = false := fun c hc => (hhigh.plain c hc).1
  have hblank : [' '] ∈ Pattern.someRun isBlank := Pattern.someRun_singleton (by decide)
  have hseparator : " TO ".toList ∈ separators :=
    mem_separators.mpr ⟨[' '], hblank, 'T', 'O', rfl, rfl, [' '], hblank, rfl⟩
  have hdivided : Divided (low.toList ++ (" TO ".toList ++ high.toList)) low.toList high.toList :=
    { divided := ⟨_, hseparator, rfl, undivided_of_not_blank hlowplain _⟩
      whole := fun c hc => hhighplain c (List.mem_of_mem_head? hc)
      only := undivided_of_not_blank hhighplain [] }
  have htrim : ∀ {cs : List Char}, cs ≠ [] → (∀ c ∈ cs, isBlank c = false) → trim cs = cs :=
    fun hne hcs => trim_eq_self hne (fun c hc => hcs c (List.mem_of_mem_head? hc))
      fun c hc => hcs c (List.mem_of_getLast? hc)
  have htrim' : trim (low.toList ++ (" TO ".toList ++ high.toList)) =
      low.toList ++ (" TO ".toList ++ high.toList) := by
    refine trim_eq_self (by simp) (fun c hc => ?_) fun c hc => ?_
    · rw [List.head?_append_of_ne_nil _ hlowne] at hc
      exact hlowplain c (List.mem_of_mem_head? hc)
    · rw [← List.append_assoc, List.getLast?_append_of_ne_nil _ hhighne] at hc
      exact hhighplain c (List.mem_of_getLast? hc)
  refine bounds?_eq_some_iff.mpr ⟨low.toList ++ (" TO ".toList ++ high.toList), by simp,
    low.toList, high.toList, ?_, ?_, ?_, ?_, ?_⟩
  · rwa [htrim']
  · rwa [htrim hlowne hlowplain]
  · rwa [htrim hhighne hhighplain]
  · rw [htrim hlowne hlowplain, String.ofList_toList]
  · rw [htrim hhighne hhighplain, String.ofList_toList]

/-! ## Values of filters -/

/-- What is written for an operator and an operand is read as operators and one value, and these
make the filter again. -/
def ReadBack (reference : Instant) (op : Operator) (operand : Operand) : Prop :=
  ∃ operators token literal, Literal.ofToken? token = some literal ∧
    scan true false (written op operand).toList = operators.map Token.operator ++ [token] ∧
    terminated (written op operand).toList = true ∧
    ∀ field, condition reference field (.colon :: operators) literal =
      .ok (some ⟨field, op, operand, false⟩)

section Values

variable {reference : Instant} {s : String}

theorem terminated_of_endsValue {cs : List Char} (h : ∀ c ∈ cs, endsValue c = false) :
    terminated cs = true := by
  have hplain : ∀ c ∈ cs, c ≠ '"' ∧ c ≠ '[' := fun c hc =>
    ⟨(endsValue_eq_false_iff.mp (h c hc)).2.1, (endsValue_eq_false_iff.mp (h c hc)).2.2.2.2.1⟩
  have hend := terminated_append_plain hplain []
  rw [List.append_nil] at hend
  rw [hend, terminated]

theorem endsValue_starred (h : ScalarText s) (leading trailing : Bool) :
    ∀ c ∈ stars leading ++ s.toList ++ stars trailing, endsValue c = false := by
  have hstars : ∀ there, ∀ c ∈ stars there, endsValue c = false := by
    intro there c hc
    cases there with
    | true => rw [List.mem_singleton.mp hc]; decide
    | false => cases hc
  intro c hc
  rcases List.mem_append.mp hc with hc | hc
  · rcases List.mem_append.mp hc with hc | hc
    · exact hstars leading c hc
    · exact (h.plain c hc).1
  · exact hstars trailing c hc

theorem scan_starred (h : ScalarText s) (leading trailing : Bool) :
    scan true false (stars leading ++ s.toList ++ stars trailing) =
      [.text (String.ofList (stars leading ++ s.toList ++ stars trailing))] := by
  refine scan_value_end (by simp [h.nonempty]) (fun c hc => ?_)
    (endsValue_starred h leading trailing)
  cases leading with
  | true =>
    obtain rfl : '*' = c := by simpa [stars] using hc
    decide
  | false =>
    have hhead : c ∈ (s.toList ++ stars trailing).head? := hc
    rw [List.head?_append_of_ne_nil _ h.toList_ne_nil] at hhead
    exact (h.isSpecial_first c hhead).1

theorem readBack_starred {op : Operator} {leading trailing : Bool} (h : ScalarText s)
    (hwritten : (written op (.scalar (.text s))).toList =
      stars leading ++ s.toList ++ stars trailing)
    (hfilter : ∀ field, wildcard? field (stars leading ++ s.toList ++ stars trailing) =
      some ⟨field, op, .scalar (.text s), false⟩) :
    ReadBack reference op (.scalar (.text s)) := by
  refine ⟨[], _, _, rfl, hwritten ▸ scan_starred h leading trailing, ?_, fun field => ?_⟩
  · rw [hwritten]
    exact terminated_of_endsValue (endsValue_starred h leading trailing)
  · have hequals : operatorOf [.colon] = .equals := rfl
    rw [condition, if_pos hequals, String.toList_ofList, hwritten, hfilter]

/-- An angle bracket before a value is the whole operator. -/
theorem comparison_scalar (h : ScalarText s) (c : Char) :
    Token.comparison c s.toList = (if c = '>' then .gt else .lt, s.toList) := by
  obtain ⟨d, rest, hs⟩ := List.exists_cons_of_ne_nil h.toList_ne_nil
  have hd : d ≠ '=' := (h.isSpecial_first d (by simp [hs])).2
  simp [hs, Token.comparison, hd]

theorem readBack_compared {op : Operator} {v : FieldValue} (symbol : List Char)
    (operators : List Comparison) (h : ScalarText v.display)
    (hv : coerce v.display reference = .ok v)
    (hwritten : (written op (.scalar v)).toList = symbol ++ v.display.toList)
    (hsymbol : ∀ c ∈ symbol, c ∈ ['<', '>', '='])
    (hscan : scan true false (symbol ++ v.display.toList) =
      operators.map Token.operator ++ scan true false v.display.toList)
    (hop : operatorOf (.colon :: operators) = op) : ReadBack reference op (.scalar v) := by
  have hscalar : scan true false v.display.toList = [.text v.display] := by
    simpa [stars] using scan_starred h false false
  refine ⟨operators, .text v.display, .word v.display, rfl, ?_, ?_, ?_⟩
  · rw [hwritten, hscan, hscalar]
  · rw [hwritten]
    refine terminated_of_endsValue fun c hc => ?_
    rcases List.mem_append.mp hc with hc | hc
    · have hends : ∀ c ∈ ['<', '>', '='], endsValue c = false := by
        simp [endsValue, isBlank]
      exact hends c (hsymbol c hc)
    · exact (h.plain c hc).1
  · intro field
    have hnone : wildcard? field v.display.toList = none := by
      simpa [stars] using wildcard?_stars field h false false
    simp [condition, comparison, hop, hnone, hv]

theorem readBack_range {low high : FieldValue} (hlow : BoundText low.display)
    (hhigh : BoundText high.display) (hlow' : coerce low.display reference = .ok low)
    (hhigh' : coerce high.display reference = .ok high) :
    ReadBack reference .range (.range low high) := by
  have htext : (written .range (.range low high)).toList =
      '[' :: (low.display.toList ++ " TO ".toList ++ high.display.toList ++ [']']) := by
    simp [written, Operand.display]
  have hinside : ']' ∉ low.display.toList ++ " TO ".toList ++ high.display.toList := by
    simp only [List.mem_append, not_or]
    exact ⟨⟨fun hc => (hlow.plain _ hc).2 rfl, by decide⟩, fun hc => (hhigh.plain _ hc).2 rfl⟩
  have hbracketed := bracketed_closed hinside []
  refine ⟨[], .range (written .range (.range low high)), .range (written .range (.range low high)),
    rfl, ?_, ?_, ?_⟩
  · rw [htext, scan_bracket, hbracketed, scan_nil, ← htext, String.ofList_toList]
    rfl
  · rw [htext, terminated_bracket, hbracketed]
    exact ⟨by simp, by rw [terminated]⟩
  · intro field
    have hbounds : bounds? (written .range (.range low high)) =
        some (low.display, high.display) := bounds?_eq hlow hhigh
    simp only [condition, hbounds, Option.mapM, hlow', hhigh']
    rfl

theorem Writable.readBack {op : Operator} {operand : Operand}
    (h : Writable reference op operand) : ReadBack reference op operand := by
  cases h with
  | present =>
    exact ⟨[], .text "*", .word "*", rfl, by decide +kernel, by decide +kernel, fun _ => rfl⟩
  | @textual op s hop hs =>
    have hdisplay : (Operand.scalar (.text s)).display = s := rfl
    cases op with
    | contains =>
      exact readBack_starred hs (by simp [written, hdisplay, stars])
        fun field => wildcard?_stars field hs true true
    | startsWith =>
      exact readBack_starred hs (by simp [written, hdisplay, stars])
        fun field => wildcard?_stars field hs false true
    | endsWith =>
      exact readBack_starred hs (by simp [written, hdisplay, stars])
        fun field => wildcard?_stars field hs true false
    | _ => cases hop
  | @compared op v hop hs hv =>
    have hdisplay : (Operand.scalar v).display = v.display := rfl
    cases op with
    | equals => exact readBack_compared [] [] hs hv rfl (by simp) rfl rfl
    | gt =>
      refine readBack_compared ['>'] [.gt] hs hv ?_ (by simp) ?_ rfl
      · simp [written, Operator.symbol, hdisplay]
      · rw [List.singleton_append, scan_angle _ _ _ (Or.inl rfl), comparison_scalar hs]
        rfl
    | gte =>
      refine readBack_compared ['>', '='] [.gte] hs hv ?_ (by simp) ?_ rfl
      · simp [written, Operator.symbol, hdisplay]
      · exact scan_angle _ _ _ (Or.inl rfl)
    | lt =>
      refine readBack_compared ['<'] [.lt] hs hv ?_ (by simp) ?_ rfl
      · simp [written, Operator.symbol, hdisplay]
      · rw [List.singleton_append, scan_angle _ _ _ (Or.inr rfl), comparison_scalar hs]
        rfl
    | lte =>
      refine readBack_compared ['<', '='] [.lte] hs hv ?_ (by simp) ?_ rfl
      · simp [written, Operator.symbol, hdisplay]
      · exact scan_angle _ _ _ (Or.inr rfl)
    | _ => simp at hop
  | range hlow hhigh hlow' hhigh' => exact readBack_range hlow hhigh hlow' hhigh'

end Values

/-! ## Items -/

/-- What a query is made of. -/
inductive Item where
  | word (w : String)
  | filter (f : Filter)

namespace Item

/-- The item as the query language writes it. -/
def display : Item → String
  | word w => w
  | filter f => f.display

def word? : Item → Option String
  | word w => some w
  | filter _ => none

def filter? : Item → Option Filter
  | word _ => none
  | filter f => some f

/-- The query language can write the item. -/
inductive Printable (reference : Instant) : Item → Prop where
  | word {w : String} (h : PlainWord w) : Printable reference (.word w)
  | filter {f : Filter} (hfield : PlainWord f.field)
      (hvalue : Writable reference f.operator f.operand) : Printable reference (.filter f)

end Item

/-- The text is read as the item, and leaves what follows alone. -/
structure Reads (reference : Instant) (s : String) (item : Item) : Prop where
  complete : Complete s
  ended : endsInOperator false (tokenize s) = false
  /-- The text does not begin with a character that could belong to what is before it. -/
  first : ∃ c rest, s.toList = c :: rest ∧ isSpecial c = false
  parsed : parse s reference = .ok ⟨item.filter?.toList, item.word?.toList⟩

theorem PlainWord.reads {w : String} (h : PlainWord w) (reference : Instant) :
    Reads reference w (.word w) where
  complete := by
    have hends : ∀ c ∈ w.toList, endsValue c = false := by
      intro c hc
      have hplain := isSpecial_eq_false_iff.mp (h.plain c hc)
      rw [endsValue_eq_false_iff]
      tauto
    exact ⟨terminated_of_endsValue hends, by rw [h.tokenize_eq]; rfl, by rw [h.tokenize_eq]; rfl⟩
  ended := by rw [h.tokenize_eq]; rfl
  first := by
    obtain ⟨c, rest, hw⟩ := List.exists_cons_of_ne_nil h.toList_ne_nil
    exact ⟨c, rest, hw, h.plain c (by simp [hw])⟩
  parsed := by
    rw [parse, h.tokenize_eq]
    rfl

/-- The text of `NOT` before a filter that is turned around. -/
def negation (negate : Bool) : List Char := if negate then "NOT ".toList else []

theorem toList_display (f : Filter) : f.display.toList = negation f.negate ++
    (f.field.toList ++ ':' :: (written f.operator f.operand).toList) := by
  rw [display_eq]
  cases f.negate <;> simp [negation]

theorem scan_negation (negate : Bool) (rest : List Char) :
    scan false false (negation negate ++ rest) =
      (if negate then [.not] else []) ++ scan false negate rest := by
  cases negate with
  | false => rfl
  | true =>
    have hrest : ∀ c ∈ (' ' :: rest).head?, isSpecial c = true := by simp [isSpecial, isBlank]
    have hword : ∀ c ∈ "NOT".toList, isSpecial c = false := by simp [isSpecial, isBlank]
    have hrun := scan_run (by simp) hword false _ hrest
    rw [scan_blank _ _ _ (by decide)] at hrun
    exact hrun

theorem Writable.reads {reference : Instant} {f : Filter} (hfield : PlainWord f.field)
    (hvalue : Writable reference f.operator f.operand) : Reads reference f.display (.filter f) := by
  obtain ⟨operators, token, literal, hliteral, hscan, hterminated, hcondition⟩ := hvalue.readBack
  have htokens : tokenize f.display = (if f.negate then [.not] else []) ++
      (.field f.field :: .operator .colon :: operators.map Token.operator) ++ [token] := by
    rw [tokenize_eq_scan, toList_display, scan_negation, hfield.scan_field, hscan]
    simp
  have hsegments : segments (tokenize f.display) = (if f.negate then [.not] else []) ++
      [.condition f.field (.colon :: operators) literal] := by
    have hcondition' := segments_condition operators f.field .colon hliteral
    rw [htokens]
    cases f.negate with
    | true => exact congrArg (Segment.not :: ·) hcondition'
    | false => exact hcondition'
  refine ⟨⟨?_, ?_, ?_⟩, ?_, ?_, ?_⟩
  · have hnegation : ∀ c ∈ negation f.negate, c ≠ '"' ∧ c ≠ '[' := by
      cases f.negate <;> simp [negation]
    have hplain : ∀ c ∈ f.field.toList, c ≠ '"' ∧ c ≠ '[' := fun c hc =>
      ⟨(isSpecial_eq_false_iff.mp (hfield.plain c hc)).2.1,
        (isSpecial_eq_false_iff.mp (hfield.plain c hc)).2.2.2.2.2.1⟩
    rw [toList_display, terminated_append_plain hnegation, terminated_append_plain hplain,
      terminated_cons (by decide) (by decide)]
    exact hterminated
  · rw [htokens]
    exact awaitsValue_concat hliteral _
  · rw [hsegments]
    cases f.negate <;> rfl
  · rw [htokens, endsInOperator_concat]
    exact (isOperator_of_literal hliteral).1
  · rw [toList_display]
    obtain ⟨c, rest, hw⟩ := List.exists_cons_of_ne_nil hfield.toList_ne_nil
    cases f.negate with
    | true => exact ⟨'N', _, rfl, by simp [isSpecial, isBlank]⟩
    | false =>
      rw [hw]
      exact ⟨c, _, rfl, hfield.plain c (by simp [hw])⟩
  · rw [parse, hsegments]
    obtain ⟨field, op, operand, negate⟩ := f
    have hparsed : ∀ negate, ofSegments reference negate
        [.condition field (.colon :: operators) literal] =
          .ok ⟨[⟨field, op, operand, negate⟩], []⟩ := by
      intro negate
      rw [ofSegments, hcondition]
      rfl
    cases negate with
    | true => exact hparsed true
    | false => exact hparsed false

theorem Item.Printable.reads {reference : Instant} {item : Item} (h : item.Printable reference) :
    Reads reference item.display item := by
  cases h with
  | word h => exact h.reads reference
  | filter hfield hvalue => exact Writable.reads hfield hvalue

/-! ## Lists of items -/

theorem Reads.append {reference : Instant} {a b : String} {item : Item} {p : Parsed}
    (ha : Reads reference a item) (hb : parse b reference = .ok p)
    (hfirst : ∃ c rest, b.toList = c :: rest ∧ isSpecial c = false) :
    parse (a ++ " " ++ b) reference =
      .ok ⟨item.filter?.toList ++ p.filters, item.word?.toList ++ p.words⟩ := by
  obtain ⟨c, rest, htext, hc⟩ := hfirst
  obtain ⟨hblank, -, hcolon, -⟩ := isSpecial_eq_false_iff.mp hc
  have hhead : (trimStart b.toList).head? ≠ some ':' := by
    simpa [htext, trimStart, hblank] using hcolon
  rw [parse_append_blank ha.complete hhead (by simp [ha.ended]), ha.parsed, hb]
  rfl

theorem joinWith_first {separator s : String} {c : Char} {rest : List Char}
    (h : s.toList = c :: rest) (more : List String) :
    ∃ rest', (joinWith separator (s :: more)).toList = c :: rest' := by
  cases more with
  | nil => exact ⟨rest, h⟩
  | cons next more =>
    have hjoin : joinWith separator (s :: next :: more) =
        s ++ separator ++ joinWith separator (next :: more) := rfl
    rw [hjoin, String.toList_append, String.toList_append, h]
    exact ⟨_, rfl⟩

theorem parse_items (reference : Instant) (items : List Item)
    (h : ∀ item ∈ items, item.Printable reference) :
    parse (joinWith " " (items.map Item.display)) reference =
      .ok ⟨items.filterMap Item.filter?, items.filterMap Item.word?⟩ := by
  induction items with
  | nil =>
    have htokens : tokenize "" = [] := by decide +kernel
    rw [List.map_nil, joinWith, parse, htokens]
    rfl
  | cons item items ih =>
    have hitem := (h item List.mem_cons_self).reads
    have hrest := ih fun item hmem => h item (List.mem_cons_of_mem _ hmem)
    have hfilters : (item :: items).filterMap Item.filter? =
        item.filter?.toList ++ items.filterMap Item.filter? := by
      cases item <;> rfl
    have hwords : (item :: items).filterMap Item.word? =
        item.word?.toList ++ items.filterMap Item.word? := by
      cases item <;> rfl
    rw [hfilters, hwords]
    cases items with
    | nil => simpa [joinWith] using hitem.parsed
    | cons next items =>
      obtain ⟨c, rest, hnext, hc⟩ := (h next (by simp)).reads.first
      obtain ⟨rest', htext⟩ := joinWith_first hnext (items.map Item.display)
      exact hitem.append hrest ⟨c, rest', htext, hc⟩

/-- A list of items, written and joined by blanks, is read back: its filters in order, and its words
joined by blanks. -/
theorem parse_print (reference : Instant) (items : List Item)
    (h : ∀ item ∈ items, item.Printable reference) :
    ∃ p, parse (joinWith " " (items.map Item.display)) reference = .ok p ∧
      p.filters = items.filterMap Item.filter? ∧
      p.text = joinWith " " (items.filterMap Item.word?) :=
  ⟨_, parse_items reference items h, rfl, rfl⟩

/-- Every kind of filter between words. -/
theorem parse_print_mixture :
    ∃ p, parse ("disk NOT host:web* path:*a:b* file:*.gz level:ERROR NOT took:>=250 user:* " ++
        "status:[500 TO 599] full") Instant.earliest = .ok p ∧
      p.filters =
        [⟨"host", .startsWith, .scalar (.text "web"), true⟩,
          ⟨"path", .contains, .scalar (.text "a:b"), false⟩,
          ⟨"file", .endsWith, .scalar (.text ".gz"), false⟩,
          ⟨"level", .equals, .scalar (.text "ERROR"), false⟩,
          ⟨"took", .gte, .scalar (.number (Binary64.ofNat 250)), true⟩,
          .hasField "user",
          .between "status" (.number (Binary64.ofNat 500)) (.number (Binary64.ofNat 599))] ∧
      p.text = "disk full" := by
  obtain ⟨items, hitems⟩ : ∃ items : List Item, items =
      [.word "disk",
        .filter ⟨"host", .startsWith, .scalar (.text "web"), true⟩,
        .filter ⟨"path", .contains, .scalar (.text "a:b"), false⟩,
        .filter ⟨"file", .endsWith, .scalar (.text ".gz"), false⟩,
        .filter ⟨"level", .equals, .scalar (.text "ERROR"), false⟩,
        .filter ⟨"took", .gte, .scalar (.number (Binary64.ofNat 250)), true⟩,
        .filter (.hasField "user"),
        .filter (.between "status" (.number (Binary64.ofNat 500))
          (.number (Binary64.ofNat 599))),
        .word "full"] := ⟨_, rfl⟩
  have hprintable : ∀ item ∈ items, item.Printable Instant.earliest := by
    rw [hitems]
    simp only [List.forall_mem_cons]
    refine ⟨.word ?_, .filter ?_ (.textual rfl ?_), .filter ?_ (.textual rfl ?_),
      .filter ?_ (.textual rfl ?_), .filter ?_ (.compared ?_ ?_ ?_),
      .filter ?_ (.compared ?_ ?_ ?_), .filter ?_ .present, .filter ?_ (.range ?_ ?_ ?_ ?_),
      .word ?_, List.forall_mem_nil _⟩ <;> decide +kernel
  have htext : joinWith " " (items.map Item.display) =
      "disk NOT host:web* path:*a:b* file:*.gz level:ERROR NOT took:>=250 user:* " ++
        "status:[500 TO 599] full" := by
    rw [hitems]
    decide +kernel
  obtain ⟨p, hp, hfilters, hwords⟩ := parse_print Instant.earliest items hprintable
  rw [htext] at hp
  exact ⟨p, hp, by rw [hfilters, hitems]; rfl, by rw [hwords, hitems]; rfl⟩

end Query
end LogLens
