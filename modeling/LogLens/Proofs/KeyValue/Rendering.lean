/-
Pairs that are written are found again.

A pair is written as `key=value`, its value in quotes or bare (`Item`).  A value in quotes is any
text with a backslash before every backslash and every quote: the closing quote is found behind it
(`closeQuote?_escape`), and taking the backslashes away, first those before quotes and then those
before backslashes, gives the text back (`unescape_escape`).  A bare value ends at the blank in
front of the next pair.  So a line of pairs holds just these pairs, whatever stands in front of it
without an equals sign (`fieldsOf_rendered`).
-/
import LogLens.KeyValue
import LogLens.Proofs.Dict.Lookup

namespace LogLens
namespace KeyValue

/-! ## Escaped texts -/

/-- A backslash before every backslash and every quote. -/
def escape (cs : List Char) : List Char :=
  cs.flatMap fun c => if c = '\\' ∨ c = '"' then ['\\', c] else [c]

/-- Every backslash twice: what the first round of unescaping leaves. -/
def doubled (cs : List Char) : List Char :=
  cs.flatMap fun c => if c = '\\' then ['\\', '\\'] else [c]

theorem escape_cons_of_special {c : Char} (h : c = '\\' ∨ c = '"') (cs : List Char) :
    escape (c :: cs) = '\\' :: c :: escape cs := by
  rw [escape, List.flatMap_cons, if_pos h]
  rfl

theorem escape_cons_of_plain {c : Char} (h : ¬(c = '\\' ∨ c = '"')) (cs : List Char) :
    escape (c :: cs) = c :: escape cs := by
  rw [escape, List.flatMap_cons, if_neg h]
  rfl

theorem doubled_backslash (cs : List Char) :
    doubled ('\\' :: cs) = '\\' :: '\\' :: doubled cs := rfl

theorem doubled_cons {c : Char} (h : c ≠ '\\') (cs : List Char) :
    doubled (c :: cs) = c :: doubled cs := by
  rw [doubled, List.flatMap_cons, if_neg h]
  rfl

/-- A quote never stands first: a backslash would be before it. -/
theorem head?_escape_ne (cs : List Char) : (escape cs).head? ≠ some '"' := by
  cases cs with
  | nil => simp [escape]
  | cons c cs =>
    by_cases h : c = '\\' ∨ c = '"'
    · simp [escape_cons_of_special h]
    · rw [escape_cons_of_plain h]
      exact fun hc => h (Or.inr (Option.some.inj hc))

theorem replacePair_self (a b c : Char) (rest : List Char) :
    replacePair a b c (a :: b :: rest) = c :: replacePair a b c rest := by
  rw [replacePair, if_pos ⟨rfl, rfl⟩]

theorem replacePair_cons {a b c x : Char} {rest : List Char}
    (h : x = a → rest.head? ≠ some b) :
    replacePair a b c (x :: rest) = x :: replacePair a b c rest := by
  cases rest with
  | nil => rfl
  | cons y rest => rw [replacePair, if_neg fun hxy => h hxy.1 (by rw [hxy.2]; rfl)]

theorem replacePair_quote_escape (cs : List Char) :
    replacePair '\\' '"' '"' (escape cs) = doubled cs := by
  induction cs with
  | nil => rfl
  | cons c cs ih =>
    by_cases hquote : c = '"'
    · subst hquote
      rw [escape_cons_of_special (Or.inr rfl), replacePair_self, ih, doubled_cons (by decide)]
    by_cases hbackslash : c = '\\'
    · subst hbackslash
      -- neither of the two backslashes has a quote behind it
      rw [escape_cons_of_special (Or.inl rfl), replacePair_cons fun _ => by simp,
        replacePair_cons fun _ => head?_escape_ne cs, ih, doubled_backslash]
    · rw [escape_cons_of_plain (not_or.mpr ⟨hbackslash, hquote⟩),
        replacePair_cons fun h => absurd h hbackslash, ih, doubled_cons hbackslash]

theorem replacePair_backslash_doubled (cs : List Char) :
    replacePair '\\' '\\' '\\' (doubled cs) = cs := by
  induction cs with
  | nil => rfl
  | cons c cs ih =>
    by_cases h : c = '\\'
    · rw [h, doubled_backslash, replacePair_self, ih]
    · rw [doubled_cons h, replacePair_cons fun hc => absurd hc h, ih]

theorem unescape_escape (cs : List Char) : unescape (escape cs) = cs := by
  rw [unescape, replacePair_quote_escape, replacePair_backslash_doubled]

/-- The first quote without a backslash is the closing one. -/
theorem closeQuote?_escape (cs rest : List Char) :
    closeQuote? (escape cs ++ '"' :: rest) = some (escape cs, rest) := by
  induction cs with
  | nil => rfl
  | cons c cs ih =>
    by_cases h : c = '\\' ∨ c = '"'
    · have hnewline : c ≠ '\n' := by
        rintro rfl
        exact absurd h (by decide)
      rw [escape_cons_of_special h, List.cons_append, List.cons_append, closeQuote?,
        if_neg hnewline, ih]
      rfl
    · obtain ⟨hbackslash, hquote⟩ := not_or.mp h
      rw [escape_cons_of_plain h, List.cons_append, closeQuote?, if_neg hbackslash, ih]
      · rfl
      · exact hquote
      · exact fun _ _ hc => absurd hc hbackslash

/-! ## Written pairs -/

/-- A value to be written. -/
inductive Value where
  | quoted (s : String)
  | bare (s : String)

namespace Value

def text : Value → List Char
  | quoted s => '"' :: (escape s.toList ++ ['"'])
  | bare s => s.toList

/-- Only bare values are restricted. -/
def Writable : Value → Prop
  | quoted _ => True
  | bare s => s ≠ "" ∧ ∀ c ∈ s.toList, isBareChar c = true

/-- What a value stands for: in quotes a text, bare a number, a truth value or a text. -/
def meaning : Value → FieldValue
  | quoted s => .text s
  | bare s =>
    match parseNumber? s with
    | some x => .number x
    | none =>
      if equalsIgnoringCase s.toList "true".toList then .bool true
      else if equalsIgnoringCase s.toList "false".toList then .bool false
      else .text s

/-- The value as a reader finds it. -/
def written : Value → Written
  | quoted s => .quoted (escape s.toList)
  | bare s => .bare s.toList

theorem value_written (v : Value) : v.written.value = v.meaning := by
  cases v with
  | quoted s => rw [written, Written.value, unescape_escape, String.ofList_toList, meaning]
  | bare s =>
    rw [written, Written.value, String.ofList_toList]
    rfl

/-- What follows does not lengthen a bare value. -/
theorem value?_text {v : Value} (hv : v.Writable) {rest : List Char}
    (hrest : ∀ c ∈ rest.head?, isBlank c = true) :
    value? (v.text ++ rest) = some (v.written, rest) := by
  cases v with
  | quoted s =>
    rw [text, List.cons_append, List.append_assoc, List.singleton_append, value?,
      closeQuote?_escape]
    rfl
  | bare s =>
    obtain ⟨hne, hbare⟩ := hv
    have hstop : rest.takeWhile isBareChar = [] ∧ rest.dropWhile isBareChar = rest := by
      cases rest with
      | nil => exact ⟨rfl, rfl⟩
      | cons c rest => simp [isBareChar, hrest c rfl]
    have hlist : s.toList ≠ [] := by simpa using hne
    have hempty : s.toList.isEmpty = false := by simpa using hlist
    have hquote : ∀ more, s.toList ++ rest ≠ '"' :: more := by
      intro more heq
      obtain ⟨c, cs, hcs⟩ := List.exists_cons_of_ne_nil hlist
      have hc := hbare c (hcs ▸ List.mem_cons_self)
      rw [hcs, List.cons_append] at heq
      rw [(List.cons.inj heq).1] at hc
      exact absurd hc (by decide)
    rw [text, value?]
    · simp only [List.takeWhile_append_of_pos hbare, List.dropWhile_append_of_pos hbare, hstop,
        List.append_nil, hempty]
      rfl
    · exact hquote

end Value

/-! ## Keys -/

/-- A letter or an underscore, then letters, digits, underscores, dots and hyphens. -/
structure IsKey (key : String) : Prop where
  start : key.toList.head?.any isKeyStart = true
  chars : ∀ c ∈ key.toList.tail, isKeyChar c = true

theorem IsKey.exists_cons {key : String} (h : IsKey key) :
    ∃ c cs, key.toList = c :: cs ∧ isKeyStart c = true ∧ ∀ d ∈ cs, isKeyChar d = true := by
  obtain ⟨hstart, hchars⟩ := h
  cases hkey : key.toList with
  | nil =>
    rw [hkey] at hstart
    cases hstart
  | cons c cs =>
    rw [hkey] at hstart hchars
    exact ⟨c, cs, rfl, hstart, hchars⟩

theorem isKeyChar_of_isKeyStart {c : Char} (h : isKeyStart c = true) : isKeyChar c = true := by
  rw [isKeyStart, Bool.or_eq_true] at h
  rcases h with h | h <;> simp [isKeyChar, isWordChar, Char.isAlphanum, h]

theorem isKeyChar_of_isBlank {c : Char} (h : isBlank c = true) : isKeyChar c = false := by
  have hall : ∀ n ∈ [0x09, 0x0A, 0x0B, 0x0C, 0x0D, 0x20, 0x85, 0xA0, 0x1680, 0x2028, 0x2029, 0x202F,
      0x205F, 0x3000] ++ List.range' 0x2000 11, isKeyChar (Char.ofNat n) = false := by
    decide +kernel
  have hmem : c.toNat ∈ [0x09, 0x0A, 0x0B, 0x0C, 0x0D, 0x20, 0x85, 0xA0, 0x1680, 0x2028, 0x2029,
      0x202F, 0x205F, 0x3000] ++ List.range' 0x2000 11 := by
    simp [isBlank] at h
    simp
    omega
  have hkey := hall c.toNat hmem
  rwa [Char.ofNat_toNat] at hkey

theorem pair?_of_isKey {key : String} (hkey : IsKey key) (rest : List Char) :
    pair? (key.toList ++ '=' :: rest) =
      (value? rest).map fun found => (⟨key.toList, found.1⟩, found.2) := by
  obtain ⟨c, cs, hcons, hc, hcs⟩ := hkey.exists_cons
  have hchars : ∀ d ∈ key.toList, isKeyChar d = true := by
    rw [hcons]
    exact List.forall_mem_cons.mpr ⟨isKeyChar_of_isKeyStart hc, hcs⟩
  have hhead : (key.toList ++ '=' :: rest).head? = some c := by rw [hcons]; rfl
  have hequals : isKeyChar '=' = false := by decide +kernel
  rw [pair?, hhead, List.takeWhile_append_of_pos hchars, List.dropWhile_append_of_pos hchars]
  simp only [List.takeWhile_cons, List.dropWhile_cons, hequals]
  cases h : value? rest <;> simp [hc, h, afterPrefix?]

/-- Up to a blank without an equals sign stands no pair. -/
theorem pair?_of_blank {cs : List Char} (hcs : '=' ∉ cs) {c : Char} (hc : isBlank c = true)
    (rest : List Char) : pair? (cs ++ c :: rest) = none := by
  have hblank := isKeyChar_of_isBlank hc
  have hafter : afterPrefix? ['='] ((cs ++ c :: rest).dropWhile isKeyChar) = none := by
    induction cs with
    | nil =>
      rw [List.nil_append, List.dropWhile_cons_of_neg (by simp [hblank]), afterPrefix?, if_neg]
      rintro heq
      rw [← beq_iff_eq.mp heq] at hc
      exact absurd hc (by decide)
    | cons d cs ih =>
      rw [List.cons_append, List.dropWhile_cons]
      split
      · exact ih fun h => hcs (List.mem_cons_of_mem d h)
      · rw [afterPrefix?, if_neg]
        rintro heq
        exact hcs (List.mem_cons.mpr (Or.inl (beq_iff_eq.mp heq)))
  rw [pair?]
  cases hhead : (cs ++ c :: rest).head? with
  | none => rfl
  | some d => simp [hafter]

/-! ## Lines -/

theorem pairsFrom_skip (taken rest : List Char) :
    pairsFrom false taken.length (taken ++ rest) = pairsFrom false 0 rest := by
  induction taken with
  | nil => rfl
  | cons c taken ih => exact ih

/-- A pair behind a blank is found, and the search goes on behind it. -/
theorem pairsFrom_of_blank {c : Char} (hc : isBlank c = true) {taken rest : List Char} {pair : Pair}
    (hpair : pair? (taken ++ rest) = some (pair, rest)) (atStart : Bool) :
    pairsFrom atStart 0 (c :: (taken ++ rest)) = pair :: pairsFrom false 0 rest := by
  have hnone : pair? (c :: (taken ++ rest)) = none := pair?_of_blank List.not_mem_nil hc _
  have hlength : (taken ++ rest).length - rest.length = taken.length := by simp
  rw [pairsFrom]
  simp only [hnone, hc, hpair, hlength, ite_self, if_true, Option.none_or]
  rw [pairsFrom_skip]

theorem pairsFrom_blank {c : Char} (hc : isBlank c = true) (atStart : Bool) :
    pairsFrom atStart 0 [c] = [] := by
  have hnone : pair? [c] = none := pair?_of_blank List.not_mem_nil hc []
  have hend : pair? [] = none := rfl
  rw [pairsFrom]
  simp only [hnone, hend, ite_self, Option.or_self]
  rw [pairsFrom]

/-- A pair at the start is found, too. -/
theorem pairsFrom_of_start {c : Char} {taken rest : List Char} {pair : Pair}
    (hpair : pair? (c :: (taken ++ rest)) = some (pair, rest)) :
    pairsFrom true 0 (c :: (taken ++ rest)) = pair :: pairsFrom false 0 rest := by
  have hlength : (taken ++ rest).length - rest.length = taken.length := by simp
  rw [pairsFrom]
  simp only [hpair, hlength, if_true, Option.some_or]
  rw [pairsFrom_skip]

/-- Text without an equals sign, up to a blank, is passed over. -/
theorem pairsFrom_lead {lead : List Char} (hlead : '=' ∉ lead) {c : Char} (hc : isBlank c = true)
    (rest : List Char) (atStart : Bool) :
    ∃ atStart', pairsFrom atStart 0 (lead ++ c :: rest) = pairsFrom atStart' 0 (c :: rest) := by
  induction lead generalizing atStart with
  | nil => exact ⟨atStart, rfl⟩
  | cons d lead ih =>
    have hrest : '=' ∉ lead := fun h => hlead (List.mem_cons_of_mem d h)
    have hhere : pair? (d :: (lead ++ c :: rest)) = none := pair?_of_blank hlead hc rest
    have hnext : pair? (lead ++ c :: rest) = none := pair?_of_blank hrest hc rest
    rw [List.cons_append, pairsFrom]
    simp only [hhere, hnext, ite_self, Option.none_or]
    exact ih hrest false

/-- A key with its value. -/
structure Item where
  key : String
  value : Value

namespace Item

def text (i : Item) : String := i.key ++ "=" ++ String.ofList i.value.text

/-- The pair as a reader finds it. -/
def pair (i : Item) : Pair := ⟨i.key.toList, i.value.written⟩

structure Writable (i : Item) : Prop where
  key : IsKey i.key
  value : i.value.Writable

theorem toList_text (i : Item) : i.text.toList = i.key.toList ++ '=' :: i.value.text := by
  simp [text]

theorem Writable.pair?_text {i : Item} (h : i.Writable) {rest : List Char}
    (hrest : ∀ c ∈ rest.head?, isBlank c = true) :
    pair? (i.text.toList ++ rest) = some (i.pair, rest) := by
  rw [toList_text, List.append_assoc, List.cons_append, pair?_of_isKey h.key,
    Value.value?_text h.value hrest]
  rfl

end Item

/-- Each item behind a space. -/
def behindSpaces (items : List Item) : List Char := items.flatMap fun i => ' ' :: i.text.toList

theorem head?_behindSpaces (items : List Item) :
    ∀ c ∈ (behindSpaces items).head?, isBlank c = true := by
  cases items with
  | nil => simp [behindSpaces]
  | cons i items =>
    intro c hc
    obtain rfl : ' ' = c := Option.some.inj hc
    decide

theorem toList_joinWith (i : Item) (items : List Item) :
    (joinWith " " ((i :: items).map Item.text)).toList = i.text.toList ++ behindSpaces items := by
  induction items generalizing i with
  | nil => simp [joinWith, behindSpaces]
  | cons j items ih =>
    have hjoin : joinWith " " ((i :: j :: items).map Item.text) =
        i.text ++ " " ++ joinWith " " ((j :: items).map Item.text) := rfl
    rw [hjoin, String.toList_append, ih]
    simp [behindSpaces]

theorem pairsFrom_behindSpaces {items : List Item} (h : ∀ i ∈ items, i.Writable) (atStart : Bool) :
    pairsFrom atStart 0 (behindSpaces items) = items.map Item.pair := by
  induction items generalizing atStart with
  | nil => cases atStart <;> rfl
  | cons i items ih =>
    have hpair := (h i List.mem_cons_self).pair?_text (head?_behindSpaces items)
    have htext : behindSpaces (i :: items) = ' ' :: (i.text.toList ++ behindSpaces items) := rfl
    rw [htext, pairsFrom_of_blank (by decide) hpair,
      ih (fun j hj => h j (List.mem_cons_of_mem i hj)) false]
    rfl

/-- What may stand in front of the pairs: nothing, or any text without an equals sign that ends in a
blank. -/
structure IsLead (lead : String) : Prop where
  equals : '=' ∉ lead.toList
  blank : lead.toList.getLast?.all isBlank = true

theorem pairsFrom_line {lead : String} (hlead : IsLead lead) {items : List Item}
    (h : ∀ i ∈ items, i.Writable) :
    pairsFrom true 0 (lead ++ joinWith " " (items.map Item.text)).toList =
      items.map Item.pair := by
  rw [String.toList_append]
  rcases List.eq_nil_or_concat' lead.toList with hnil | ⟨before, c, hconcat⟩
  · rw [hnil, List.nil_append]
    cases items with
    | nil => rfl
    | cons i items =>
      have hpair := (h i List.mem_cons_self).pair?_text (head?_behindSpaces items)
      obtain ⟨c, cs, hkey, -⟩ := (h i List.mem_cons_self).key.exists_cons
      have htext : i.text.toList = c :: (cs ++ '=' :: i.value.text) := by
        rw [Item.toList_text, hkey, List.cons_append]
      rw [htext, List.cons_append] at hpair
      rw [toList_joinWith, htext, List.cons_append, pairsFrom_of_start hpair,
        pairsFrom_behindSpaces fun j hj => h j (List.mem_cons_of_mem i hj)]
      rfl
  · have hc : isBlank c = true := by
      have hblank := hlead.blank
      rwa [hconcat, List.getLast?_concat] at hblank
    have hbefore : '=' ∉ before := fun hmem => hlead.equals (by rw [hconcat]; simp [hmem])
    rw [hconcat, List.append_assoc, List.singleton_append]
    obtain ⟨atStart, hpassed⟩ := pairsFrom_lead hbefore hc
      (joinWith " " (items.map Item.text)).toList true
    rw [hpassed]
    cases items with
    | nil => exact pairsFrom_blank hc atStart
    | cons i items =>
      have hpair := (h i List.mem_cons_self).pair?_text (head?_behindSpaces items)
      rw [toList_joinWith, pairsFrom_of_blank hc hpair,
        pairsFrom_behindSpaces fun j hj => h j (List.mem_cons_of_mem i hj)]
      rfl

/-- A line of pairs with different keys, behind any text without an equals sign, has just these
pairs as fields. -/
theorem fieldsOf_rendered {lead : String} (hlead : IsLead lead) {items : List Item}
    (hitems : ∀ i ∈ items, i.Writable) (hkeys : (items.map Item.key).Nodup) :
    (fieldsOf (lead ++ joinWith " " (items.map Item.text))).entries.Perm
      (items.map fun i => (i.key, i.value.meaning)) := by
  have hpairs : fieldsOf (lead ++ joinWith " " (items.map Item.text)) =
      Dict.ofList (items.map fun i => (i.key, i.value.meaning)) := by
    rw [fieldsOf, pairsFrom_line hlead hitems, List.map_map]
    refine congrArg Dict.ofList (List.map_congr_left fun i _ => ?_)
    show (String.ofList i.key.toList, i.value.written.value) = _
    rw [String.ofList_toList, Value.value_written]
  rw [hpairs]
  refine Dict.entries_ofList_perm ?_
  rwa [List.map_map]

/-- A quoted value that holds a pair itself, quotes and backslashes in runs, and bare values of all
kinds. -/
theorem fieldsOf_rendered_nested :
    let items : List Item := [⟨"msg", .quoted "a=\"b\\\" \\"⟩, ⟨"a.b-c", .bare "1e3"⟩,
      ⟨"_ok", .bare "TRUE"⟩, ⟨"x", .bare "k=v"⟩]
    let line := "up \"now\" " ++ joinWith " " (items.map Item.text)
    line = "up \"now\" msg=\"a=\\\"b\\\\\\\" \\\\\" a.b-c=1e3 _ok=TRUE x=k=v" ∧
      IsLead "up \"now\" " ∧ (∀ i ∈ items, i.Writable) ∧ (items.map Item.key).Nodup ∧
      (fieldsOf line).entries.Perm [("msg", .text "a=\"b\\\" \\"),
        ("a.b-c", .number (Binary64.ofNat 1000)), ("_ok", .bool true), ("x", .text "k=v")] := by
  intro items line
  have hlead : IsLead "up \"now\" " := ⟨by decide +kernel, by decide +kernel⟩
  have hitems : ∀ i ∈ items, i.Writable := by
    simp only [items, List.forall_mem_cons]
    have hmem : ∀ {p : Char → Bool} {cs : List Char}, cs.all p = true → ∀ c ∈ cs, p c = true :=
      List.all_eq_true.mp
    exact ⟨⟨⟨by decide, hmem (by decide +kernel)⟩, trivial⟩,
      ⟨⟨by decide, hmem (by decide +kernel)⟩, by decide, hmem (by decide +kernel)⟩,
      ⟨⟨by decide, hmem (by decide +kernel)⟩, by decide, hmem (by decide +kernel)⟩,
      ⟨⟨by decide, hmem (by decide +kernel)⟩, by decide, hmem (by decide +kernel)⟩,
      List.forall_mem_nil _⟩
  have hkeys : (items.map Item.key).Nodup := by decide
  have hmeaning : (items.map fun i => (i.key, i.value.meaning)) =
      [("msg", .text "a=\"b\\\" \\"), ("a.b-c", .number (Binary64.ofNat 1000)),
        ("_ok", .bool true), ("x", .text "k=v")] := by
    decide +kernel
  refine ⟨by decide +kernel, hlead, hitems, hkeys, ?_⟩
  rw [← hmeaning]
  exact fieldsOf_rendered hlead hitems hkeys

end KeyValue
end LogLens
