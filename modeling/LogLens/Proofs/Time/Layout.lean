/-
Layouts read the numbers that are written.

A number padded to a width is as many digits as the width says, and they denote it.  So the items
of a layout, strict or not, take such a number, a single character or a fraction off the front of a
text and leave the rest.
-/
import LogLens.Proofs.Text.Trim
import LogLens.Time.Layout
import LogLens.Time.Written

namespace LogLens

/-! ## Digits -/

theorem isAnyDigit_of_isDigit {c : Char} (h : isDigit c = true) : isAnyDigit c = true := by
  rw [isAnyDigit, h, Bool.true_or]

theorem ne_of_isDigit {c d : Char} (h : isDigit c = true) (hd : isDigit d = false) : c ≠ d := by
  rintro rfl
  rw [h] at hd
  cases hd

theorem isBlank_of_isDigit {c : Char} (h : isDigit c = true) : isBlank c = false := by
  obtain ⟨hlow, hhigh⟩ : 48 ≤ c.toNat ∧ c.toNat ≤ 57 := by
    rw [isDigit, Bool.and_eq_true, decide_eq_true_eq, decide_eq_true_eq] at h
    exact h
  simp [isBlank]
  omega

/-! ## Numbers of a fixed width -/

theorem digitsValue_eq (cs : List Char) : digitsValue cs = Nat.ofDigitChars 10 cs 0 := rfl

theorem digitsValue_append (a b : List Char) :
    digitsValue (a ++ b) = 10 ^ b.length * digitsValue a + digitsValue b := by
  rw [digitsValue_eq, Nat.ofDigitChars_append, Nat.ofDigitChars_eq_ofDigitChars_zero]
  rfl

theorem toList_padded (width n : Nat) : (Instant.padded width n).toList =
    List.replicate (width - (Nat.toDigits 10 n).length) '0' ++ Nat.toDigits 10 n := by
  simp [Instant.padded, String.length]

theorem isDigit_of_mem_padded {width n : Nat} :
    ∀ c ∈ (Instant.padded width n).toList, isDigit c = true := by
  intro c hc
  rw [toList_padded] at hc
  rcases List.mem_append.mp hc with hc | hc
  · rw [(List.mem_replicate.mp hc).2]
    decide
  · have hdigit := Nat.isDigit_of_mem_toDigits (by decide) (by decide) hc
    exact hdigit

theorem comma_notMem_padded (width n : Nat) : ',' ∉ (Instant.padded width n).toList :=
  fun h => absurd (isDigit_of_mem_padded ',' h) (by decide)

theorem digitsValue_padded (width n : Nat) :
    digitsValue (Instant.padded width n).toList = n := by
  rw [toList_padded, digitsValue_eq, Nat.ofDigitChars_append, Nat.ofDigitChars_replicate_zero,
    Nat.mul_zero, Nat.ofDigitChars_ten_toDigits]

theorem padded_ne_nil (width n : Nat) : (Instant.padded width n).toList ≠ [] := by
  simp [toList_padded]

theorem length_padded {width n : Nat} (hwidth : 0 < width) (h : n < 10 ^ width) :
    (Instant.padded width n).toList.length = width := by
  have hlength := (Nat.length_toDigits_le_iff (by decide) hwidth).mpr h
  rw [toList_padded, List.length_append, List.length_replicate]
  omega

theorem padded_one (n : Nat) : Instant.padded 1 n = toString n := by
  have hpos : 0 < (Nat.toDigits 10 n).length := Nat.length_toDigits_pos
  have hzeros : 1 - (toString n).length = 0 := by
    rw [String.length, Nat.toString_eq_repr, Nat.toList_repr]
    omega
  rw [Instant.padded]
  simp only [hzeros, List.replicate_zero, String.ofList_nil, String.empty_append]

/-! ## Names of months -/

/-- The abbreviation of a month. -/
def monthName (month : Nat) : List Char := (monthNames.getD (month - 1) "").toList

/-- A capital and two small letters, by which the month is found. -/
theorem exists_monthName {month : Nat} (h : 1 ≤ month ∧ month ≤ 12) :
    ∃ a b c, monthName month = [a, b, c] ∧ a.isUpper = true ∧ b.isLower = true ∧
      c.isLower = true ∧ monthNames.findIdx? (·.toList == [a, b, c]) = some (month - 1) ∧
      monthNames.findIdx? (fun name => equalsIgnoringCase name.toList [a, b, c]) =
        some (month - 1) := by
  obtain ⟨hlow, hhigh⟩ := h
  interval_cases month <;> exact ⟨_, _, _, rfl, rfl, rfl, rfl, by decide, by decide⟩

theorem comma_notMem_monthName {month : Nat} (h : 1 ≤ month ∧ month ≤ 12) :
    ',' ∉ monthName month := by
  obtain ⟨a, b, c, hname, ha, hb, hc, -⟩ := exists_monthName h
  rw [hname]
  simp only [List.mem_cons, List.not_mem_nil, or_false]
  rintro (rfl | rfl | rfl)
  · cases ha
  · cases hb
  · cases hc

namespace Layout

/-! ## Items of a layout -/

section Items

variable {r : Reading} {rest : List Char}

theorem digits?_append (rest : List Char) {width : Nat} {ds : List Char} (hne : ds ≠ [])
    (hds : ∀ c ∈ ds, isDigit c = true) (hlength : ds.length ≤ width)
    (hrest : ds.length = width ∨ ∀ c ∈ rest.head?, isDigit c = false) :
    digits? width (ds ++ rest) = some (ds, rest) := by
  have hstop : (rest.take (width - ds.length)).takeWhile isDigit = [] := by
    rcases hrest with hrest | hrest
    · simp [hrest]
    · cases rest with
      | nil => simp
      | cons c rest => cases width - ds.length <;> simp [hrest c rfl]
  have hfound : ((ds ++ rest).take width).takeWhile isDigit = ds := by
    rw [List.take_append, List.take_of_length_le hlength, List.takeWhile_append_of_pos hds, hstop,
      List.append_nil]
  rw [digits?, hfound]
  simp [hne]

theorem digits?_padded {width n : Nat} (hwidth : 0 < width) (hn : n < 10 ^ width) :
    digits? width ((Instant.padded width n).toList ++ rest) =
      some ((Instant.padded width n).toList, rest) :=
  have hlength := length_padded hwidth hn
  digits?_append rest (padded_ne_nil width n) isDigit_of_mem_padded hlength.le (Or.inl hlength)

theorem strict?_padded {part : Part} {n : Nat} (hn : n < 10 ^ part.width) :
    strict? part r ((Instant.padded part.width n).toList ++ rest) =
      (r.set? part n).map fun r => (r, rest) := by
  have hwidth : 0 < part.width := by cases part <;> decide
  rw [strict?, digits?_padded hwidth hn]
  simp only [Option.bind_eq_bind, Option.bind_some, length_padded hwidth hn, if_true,
    digitsValue_padded]
  cases r.set? part n <;> rfl

/-- A run of digits is a number, as far as the part has room for it. -/
theorem number?_digits {part : Part} {ds : List Char} (hne : ds ≠ [])
    (hds : ∀ c ∈ ds, isDigit c = true) (hlength : ds.length ≤ part.width)
    (hrest : ds.length = part.width ∨ ∀ c ∈ rest.head?, isDigit c = false) :
    number? part r (ds ++ rest) = (r.set? part (digitsValue ds)).map fun r => (r, rest) := by
  have htrim : trimStart (ds ++ rest) = ds ++ rest :=
    dropWhile_append_of_neg hne
      (fun c hc => isBlank_of_isDigit (hds c (List.mem_of_mem_head? hc))) rest
  have hsign : ∀ {c tail}, ds ++ rest = c :: tail → isDigit c = true := by
    intro c tail htail
    obtain ⟨d, ds, rfl⟩ := List.exists_cons_of_ne_nil hne
    obtain ⟨rfl, -⟩ := List.cons.inj htail
    exact hds d List.mem_cons_self
  rw [number?]
  · rw [htrim, digits?_append rest hne hds hlength hrest]
    simp only [Option.bind_eq_bind, Option.bind_some]
    cases r.set? part (digitsValue ds) <;> rfl
  -- A digit is no sign.
  all_goals
    intro tail _ htail
    exact absurd (hsign (htrim ▸ htail)) (by decide)

theorem number?_padded {part : Part} {n : Nat} (hn : n < 10 ^ part.width) :
    number? part r ((Instant.padded part.width n).toList ++ rest) =
      (r.set? part n).map fun r => (r, rest) := by
  have hwidth : 0 < part.width := by cases part <;> decide
  have hlength := length_padded hwidth hn
  rw [number?_digits (padded_ne_nil _ _) isDigit_of_mem_padded hlength.le (Or.inl hlength),
    digitsValue_padded]

theorem read?_oneOf {chars : List Char} {c : Char} (hc : c ∈ chars) :
    (Item.oneOf chars).read? r (c :: rest) = some (r, rest) := by
  simp [Item.read?, hc]

theorem nanosOf_eq (ds : List Char) : nanosOf ds = digitsValue ds * 10 ^ (9 - ds.length) := by
  have hzeros : digitsValue (List.replicate (9 - ds.length) '0') = 0 := by
    rw [digitsValue_eq, Nat.ofDigitChars_replicate_zero, Nat.mul_zero]
  rw [nanosOf, digitsValue_append, hzeros, List.length_replicate, Nat.add_zero, Nat.mul_comm]

/-- Digits behind a point are parts of a second. -/
theorem read?_fraction_digits {ds : List Char} (hne : ds ≠ []) (hds : ∀ c ∈ ds, isDigit c = true)
    (hlength : ds.length ≤ 9) (hrest : ∀ c ∈ rest.head?, isDigit c = false) :
    Item.fraction.read? r ('.' :: (ds ++ rest)) =
      some ({ r with nanos := digitsValue ds * 10 ^ (9 - ds.length) }, rest) := by
  have hbehind : rest.dropWhile isDigit = rest := by
    cases rest with
    | nil => rfl
    | cons c rest => simp [hrest c rfl]
  rw [Item.read?, fraction?, digits?_append rest hne hds hlength (Or.inr hrest), Option.map_some]
  simp only [nanosOf_eq, hbehind]

/-- Three digits behind a point are thousandths. -/
theorem read?_fraction {ms : Nat} (hms : ms < 1000) (hrest : ∀ c ∈ rest.head?, isDigit c = false) :
    Item.fraction.read? r ('.' :: ((Instant.padded 3 ms).toList ++ rest)) =
      some ({ r with nanos := ms * 1000000 }, rest) := by
  have hlength := length_padded (by decide : 0 < 3) hms
  have hscale : 10 ^ (9 - 3) = 1000000 := rfl
  rw [read?_fraction_digits (padded_ne_nil 3 ms) isDigit_of_mem_padded (by rw [hlength]; decide)
    hrest, hlength, digitsValue_padded, hscale]

end Items

end Layout
end LogLens
