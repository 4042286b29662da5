/-
Identifiers are read as they are written.

The digits of a number denote it up to the power of sixteen that they have room for, and cutting
digits into groups is undone by leaving out the hyphens.
-/
import Mathlib
import LogLens.Codec.Identifier

namespace LogLens

open Json.Reader

theorem hexValue?_hexDigit : ∀ d < 16, hexValue? (Json.hexDigit d) = some d := by
  decide

theorem hexNumber?_concat (cs : List Char) (c : Char) : hexNumber? (cs ++ [c]) =
    (hexNumber? cs).bind fun n => (hexValue? c).map (16 * n + ·) := by
  rw [hexNumber?, List.foldlM_append]
  simp [hexNumber?]

namespace RecordId

theorem length_hexDigits (count n : Nat) : (hexDigits count n).length = count := by
  induction count generalizing n with
  | zero => rfl
  | succ count ih => rw [hexDigits, List.length_append, ih, List.length_singleton]

theorem hexNumber?_hexDigits (count n : Nat) :
    hexNumber? (hexDigits count n) = some (n % 16 ^ count) := by
  induction count generalizing n with
  | zero => simp [hexDigits, hexNumber?, Nat.mod_one]
  | succ count ih =>
    rw [hexDigits, hexNumber?_concat, ih, Option.bind_some,
      hexValue?_hexDigit _ (Nat.mod_lt _ (by decide)), Option.map_some, pow_succ', Nat.mod_mul,
      Nat.add_comm]

theorem length_hyphenated {groups : List Nat} {ds : List Char} (hne : groups ≠ [])
    (h : ds.length = groups.sum) :
    (hyphenated groups ds).length + 1 = ds.length + groups.length := by
  induction groups generalizing ds with
  | nil => exact absurd rfl hne
  | cons n rest ih =>
    cases rest with
    | nil => simp_all [hyphenated]
    | cons m rest =>
      rw [List.sum_cons] at h
      have hbehind : (ds.drop n).length = (m :: rest).sum := by
        rw [List.length_drop]
        omega
      have hrest := ih (List.cons_ne_nil _ _) hbehind
      simp only [hyphenated, List.length_append, List.length_take, List.length_cons,
        List.length_drop] at hrest ⊢
      omega

theorem withoutHyphens?_hyphenated {groups : List Nat} {ds : List Char} (hne : groups ≠ [])
    (h : ds.length = groups.sum) : withoutHyphens? groups (hyphenated groups ds) = some ds := by
  induction groups generalizing ds with
  | nil => exact absurd rfl hne
  | cons n rest ih =>
    cases rest with
    | nil => simp_all [hyphenated, withoutHyphens?]
    | cons m rest =>
      rw [List.sum_cons] at h
      have hbehind : (ds.drop n).length = (m :: rest).sum := by
        rw [List.length_drop]
        omega
      have hrest := ih (List.cons_ne_nil _ _) hbehind
      have hn : (ds.take n).length = n := by
        rw [List.length_take]
        omega
      rw [hyphenated, withoutHyphens?, List.drop_left' hn, List.take_left' hn]
      · simp only [hrest, Option.map_some, List.take_append_drop]
      all_goals exact List.cons_ne_nil _ _

/-- An identifier is read as it is written. -/
theorem ofText?_text (id : RecordId) : ofText? id.text = some id := by
  have hlength : (hexDigits 32 id.val).length = groups.sum := length_hexDigits 32 id.val
  have htext : (hyphenated groups (hexDigits 32 id.val)).length = 36 := by
    have hcount := length_hyphenated (by decide) hlength
    rw [length_hexDigits] at hcount
    exact Nat.succ.inj hcount
  have hdigits : digits? id.text.toList = some (hexDigits 32 id.val) := by
    rw [text, String.toList_ofList, digits?, htext, if_neg (by decide), if_pos rfl]
    exact withoutHyphens?_hyphenated (by decide) hlength
  have hvalue : id.val % 16 ^ 32 = id.val := Nat.mod_eq_of_lt id.isLt
  rw [ofText?, hdigits]
  simp only [Option.bind_eq_bind, Option.bind_some, hexNumber?_hexDigits, hvalue]
  exact dif_pos id.isLt

end RecordId
end LogLens
