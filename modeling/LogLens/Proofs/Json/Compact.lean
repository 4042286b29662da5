/-
Compact JSON texts.

A value is written on one line: line feeds inside texts are escaped, and nothing else writes one
(`newline_notMem_compact`).  The text of an object begins and ends with its own braces, whatever its
members hold.
-/
import Mathlib
import LogLens.Json

namespace LogLens

/-! ## Numbers -/

theorem newline_notMem_toString_nat (n : Nat) : '\n' ∉ (toString n).toList := by
  intro hmem
  have hdigits : (toString n).toList = Nat.toDigits 10 n := by simp
  rw [hdigits] at hmem
  exact absurd (Nat.isDigit_of_mem_toDigits (by decide) (by decide) hmem) (by decide)

theorem newline_notMem_toString_int (n : Int) : '\n' ∉ (toString n).toList := by
  cases n with
  | ofNat n => exact newline_notMem_toString_nat n
  | negSucc n =>
    have hsign : (toString (Int.negSucc n)).toList = '-' :: (toString (n + 1)).toList := by
      simp [toString, Int.repr]
    rw [hsign, List.mem_cons]
    rintro (h | h)
    · exact absurd h (by decide)
    · exact newline_notMem_toString_nat (n + 1) h

namespace Notation

theorem newline_notMem_zeros (n : Nat) : '\n' ∉ (zeros n).toList := by
  rw [zeros, String.toList_ofList]
  intro hmem
  exact absurd (List.eq_of_mem_replicate hmem) (by decide)

theorem newline_notMem_signText (negative : Bool) : '\n' ∉ (signText negative).toList := by
  cases negative <;> decide

theorem newline_notMem_positional (d : Decimal) : '\n' ∉ (positional d).toList := by
  have hdigits := newline_notMem_toString_nat d.digits
  unfold positional
  dsimp only
  split
  · simp only [String.toList_append, List.mem_append, not_or]
    exact ⟨hdigits, newline_notMem_zeros _⟩
  · split
    · simp only [String.toList_append, String.toList_ofList, List.mem_append, not_or]
      exact ⟨⟨fun h => hdigits (List.mem_of_mem_take h), by decide⟩,
        fun h => hdigits (List.mem_of_mem_drop h)⟩
    · simp only [String.toList_append, List.mem_append, not_or]
      exact ⟨⟨by decide, newline_notMem_zeros _⟩, hdigits⟩

theorem newline_notMem_scientific (d : Decimal) : '\n' ∉ (scientific d).toList := by
  have hdigits := newline_notMem_toString_nat d.digits
  unfold scientific
  simp only [String.toList_append, String.toList_ofList, List.mem_append, not_or]
  refine ⟨⟨⟨⟨fun h => hdigits (List.mem_of_mem_take h), ?_⟩, by decide⟩, ?_⟩,
    newline_notMem_toString_nat _⟩
  · split
    · decide
    · simp only [String.toList_append, String.toList_ofList, List.mem_append, not_or]
      exact ⟨by decide, fun h => hdigits (List.mem_of_mem_drop h)⟩
  · split <;> decide

theorem newline_notMem_json (x : Binary64) : '\n' ∉ (json x).toList := by
  cases x with
  | nan => decide
  | value negative rank =>
    have hsign := newline_notMem_signText negative
    unfold json
    dsimp only
    split
    · simp only [String.toList_append, List.mem_append, not_or]
      exact ⟨hsign, by decide⟩
    split
    · rw [String.toList_append, List.mem_append, not_or]
      refine ⟨hsign, ?_⟩
      split
      · split
        · simp only [String.toList_append, List.mem_append, not_or]
          exact ⟨newline_notMem_positional _, by decide⟩
        · exact newline_notMem_positional _
      · exact newline_notMem_scientific _
    · decide

end Notation

namespace Json

/-! ## Texts and values -/

theorem newline_notMem_printChar (c : Char) : '\n' ∉ printChar c := by
  have hhex : ∀ n, n < 16 → hexDigit n ≠ '\n' := by decide
  unfold printChar
  split_ifs with _ _ hfeed _ _ _ _ hcontrol
  all_goals try decide
  · have h := hhex (c.toNat / 16) (by omega)
    have h' := hhex (c.toNat % 16) (by omega)
    simp [h.symm, h'.symm]
  · simpa using fun h => hfeed h.symm

theorem newline_notMem_printText (s : String) : '\n' ∉ (printText s).toList := by
  rw [printText, String.toList_ofList]
  simp [newline_notMem_printChar]

theorem newline_notMem_print (n : JsonNumber) : '\n' ∉ n.print.toList := by
  cases n with
  | integer n => exact newline_notMem_toString_int n
  | real x => exact Notation.newline_notMem_json x

mutual

/-- A value is written on one line. -/
theorem newline_notMem_compact : ∀ j : Json, '\n' ∉ (compact j).toList
  | .null => by decide
  | .bool b => by cases b <;> decide
  | .number n => newline_notMem_print n
  | .text s => newline_notMem_printText s
  | .array items => by
    have h := newline_notMem_compactItems items
    simp [compact, h]
  | .object members => by
    have h := newline_notMem_compactMembers members
    simp [compact, h]

theorem newline_notMem_compactItems : ∀ items : List Json, '\n' ∉ (compactItems items).toList
  | [] => by decide
  | [j] => newline_notMem_compact j
  | j :: j' :: rest => by
    have h := newline_notMem_compact j
    have h' := newline_notMem_compactItems (j' :: rest)
    simp [compactItems, h, h']

theorem newline_notMem_compactMember : ∀ m : String × Json, '\n' ∉ (compactMember m).toList
  | (name, j) => by
    have h := newline_notMem_printText name
    have h' := newline_notMem_compact j
    simp [compactMember, h, h']

theorem newline_notMem_compactMembers :
    ∀ members : List (String × Json), '\n' ∉ (compactMembers members).toList
  | [] => by decide
  | [m] => newline_notMem_compactMember m
  | m :: m' :: rest => by
    have h := newline_notMem_compactMember m
    have h' := newline_notMem_compactMembers (m' :: rest)
    simp [compactMembers, h, h']

end

/-- An object stands between its own braces. -/
theorem toList_compact_object (members : List (String × Json)) :
    (compact (.object members)).toList =
      '\x7b' :: ((compactMembers members).toList ++ ['\x7d']) := by
  simp [compact]

end Json
end LogLens
