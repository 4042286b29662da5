/-
Lower case of what is in lower case.

The capitals are listed in runs, and the images of a run stand among the small letters: no run
covers an image (`misses_runs`), and every image is alphabetic (`smallLetters_runs`).  Both facts are
about more than a thousand characters and are settled for whole runs at a time.  So the lower case of
a text is made of characters that have no other (`ofChar_of_mem_chars`), and letters and numbers
become letters and numbers (`isAlphanumeric_of_mem_ofChar`).  One character is an exception to the
latter: the dotted capital I becomes a small i and a mark.
-/
import Mathlib
import LogLens.Text.CharClass
import LogLens.Text.Lowercase

namespace LogLens
namespace Lowercase

/-! ## Images of a run -/

namespace Run

def lastImage (r : Run) : Nat := r.image + (r.last - r.first)

/-- No image of the run `r` is covered by the run `r'`: they lie apart, or one is in the even places
and the other in the odd ones. -/
def misses (r r' : Run) : Bool :=
  Nat.blt r'.last r.image || Nat.blt r.lastImage r'.first ||
    ((r.stride == 2 || r.first == r.last) && r'.stride == 2 && (r.image + r'.first) % 2 == 1)

/-- The images are characters outside ASCII, all of them alphabetic, and the dotted capital I is not
among them. -/
def smallLetters (r : Run) : Bool :=
  Nat.ble 0x80 r.image && (Nat.blt r.lastImage 0x130 || Nat.blt 0x130 r.image) &&
    (Nat.blt r.lastImage 0xD800 || Nat.blt 0xDFFF r.image && Nat.blt r.lastImage 0x110000) &&
    CharSet.alphabetic.ranges.any fun range =>
      Nat.ble range.1 r.image && Nat.ble r.lastImage range.2

variable {r : Run} {n : Nat}

theorem covers_iff :
    r.covers n = true ↔ r.first ≤ n ∧ n ≤ r.last ∧ (n - r.first) % r.stride = 0 := by
  simp [covers, and_assoc]

theorem covers_of_misses {r' : Run} (h : r.misses r' = true) (hn : r.covers n = true) :
    r'.covers (r.image + (n - r.first)) = false := by
  rw [Bool.eq_false_iff]
  intro hcovers
  obtain ⟨hfirst, hlast, hstride⟩ := covers_iff.mp hn
  obtain ⟨hfirst', hlast', hstride'⟩ := covers_iff.mp hcovers
  simp only [misses, lastImage, Bool.or_eq_true, Bool.and_eq_true, Nat.blt_eq, beq_iff_eq] at h
  rcases h with (h | h) | ⟨⟨hr, hr'⟩, hodd⟩
  · omega
  · omega
  · have heven : (n - r.first) % 2 = 0 := by
      rcases hr with hr | hr
      · rwa [hr] at hstride
      · rw [hr, Nat.sub_eq_zero_of_le hlast]
    rw [hr'] at hstride'
    omega

/-- The image of the character with the number `n`. -/
def imageOf (r : Run) (n : Nat) : Char := Char.ofNat (r.image + (n - r.first))

theorem imageOf_of_smallLetters (h : r.smallLetters = true) (hn : r.covers n = true) :
    (r.imageOf n).toNat = r.image + (n - r.first) ∧ 0x80 ≤ r.image + (n - r.first) ∧
      r.image + (n - r.first) ≠ 0x130 ∧ CharSet.alphabetic.contains (r.imageOf n) = true := by
  obtain ⟨hfirst, hlast, -⟩ := covers_iff.mp hn
  simp only [smallLetters, lastImage, Bool.and_eq_true, Bool.or_eq_true, Nat.blt_eq, Nat.ble_eq,
    List.any_eq_true] at h
  obtain ⟨⟨⟨hsmall, hdotted⟩, hvalid⟩, range, hrange, hlow, hhigh⟩ := h
  have hnumber : (r.imageOf n).toNat = r.image + (n - r.first) := by
    have hchar : (r.image + (n - r.first)).isValidChar := by
      unfold Nat.isValidChar
      omega
    rw [imageOf, Char.toNat_ofNat, if_pos hchar]
  refine ⟨hnumber, by omega, by omega, ?_⟩
  rw [CharSet.contains, List.any_eq_true]
  refine ⟨range, hrange, ?_⟩
  rw [hnumber, Bool.and_eq_true, decide_eq_true_eq, decide_eq_true_eq]
  omega

end Run

theorem misses_runs : (runs.all fun r => runs.all fun r' => r.misses r') = true := by
  decide +kernel

/-- Only the Kelvin sign, a run of its own, has its lower case in ASCII. -/
theorem smallLetters_runs :
    (runs.all fun r => r.smallLetters || (r.image == 0x6B && r.first == r.last)) = true := by
  decide +kernel

/-- An image is in lower case, and it is a letter. -/
theorem ofChar_imageOf {r : Run} (hr : r ∈ runs) {n : Nat} (hn : r.covers n = true) :
    ofChar (r.imageOf n) = [r.imageOf n] ∧ isAlphanumeric (r.imageOf n) = true := by
  rcases Bool.or_eq_true_iff.mp (List.all_eq_true.mp smallLetters_runs r hr) with hsmall | hkelvin
  · obtain ⟨hnumber, hbehind, hdotted, halphabetic⟩ := Run.imageOf_of_smallLetters hsmall hn
    have hmisses := List.all_eq_true.mp (List.all_eq_true.mp misses_runs r hr)
    have hnone : runs.find? (·.covers (r.imageOf n).toNat) = none := by
      refine List.find?_eq_none.mpr fun r' hr' => ?_
      rw [hnumber, Run.covers_of_misses (hmisses r' hr') hn]
      exact Bool.false_ne_true
    have hne : r.imageOf n ≠ 'İ' := fun h => hdotted (hnumber.symm.trans (congrArg Char.toNat h))
    refine ⟨?_, by simp [isAlphanumeric, isAlphabetic, halphabetic]⟩
    rw [ofChar, if_neg (by omega), if_neg hne, hnone]
  · obtain ⟨himage, hone⟩ := Bool.and_eq_true_iff.mp hkelvin
    obtain ⟨hfirst, hlast, -⟩ := Run.covers_iff.mp hn
    have hk : r.imageOf n = 'k' := by
      rw [Run.imageOf, eq_of_beq himage,
        Nat.sub_eq_zero_of_le (hlast.trans_eq (eq_of_beq hone).symm)]
    rw [hk]
    exact ⟨by decide, by decide⟩

/-! ## The lower case of one character -/

/-- The ways in which a character has a lower case. -/
theorem ofChar_cases (c : Char) :
    c.toNat < 0x80 ∧ ofChar c = [c.toLower] ∨ c = 'İ' ∧ ofChar c = ['i', '\u0307'] ∨
      (∃ r ∈ runs, r.covers c.toNat = true ∧ ofChar c = [r.imageOf c.toNat]) ∨ ofChar c = [c] := by
  unfold ofChar
  by_cases hascii : c.toNat < 0x80
  · exact Or.inl ⟨hascii, if_pos hascii⟩
  by_cases hdotted : c = 'İ'
  · exact Or.inr (Or.inl ⟨hdotted, by rw [if_neg hascii, if_pos hdotted]⟩)
  rw [if_neg hascii, if_neg hdotted]
  cases hfind : runs.find? (·.covers c.toNat) with
  | none => exact Or.inr (Or.inr (Or.inr rfl))
  | some r =>
    have hcovers := List.find?_some hfind
    exact Or.inr (Or.inr (Or.inl ⟨r, List.mem_of_find?_eq_some hfind, hcovers, rfl⟩))

theorem toNat_toLower_lt {c : Char} (h : c.toNat < 0x80) : c.toLower.toNat < 0x80 := by
  by_cases hupper : c.isUpper
  · have hlower : c.toLower.isLower = true := by
      rw [Char.isLower_toLower_eq_isAlpha, Char.isAlpha, hupper, Bool.true_or]
    simp only [Char.isLower, Bool.and_eq_true, decide_eq_true_eq, UInt32.le_iff_toNat_le] at hlower
    exact lt_of_le_of_lt hlower.2 (by decide)
  · rwa [Char.toLower_eq_of_not_isUpper hupper]

/-- What stands in the lower case of a character is in lower case. -/
theorem ofChar_of_mem_ofChar {c d : Char} (h : d ∈ ofChar c) : ofChar d = [d] := by
  rcases ofChar_cases c with ⟨hascii, hc⟩ | ⟨rfl, hc⟩ | ⟨r, hr, hn, hc⟩ | hc <;> rw [hc] at h
  · obtain rfl := List.mem_singleton.mp h
    rw [ofChar, if_pos (toNat_toLower_lt hascii), Char.toLower_toLower_eq_toLower]
  · rcases List.mem_pair.mp h with rfl | rfl <;> decide +kernel
  · obtain rfl := List.mem_singleton.mp h
    exact (ofChar_imageOf hr hn).1
  · obtain rfl := List.mem_singleton.mp h
    exact hc

theorem isAlphanumeric_toLower {c : Char} (h : isAlphanumeric c = true) :
    isAlphanumeric c.toLower = true := by
  by_cases hupper : c.isUpper
  · have halpha : c.toLower.isAlpha = true := by
      rw [Char.isAlpha_toLower_eq_isAlpha, Char.isAlpha, hupper, Bool.true_or]
    simp [isAlphanumeric, isAlphabetic, halpha]
  · rwa [Char.toLower_eq_of_not_isUpper hupper]

/-- The lower case of a letter or number, but the dotted capital I, is made of letters and
numbers. -/
theorem isAlphanumeric_of_mem_ofChar {c d : Char} (hc : isAlphanumeric c = true) (hne : c ≠ 'İ')
    (h : d ∈ ofChar c) : isAlphanumeric d = true := by
  rcases ofChar_cases c with ⟨hascii, hof⟩ | ⟨rfl, -⟩ | ⟨r, hr, hn, hof⟩ | hof
  · rw [hof, List.mem_singleton] at h
    exact h ▸ isAlphanumeric_toLower hc
  · exact absurd rfl hne
  · rw [hof, List.mem_singleton] at h
    exact h ▸ (ofChar_imageOf hr hn).2
  · rw [hof, List.mem_singleton] at h
    exact h ▸ hc

theorem ofChar_ne_nil (c : Char) : ofChar c ≠ [] := by
  rcases ofChar_cases c with ⟨-, hc⟩ | ⟨-, hc⟩ | ⟨r, -, -, hc⟩ | hc <;> rw [hc] <;>
    exact List.cons_ne_nil _ _

/-! ## The lower case of a text -/

theorem ofChar_sigma : ofChar 'Σ' = ['σ'] := by decide +kernel

/-- A text that is made of small letters alone stays as it is. -/
theorem after_eq_self {cs : List Char} (h : ∀ c ∈ cs, ofChar c = [c]) (before : List Char) :
    after before cs = cs := by
  induction cs generalizing before with
  | nil => rfl
  | cons c cs ih =>
    have hc := h c List.mem_cons_self
    have hsigma : c ≠ 'Σ' := by
      rintro rfl
      rw [ofChar_sigma] at hc
      exact absurd hc (by decide)
    rw [after, if_neg hsigma, hc, ih (fun d hd => h d (List.mem_cons_of_mem c hd))]
    rfl

/-- Where the characters of the lower case come from. -/
theorem mem_after {before cs : List Char} {d : Char} (h : d ∈ after before cs) :
    d = 'ς' ∨ ∃ c ∈ cs, d ∈ ofChar c := by
  induction cs generalizing before with
  | nil => exact absurd h List.not_mem_nil
  | cons c cs ih =>
    rw [after, List.mem_append] at h
    rcases h with h | h
    · split at h
      · rename_i hsigma
        split at h
        · exact Or.inl (List.mem_singleton.mp h)
        · exact Or.inr ⟨c, List.mem_cons_self, by rwa [hsigma, ofChar_sigma]⟩
      · exact Or.inr ⟨c, List.mem_cons_self, h⟩
    · exact (ih h).imp_right fun ⟨c', hc', hd⟩ => ⟨c', List.mem_cons_of_mem c hc', hd⟩

/-- What stands in the lower case of a text is in lower case. -/
theorem ofChar_of_mem_chars {cs : List Char} {d : Char} (h : d ∈ chars cs) : ofChar d = [d] := by
  rcases mem_after h with rfl | ⟨c, -, hd⟩
  · decide +kernel
  · exact ofChar_of_mem_ofChar hd

/-- A character that is not a capital sigma has its lower case in that of the text. -/
theorem mem_after_of_mem {before cs : List Char} {c d : Char} (hc : c ∈ cs) (hsigma : c ≠ 'Σ')
    (hd : d ∈ ofChar c) : d ∈ after before cs := by
  induction cs generalizing before with
  | nil => exact absurd hc List.not_mem_nil
  | cons c' cs ih =>
    rw [after, List.mem_append]
    rcases List.mem_cons.mp hc with rfl | hc
    · rw [if_neg hsigma]
      exact Or.inl hd
    · exact Or.inr (ih hc)

theorem chars_ne_nil {cs : List Char} (h : cs ≠ []) : chars cs ≠ [] := by
  obtain ⟨c, rest, rfl⟩ := List.exists_cons_of_ne_nil h
  rw [chars, after]
  intro hnil
  have hfirst := (List.append_eq_nil_iff.mp hnil).1
  split at hfirst
  · split at hfirst <;> cases hfirst
  · exact ofChar_ne_nil c hfirst

end Lowercase
end LogLens
