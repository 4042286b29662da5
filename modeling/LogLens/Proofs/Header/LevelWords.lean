/-
Level words at the start of a text.

A spelling of a level word may begin with a shorter one, as `Warning` does with `warn`.  The whole
spelling is preferred: longer words come first, and what a shorter one leaves begins with a letter
(`prefers_levelWord`).
-/
import LogLens.Proofs.Text.Pattern
import LogLens.Header

namespace LogLens
namespace Header

open Pattern

/-- The characters are those of a level word, in any case. -/
def IsLevelWord (k : List Char) : Prop := ∃ w ∈ levelWords, k.map Char.toUpper = w.toList

instance (k : List Char) : Decidable (IsLevelWord k) :=
  inferInstanceAs (Decidable (∃ w ∈ levelWords, k.map Char.toUpper = w.toList))

/-- The character is no letter of a level word. -/
def endsWord (c : Char) : Bool :=
  levelWords.all fun w => w.toList.all fun a => !sameLetter a c

theorem sameLetter_of_endsWord {c : Char} (h : endsWord c = true) :
    ∀ w ∈ levelWords, ∀ a ∈ w.toList, sameLetter a c = false := by
  intro w hw a ha
  have hnot := List.all_eq_true.mp (List.all_eq_true.mp h w hw) a ha
  rwa [Bool.not_eq_true'] at hnot

/-! ## Letters -/

/-- What sets a letter apart from whatever else a header is made of. -/
structure Letter (c : Char) : Prop where
  blank : isBlank c = false
  digit : isAnyDigit c = false
  mark : c ∉ ['[', ']', '\x7b']

theorem letter_of_isAlpha {c : Char} (h : c.isAlpha = true) : Letter c := by
  have hascii : ∀ n < 128, (Char.ofNat n).isAlpha = true →
      isBlank (Char.ofNat n) = false ∧ isAnyDigit (Char.ofNat n) = false ∧
        Char.ofNat n ∉ ['[', ']', '\x7b'] := by decide +kernel
  have hlt : c.toNat < 128 := by
    simp only [Char.isAlpha, Char.isUpper, Char.isLower, Bool.or_eq_true, Bool.and_eq_true,
      decide_eq_true_eq, ge_iff_le, UInt32.le_iff_toNat_le] at h
    have hz : 'z'.val.toNat = 122 := rfl
    have hZ : 'Z'.val.toNat = 90 := rfl
    show c.val.toNat < 128
    omega
  obtain ⟨hblank, hdigit, hmark⟩ := hascii c.toNat hlt (by rwa [Char.ofNat_toNat])
  rw [Char.ofNat_toNat] at hblank hdigit hmark
  exact ⟨hblank, hdigit, hmark⟩

theorem isAlpha_of_toUpper_mem {k w : List Char} (hk : k.map Char.toUpper = w)
    (hw : ∀ a ∈ w, a.isUpper = true) : ∀ c ∈ k, c.isAlpha = true := by
  intro c hc
  rw [← Char.isUpper_toUpper_eq_isAlpha]
  exact hw _ (hk ▸ List.mem_map_of_mem hc)

theorem isUpper_of_mem_levelWords : ∀ w ∈ levelWords, ∀ a ∈ w.toList, a.isUpper = true := by
  have hall : (levelWords.all fun w => w.toList.all Char.isUpper) = true := by decide +kernel
  exact fun w hw => List.all_eq_true.mp (List.all_eq_true.mp hall w hw)

theorem IsLevelWord.letters {k : List Char} (h : IsLevelWord k) : ∀ c ∈ k, Letter c := by
  obtain ⟨w, hw, hk⟩ := h
  have halpha := isAlpha_of_toUpper_mem hk (isUpper_of_mem_levelWords w hw)
  exact fun c hc => letter_of_isAlpha (halpha c hc)

theorem IsLevelWord.exists_cons {k : List Char} (h : IsLevelWord k) :
    ∃ c cs, k = c :: cs ∧ Letter c := by
  have hletters := h.letters
  obtain ⟨w, hw, hk⟩ := h
  cases k with
  | nil =>
    have hne : ∀ w ∈ levelWords, w.toList ≠ [] := by decide
    exact absurd hk.symm (hne w hw)
  | cons c cs => exact ⟨c, cs, rfl, hletters c List.mem_cons_self⟩

/-- Only one letter besides those of ASCII is taken for one of them. -/
theorem sameLetter_of_isAlpha {a c : Char} (h : c.isAlpha = true) :
    sameLetter a c = (c.toUpper == a) := by
  have hlong : c ≠ '\u017F' := by
    rintro rfl
    exact absurd h (by decide)
  rw [sameLetter, beq_eq_false_iff_ne.mpr hlong, Bool.and_false, Bool.or_false]

/-! ## Words -/

/-- A word matches a spelling when it is the start of what is spelled. -/
theorem word_append {k spelled : List Char} (hk : k.map Char.toUpper = spelled)
    (hspelled : ∀ a ∈ spelled, a.isUpper = true) {w : List Char} {c : Char}
    (hc : ∀ a ∈ w, sameLetter a c = false) (rest : List Char) :
    word w (k ++ c :: rest) =
      if w.isPrefixOf spelled then [k.drop w.length ++ c :: rest] else [] := by
  induction w generalizing k spelled with
  | nil => simp [word]
  | cons a w ih =>
    subst hk
    cases k with
    | nil =>
      rw [List.nil_append, word, one_of_neg (hc a List.mem_cons_self), List.flatMap_nil]
      rfl
    | cons x k =>
      have hx := isAlpha_of_toUpper_mem rfl hspelled x List.mem_cons_self
      rw [List.cons_append, word, List.map_cons, List.isPrefixOf_cons_cons, List.length_cons,
        List.drop_succ_cons]
      by_cases hsame : a = x.toUpper
      · subst hsame
        rw [one_of_pos (by rw [sameLetter_of_isAlpha hx, beq_self_eq_true]),
          List.flatMap_singleton, beq_self_eq_true, Bool.true_and]
        exact ih rfl (fun b hb => hspelled b (List.mem_cons_of_mem _ hb))
          fun b hb => hc b (List.mem_cons_of_mem _ hb)
      · rw [one_of_neg (by rw [sameLetter_of_isAlpha hx, beq_eq_false_iff_ne]; exact Ne.symm hsame),
          beq_eq_false_iff_ne.mpr hsame, Bool.false_and]
        rfl

theorem flatMap_ite_singleton {α β : Type} (p : α → Bool) (f : α → β) (l : List α) :
    (l.flatMap fun a => if p a then [f a] else []) = (l.filter p).map f := by
  induction l with
  | nil => rfl
  | cons a l ih =>
    rw [List.flatMap_cons, ih, List.filter_cons]
    split <;> rfl

theorem levelWord_append {k : List Char} {spelled : List Char} (hk : k.map Char.toUpper = spelled)
    (hspelled : ∀ a ∈ spelled, a.isUpper = true) {c : Char} (hc : endsWord c = true)
    (rest : List Char) : levelWord (k ++ c :: rest) =
      (levelWords.filter fun w => w.toList.isPrefixOf spelled).map fun w =>
        k.drop w.toList.length ++ c :: rest := by
  rw [← flatMap_ite_singleton, levelWord, anyOf, List.flatMap_map]
  exact List.flatMap_congr fun w hw => word_append hk hspelled (sameLetter_of_endsWord hc w hw) rest

/-- The whole spelling is preferred. -/
theorem prefers_levelWord {k : List Char} (h : IsLevelWord k) {c : Char} (hc : endsWord c = true)
    (rest : List Char) : Prefers (levelWord (k ++ c :: rest)) (c :: rest) Letter := by
  have hletters := h.letters
  obtain ⟨spelled, hmem, hk⟩ := h
  have hlongest : ∀ s ∈ levelWords,
      (levelWords.filter fun w => w.toList.isPrefixOf s.toList).head? = some s ∧
      ∀ w ∈ (levelWords.filter fun w => w.toList.isPrefixOf s.toList).tail,
        w.toList.length < s.toList.length := by decide
  obtain ⟨hhead, htail⟩ := hlongest spelled hmem
  rw [levelWord_append hk (isUpper_of_mem_levelWords spelled hmem) hc]
  cases hwords : levelWords.filter fun w => w.toList.isPrefixOf spelled.toList with
  | nil =>
    rw [hwords] at hhead
    cases hhead
  | cons w shorter =>
    rw [hwords] at hhead htail
    obtain rfl := Option.some.inj hhead
    have hlength : k.length = w.toList.length := by rw [← hk, List.length_map]
    refine ⟨shorter.map fun w => k.drop w.toList.length ++ c :: rest, ?_, fun other hother => ?_⟩
    · rw [List.map_cons, List.drop_of_length_le hlength.le, List.nil_append]
    · obtain ⟨v, hv, rfl⟩ := List.mem_map.mp hother
      have hlt := htail v hv
      rw [List.drop_eq_getElem_cons (hlength ▸ hlt), List.cons_append]
      exact ⟨_, _, rfl, hletters _ (List.getElem_mem _)⟩

theorem levelWord_of_endsWord {c : Char} (hc : endsWord c = true) (rest : List Char) :
    levelWord (c :: rest) = [] := by
  have hnone : levelWords.filter (fun w => w.toList.isPrefixOf []) = [] := by decide
  have h := levelWord_append (List.map_nil) (List.forall_mem_nil _) hc rest
  rwa [hnone] at h

end Header
end LogLens
