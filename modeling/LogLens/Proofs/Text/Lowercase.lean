/-
Lower case of a part and of the whole.

Only the capital sigma has a lower case that depends on the characters around it.  A part whose
sigmas have settled forms, whatever stands around the part, has a lower case that stands in the
lower case of every text with the part (`chars_infix`).  At an end that the part and the text have
in common nothing more can follow, so the form of a sigma needs less to be settled there
(`chars_prefix`, `chars_suffix`).
-/
import Mathlib
import LogLens.Text.Lowercase

namespace LogLens
namespace Lowercase

/-! ## What stands next to a sigma -/

/-- Whether the characters, nearest first, show if a cased one comes first: the first one that
counts is among them, or they go on to a closed end. -/
def knows (isOpen : Bool) (cs : List Char) : Bool :=
  !isOpen || cs.any (!isIgnorable ·)

theorem startsCased_append {isOpen : Bool} {cs more : List Char} (h : knows isOpen cs = true)
    (hclosed : isOpen = false → more = []) : startsCased (cs ++ more) = startsCased cs := by
  rcases Bool.or_eq_true_iff.mp h with hend | hcounts
  · rw [hclosed (by simpa using hend), List.append_nil]
  · have hne : (cs.dropWhile isIgnorable).isEmpty = false := by
      obtain ⟨c, hc, hcount⟩ := List.any_eq_true.mp hcounts
      rw [List.isEmpty_eq_false_iff, ne_eq, List.dropWhile_eq_nil_iff]
      intro hall
      simp [hall c hc] at hcount
    rw [startsCased, startsCased, List.dropWhile_append, if_neg (by simp [hne])]
    cases hdrop : cs.dropWhile isIgnorable with
    | nil => simp [hdrop] at hne
    | cons c rest => rfl

theorem knows_of_startsCased (isOpen : Bool) {cs : List Char} (h : startsCased cs = true) :
    knows isOpen cs = true := by
  rw [startsCased] at h
  refine Bool.or_eq_true_iff.mpr (Or.inr (List.any_eq_true.mpr ?_))
  by_contra hnone
  have hdrop : cs.dropWhile isIgnorable = [] := by
    rw [List.dropWhile_eq_nil_iff]
    intro c hc
    by_contra hcounts
    exact hnone ⟨c, hc, by simp [hcounts]⟩
  rw [hdrop] at h
  exact absurd h (by simp)

/-- A sigma is final that has `before` in front of it, nearest first, and `rest` behind it. -/
def isFinal (before rest : List Char) : Bool := startsCased before && !startsCased rest

/-- Whether the form of a sigma is settled by what a part has in front of it and behind it. -/
def settles (openStart openEnd : Bool) (before rest : List Char) : Bool :=
  (knows openStart before && (!startsCased before || knows openEnd rest)) || startsCased rest

section Parts

variable {openStart openEnd : Bool} {before : List Char}

theorem isFinal_append {rest beyond behind : List Char}
    (h : settles openStart openEnd before rest = true)
    (hstart : openStart = false → beyond = []) (hend : openEnd = false → behind = []) :
    isFinal (before ++ beyond) (rest ++ behind) = isFinal before rest := by
  rw [isFinal, isFinal]
  rcases Bool.or_eq_true_iff.mp h with h | hcased
  · obtain ⟨hbefore, h⟩ := Bool.and_eq_true_iff.mp h
    rw [startsCased_append hbefore hstart]
    rcases Bool.or_eq_true_iff.mp h with huncased | hrest
    · have hno : startsCased before = false := by simpa using huncased
      rw [hno, Bool.false_and, Bool.false_and]
    · rw [startsCased_append hrest hend]
  · rw [startsCased_append (knows_of_startsCased openEnd hcased) hend, hcased, Bool.not_true,
      Bool.and_false, Bool.and_false]

/-! ## Parts of texts -/

/-- Whether every sigma of a part that follows `before` has a settled form. -/
def settledAfter (openStart openEnd : Bool) (before : List Char) : List Char → Bool
  | [] => true
  | c :: rest =>
    (c ≠ 'Σ' || settles openStart openEnd before rest) &&
      settledAfter openStart openEnd (c :: before) rest

/-- Whether the lower case of a part does not depend on what stands around it. -/
def settled (openStart openEnd : Bool) (part : List Char) : Bool :=
  settledAfter openStart openEnd [] part

/-- A text without a capital sigma is settled. -/
theorem settledAfter_of_notMem (openStart openEnd : Bool) (before : List Char) {part : List Char}
    (h : 'Σ' ∉ part) : settledAfter openStart openEnd before part = true := by
  induction part generalizing before with
  | nil => rfl
  | cons c rest ih =>
    rw [List.mem_cons, not_or] at h
    simp [settledAfter, ih (c :: before) h.2, Ne.symm h.1]

/-- What stands around a settled part changes nothing in its lower case. -/
theorem after_append (beyond behind : List Char) {part : List Char}
    (h : settledAfter openStart openEnd before part = true)
    (hstart : openStart = false → beyond = []) (hend : openEnd = false → behind = []) :
    after (before ++ beyond) (part ++ behind) =
      after before part ++ after (part.reverse ++ (before ++ beyond)) behind := by
  induction part generalizing before with
  | nil => rfl
  | cons c rest ih =>
    obtain ⟨hsigma, hrest⟩ := Bool.and_eq_true_iff.mp h
    have hfinal : c = 'Σ' → isFinal (before ++ beyond) (rest ++ behind) = isFinal before rest := by
      intro hc
      exact isFinal_append (by simpa [hc] using hsigma) hstart hend
    have hlater := ih hrest
    rw [List.cons_append] at hlater
    rw [List.cons_append, after, after, hlater, List.reverse_cons, List.append_assoc,
      List.append_assoc, List.singleton_append, ← isFinal, ← isFinal]
    by_cases hc : c = 'Σ'
    · rw [if_pos hc, if_pos hc, hfinal hc]
    · rw [if_neg hc, if_neg hc]

/-- Whatever stands in front of a text, the text is lowered after it. -/
theorem suffix_after (before front rest : List Char) :
    after (front.reverse ++ before) rest <:+ after before (front ++ rest) := by
  induction front generalizing before with
  | nil => exact List.suffix_refl _
  | cons c front ih =>
    rw [List.cons_append, after, List.reverse_cons, List.append_assoc, List.singleton_append]
    exact (ih (c :: before)).trans (List.suffix_append _ _)

end Parts

theorem chars_prefix {part text : List Char} (h : settled false true part = true)
    (hpart : part <+: text) : chars part <+: chars text := by
  obtain ⟨behind, rfl⟩ := hpart
  have happend := after_append [] behind h (fun _ => rfl) (by simp)
  exact ⟨_, happend.symm⟩

theorem chars_suffix {part text : List Char} (h : settled true false part = true)
    (hpart : part <:+ text) : chars part <:+ chars text := by
  obtain ⟨front, rfl⟩ := hpart
  have happend := after_append front.reverse [] h (by simp) fun _ => rfl
  have hsuffix := suffix_after [] front part
  rw [List.append_nil] at hsuffix
  rw [List.nil_append, List.append_nil, after, List.append_nil] at happend
  rw [happend] at hsuffix
  exact hsuffix

theorem chars_infix {part text : List Char} (h : settled true true part = true)
    (hpart : part <:+: text) : chars part <:+: chars text := by
  obtain ⟨front, behind, rfl⟩ := hpart
  have happend := after_append front.reverse behind h (by simp) (by simp)
  have hsuffix := suffix_after [] front (part ++ behind)
  rw [List.append_nil] at hsuffix
  rw [List.nil_append] at happend
  rw [happend] at hsuffix
  rw [List.append_assoc]
  exact (List.prefix_append _ _).isInfix.trans hsuffix.isInfix

end Lowercase
end LogLens
