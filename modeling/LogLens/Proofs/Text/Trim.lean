/-
What trimming leaves.

Only the ends of a text decide what is trimmed: around a core whose own ends stay, everything else
goes.
-/
import Mathlib
import LogLens.Text.Slice

namespace LogLens

variable {p : Char → Bool}

theorem dropWhile_append_of_neg {cs : List Char} (hne : cs ≠ [])
    (hhead : ∀ c ∈ cs.head?, p c = false) (more : List Char) :
    (cs ++ more).dropWhile p = cs ++ more := by
  obtain ⟨c, cs, rfl⟩ := List.exists_cons_of_ne_nil hne
  simp [hhead c rfl]

theorem dropEndWhile_around {core trailing : List Char} (hne : core ≠ [])
    (hlast : ∀ c ∈ core.getLast?, p c = false) (htrailing : ∀ c ∈ trailing, p c = true) :
    dropEndWhile p (core ++ trailing) = core := by
  have hend := dropWhile_append_of_neg (List.reverse_ne_nil_iff.mpr hne)
    (by rwa [List.head?_reverse]) []
  rw [List.append_nil] at hend
  rw [dropEndWhile, List.reverse_append,
    List.dropWhile_append_of_pos fun c hc => htrailing c (List.mem_reverse.mp hc), hend,
    List.reverse_reverse]

theorem head?_dropEndWhile {c : Char} (hc : p c = false) (cs : List Char) :
    (dropEndWhile p (c :: cs)).head? = some c := by
  rw [dropEndWhile, List.reverse_cons, List.dropWhile_append,
    List.dropWhile_cons_of_neg (by simp [hc])]
  split
  · rfl
  · rw [List.reverse_append]
    rfl

theorem trimMatches_around {leading core trailing : List Char}
    (hleading : ∀ c ∈ leading, p c = true) (hne : core ≠ [])
    (hhead : ∀ c ∈ core.head?, p c = false) (hlast : ∀ c ∈ core.getLast?, p c = false)
    (htrailing : ∀ c ∈ trailing, p c = true) :
    trimMatches p (leading ++ core ++ trailing) = core := by
  rw [trimMatches, List.append_assoc, List.dropWhile_append_of_pos hleading,
    dropWhile_append_of_neg hne hhead, dropEndWhile_around hne hlast htrailing]

theorem trimMatches_eq_self {cs : List Char} (hne : cs ≠ [])
    (hhead : ∀ c ∈ cs.head?, p c = false) (hlast : ∀ c ∈ cs.getLast?, p c = false) :
    trimMatches p cs = cs := by
  have htrim := trimMatches_around (List.forall_mem_nil _) hne hhead hlast (List.forall_mem_nil _)
  rwa [List.nil_append, List.append_nil] at htrim

theorem trim_eq_self {cs : List Char} (hne : cs ≠ [])
    (hhead : ∀ c ∈ cs.head?, isBlank c = false) (hlast : ∀ c ∈ cs.getLast?, isBlank c = false) :
    trim cs = cs :=
  trimMatches_eq_self hne hhead hlast

theorem head?_of_dropWhile_eq_self {cs : List Char} (h : cs.dropWhile p = cs) :
    ∀ c ∈ cs.head?, p c = false := by
  intro c hc
  have hnot := List.head?_dropWhile_not p cs
  rw [h, Option.mem_def.mp hc] at hnot
  exact hnot

/-- A text that is trimmed has no white space at either end. -/
theorem ends_of_trim_eq_self {cs : List Char} (h : trim cs = cs) :
    (∀ c ∈ cs.head?, isBlank c = false) ∧ ∀ c ∈ cs.getLast?, isBlank c = false := by
  have hend : ∀ l : List Char, (trimEnd l).length ≤ l.length := by
    intro l
    rw [trimEnd, dropEndWhile, List.length_reverse]
    exact (List.dropWhile_suffix _).length_le.trans List.length_reverse.le
  have hsuffix : trimStart cs <:+ cs := List.dropWhile_suffix _
  have hstart : trimStart cs = cs := by
    refine hsuffix.eq_of_length_le ?_
    calc cs.length = (trim cs).length := by rw [h]
      _ ≤ (trimStart cs).length := hend _
  rw [trim, hstart, trimEnd, dropEndWhile, List.reverse_eq_iff] at h
  refine ⟨head?_of_dropWhile_eq_self hstart, fun c hc => ?_⟩
  rw [← List.head?_reverse] at hc
  exact head?_of_dropWhile_eq_self h c hc

/-- A text that begins with a character that stays begins with it when it is trimmed. -/
theorem head?_trim {c : Char} (hc : isBlank c = false) (cs : List Char) :
    (trim (c :: cs)).head? = some c := by
  rw [trim, trimStart, List.dropWhile_cons_of_neg (by simp [hc])]
  exact head?_dropEndWhile hc cs

end LogLens
