/-
Terms that begin with a word stand together.

In ascending order the terms that begin with a word follow it without a gap, so a walk that starts
behind the word and stops at the first term that does not begin with it meets all of them.
-/
import Mathlib
import LogLens.Index.TextIndex

namespace LogLens
namespace Index

/-! ## Walks over ascending lists -/

section Walk

variable {α : Type} {p : α → Bool}

/-- Where what satisfies `p` stands in front, a walk up to the first failure finds all of it. -/
theorem takeWhile_eq_filter {l : List α} (h : l.Pairwise fun x y => p y = true → p x = true) :
    l.takeWhile p = l.filter p := by
  induction l with
  | nil => rfl
  | cons a l ih =>
    obtain ⟨ha, hl⟩ := List.pairwise_cons.mp h
    by_cases hp : p a = true
    · rw [List.takeWhile_cons_of_pos hp, List.filter_cons_of_pos hp, ih hl]
    · rw [List.takeWhile_cons_of_neg hp, List.filter_cons_of_neg hp]
      refine (List.filter_eq_nil_iff.mpr fun b hb hpb => ?_).symm
      exact hp (ha b hb hpb)

theorem dropWhile_eq_filter {l : List α} (h : l.Pairwise fun x y => p y = true → p x = true) :
    l.dropWhile p = l.filter fun x => !p x := by
  induction l with
  | nil => rfl
  | cons a l ih =>
    obtain ⟨ha, hl⟩ := List.pairwise_cons.mp h
    by_cases hp : p a = true
    · rw [List.dropWhile_cons_of_pos hp, List.filter_cons_of_neg (by simp [hp]), ih hl]
    · rw [List.dropWhile_cons_of_neg hp, List.filter_cons_of_pos (by simp [hp])]
      refine congrArg (a :: ·) (List.filter_eq_self.mpr fun b hb => ?_).symm
      by_cases hpb : p b = true
      · exact absurd (ha b hb hpb) hp
      · simp [hpb]

end Walk

/-! ## Words and the terms behind them -/

/-- What stands between a text and one of its continuations continues it as well. -/
theorem prefix_of_between {w a b : List Char} (hwa : w < a) (hab : a < b) (h : w <+: b) :
    w <+: a := by
  induction w generalizing a b with
  | nil => exact List.nil_prefix
  | cons c w ih =>
    obtain ⟨rest, rfl⟩ := h
    cases a with
    | nil => exact absurd hwa (List.not_lt_nil _)
    | cons d a =>
      rw [List.cons_append] at hab
      rcases List.cons_lt_cons_iff.mp hwa with hcd | ⟨rfl, hwa'⟩
      · rcases List.cons_lt_cons_iff.mp hab with hdc | ⟨rfl, -⟩
        · exact absurd (lt_trans hcd hdc) (lt_irrefl c)
        · exact absurd hcd (lt_irrefl d)
      · rcases List.cons_lt_cons_iff.mp hab with hcc | ⟨-, hab⟩
        · exact absurd hcc (lt_irrefl c)
        · exact List.cons_prefix_cons.mpr ⟨rfl, ih hwa' hab (List.prefix_append w rest)⟩

theorem lt_of_prefix_of_ne {w a : List Char} (h : w <+: a) (hne : a ≠ w) : w < a := by
  obtain ⟨rest, rfl⟩ := h
  induction w with
  | nil =>
    cases rest with
    | nil => exact absurd rfl hne
    | cons c rest => exact List.nil_lt_cons c rest
  | cons c w ih =>
    refine List.cons_lt_cons_iff.mpr (Or.inr ⟨rfl, ih ?_⟩)
    intro h
    exact hne (congrArg (c :: ·) h)

namespace TextIndex

theorem startsWith_iff {term word : String} :
    startsWith term word = true ↔ word.toList <+: term.toList :=
  List.isPrefixOf_iff_prefix

/-- The walk from a word finds the terms that begin with it and are not the word itself. -/
theorem prefixEntries_eq (ix : TextIndex) (word : String) :
    ix.prefixEntries word =
      ix.postings.entries.filter fun e => startsWith e.1 word && e.1 != word := by
  have hbehind : (ix.postings.entries.dropWhile fun e => ¬ Key.lt word e.1) =
      ix.postings.entries.filter fun e => decide (Key.lt word e.1) := by
    rw [dropWhile_eq_filter (ix.postings.ascending.imp fun {a b} hab hb => ?_)]
    · exact List.filter_congr fun e _ => by simp
    · simp only [decide_eq_true_eq] at hb ⊢
      exact fun ha => hb (Key.trans ha hab)
  have hbegin : (ix.postings.entries.filter fun e => decide (Key.lt word e.1)).Pairwise
      fun a b => startsWith b.1 word = true → startsWith a.1 word = true := by
    refine (ix.postings.ascending.filter _).imp_of_mem fun {a b} ha _ hab hb => ?_
    have hwa : Key.lt word a.1 := by simpa using (List.mem_filter.mp ha).2
    rw [startsWith_iff] at hb ⊢
    exact prefix_of_between (String.lt_iff.mp hwa) (String.lt_iff.mp hab) hb
  rw [prefixEntries, hbehind, takeWhile_eq_filter hbegin, List.filter_filter]
  refine List.filter_congr fun e _ => ?_
  by_cases hs : startsWith e.1 word = true
  · have hiff : Key.lt word e.1 ↔ e.1 ≠ word := by
      constructor
      · rintro h rfl
        exact Key.irrefl _ h
      · intro hne
        refine String.lt_iff.mpr (lt_of_prefix_of_ne (startsWith_iff.mp hs) fun h => hne ?_)
        exact String.toList_injective h
    have hdecide : decide (Key.lt word e.1) = (e.1 != word) :=
      Bool.eq_iff_iff.mpr (by simpa using hiff)
    rw [hdecide]
  · simp [hs]

end TextIndex
end Index
end LogLens
