/-
Terms that stand for themselves.

A term is a run of letters, numbers and underscores in lower case.  Lower case leaves a run of them
a run, and does not change it again, so a term is its own only term, and as the text of a search it
finds whatever is listed under it (`termsOf_term`).  That fails for the runs with a dotted capital I
and for no others: the lower case of this letter has a mark, and at the mark the term is divided
(`search?_loses_dotted`).
-/
import LogLens.Proofs.Index.Scores
import LogLens.Proofs.Text.LoweredChars

namespace LogLens

/-! ## Runs -/

section Runs

variable {p : Char → Bool} {cs : List Char}

theorem runsOf_of_all (hne : cs ≠ []) (h : ∀ c ∈ cs, p c = true) : runsOf p cs = [cs] := by
  have hopen : cs.foldr (runsOf.step p) ([], []) = (cs, []) := by
    clear hne
    induction cs with
    | nil => rfl
    | cons c cs ih =>
      rw [List.foldr_cons, ih fun d hd => h d (List.mem_cons_of_mem c hd), runsOf.step,
        if_pos (h c List.mem_cons_self)]
  rw [runsOf, hopen, runsOf.close, if_neg (by simpa using hne)]

theorem mem_close {st : List Char × List (List Char)} {run : List Char}
    (h : run ∈ runsOf.close st) : run = st.1 ∧ run ≠ [] ∨ run ∈ st.2 := by
  rw [runsOf.close] at h
  split at h
  · exact Or.inr h
  · rename_i hopen
    rcases List.mem_cons.mp h with rfl | h
    · exact Or.inl ⟨rfl, by simpa using hopen⟩
    · exact Or.inr h

theorem mem_runsOf {run : List Char} (h : run ∈ runsOf p cs) :
    run ≠ [] ∧ ∀ c ∈ run, c ∈ cs ∧ p c = true := by
  have hstate : (∀ c ∈ (cs.foldr (runsOf.step p) ([], [])).1, c ∈ cs ∧ p c = true) ∧
      ∀ run ∈ (cs.foldr (runsOf.step p) ([], [])).2, run ≠ [] ∧ ∀ c ∈ run, c ∈ cs ∧ p c = true := by
    clear h
    induction cs with
    | nil => simp
    | cons c cs ih =>
      have hgrow : ∀ d, d ∈ cs ∧ p d = true → d ∈ c :: cs ∧ p d = true := fun d =>
        And.imp_left (List.mem_cons_of_mem c)
      have hdone : ∀ run ∈ (cs.foldr (runsOf.step p) ([], [])).2,
          run ≠ [] ∧ ∀ d ∈ run, d ∈ c :: cs ∧ p d = true := fun run hrun =>
        (ih.2 run hrun).imp_right fun hall d hd => hgrow d (hall d hd)
      rw [List.foldr_cons, runsOf.step]
      split
      · rename_i hc
        exact ⟨List.forall_mem_cons.mpr
          ⟨⟨List.mem_cons_self, hc⟩, fun d hd => hgrow d (ih.1 d hd)⟩, hdone⟩
      · refine ⟨by simp, fun run hrun => ?_⟩
        rcases mem_close hrun with ⟨rfl, hne⟩ | hrun
        · exact ⟨hne, fun d hd => hgrow d (ih.1 d hd)⟩
        · exact hdone run hrun
  rcases mem_close h with ⟨rfl, hne⟩ | h
  · exact ⟨hne, hstate.1⟩
  · exact hstate.2 run h

end Runs

namespace Index

/-! ## Characters of terms -/

theorem isTermChar_iff {c : Char} : isTermChar c = true ↔ isAlphanumeric c = true ∨ c = '_' := by
  simp [isTermChar]

theorem isTermChar_of_mem_ofChar {c d : Char} (hc : isTermChar c = true) (hne : c ≠ 'İ')
    (h : d ∈ Lowercase.ofChar c) : isTermChar d = true := by
  rcases isTermChar_iff.mp hc with hc | rfl
  · exact isTermChar_iff.mpr (Or.inl (Lowercase.isAlphanumeric_of_mem_ofChar hc hne h))
  · obtain rfl : d = '_' := List.mem_singleton.mp h
    exact hc

theorem isTermChar_mark : isTermChar '\u0307' = false := by decide +kernel

theorem toList_lowercase (s : String) : (lowercase s).toList = Lowercase.chars s.toList := by
  rw [lowercase, String.toList_ofList]

/-- The runs of a text are made of its term characters. -/
theorem mem_splitTerms {s run : String} (h : run ∈ splitTerms s) :
    run.toList ≠ [] ∧ ∀ c ∈ run.toList, c ∈ s.toList ∧ isTermChar c = true := by
  obtain ⟨cs, hcs, rfl⟩ := List.mem_map.mp h
  rw [String.toList_ofList]
  exact mem_runsOf hcs

theorem splitTerms_of_all {s : String} (hne : s.toList ≠ [])
    (h : ∀ c ∈ s.toList, isTermChar c = true) : splitTerms s = [s] := by
  rw [splitTerms, runsOf_of_all hne h, List.map_singleton, String.ofList_toList]

/-- In lower case they still are, unless there is a dotted capital I, which leaves its dot. -/
theorem isTermChar_lowercase_iff {run : String} (h : ∀ c ∈ run.toList, isTermChar c = true) :
    (∀ c ∈ (lowercase run).toList, isTermChar c = true) ↔ 'İ' ∉ run.toList := by
  rw [toList_lowercase]
  constructor
  · intro hlower hdotted
    have hmark := hlower '\u0307' (Lowercase.mem_after_of_mem hdotted (by decide) (by decide))
    rw [isTermChar_mark] at hmark
    exact absurd hmark (by simp)
  · intro hdotted d hd
    rcases Lowercase.mem_after hd with rfl | ⟨c, hc, hd⟩
    · decide +kernel
    · exact isTermChar_of_mem_ofChar (h c hc) (fun hc' => hdotted (hc' ▸ hc)) hd

/-! ## Terms of terms -/

/-- In a text in lower case the runs are the terms. -/
theorem termsOf_lowercase (s : String) : termsOf (lowercase s) = splitTerms (lowercase s) := by
  refine (List.map_congr_left fun run hrun => ?_).trans (List.map_id _)
  have hsmall : Lowercase.chars run.toList = run.toList := by
    refine Lowercase.after_eq_self (fun c hc => ?_) []
    have hfrom := ((mem_splitTerms hrun).2 c hc).1
    rw [toList_lowercase] at hfrom
    exact Lowercase.ofChar_of_mem_chars hfrom
  rw [lowercase, hsmall, String.ofList_toList, id]

/-- A text that is its own only term finds every record that is listed under it. -/
theorem isSome_search?_listed {ix : TextIndex} {t : String} {list : List Posting}
    (hself : termsOf t = [t]) (hlist : ix.postings.get? t = some list) (fuzzy : Bool) :
    ∃ scores, ix.search? t fuzzy = some scores ∧
      ∀ p ∈ list, (scores.get? p.id).isSome = true := by
  refine ⟨ix.wordScores t fuzzy, by simp [TextIndex.search?, hself, TextIndex.allWords], ?_⟩
  intro p hp
  exact TextIndex.isSome_wordScores.mpr
    ⟨(t, list), Dict.get?_eq_some_iff.mp hlist, Or.inl rfl, p, hp, rfl⟩

/-- A term is a run of the text in lower case.  Unless there is a dotted capital I in the run, it is
made of term characters and is its own only term, and the search for it finds what is listed under
it. -/
theorem termsOf_term (s : String) :
    ∀ t ∈ termsOf s, ∃ run ∈ splitTerms s, t = lowercase run ∧ t ≠ "" ∧
      ((∀ c ∈ t.toList, isTermChar c = true) ↔ 'İ' ∉ run.toList) ∧
      (termsOf t = [t] ↔ 'İ' ∉ run.toList) ∧
      ('İ' ∉ run.toList → ∀ (ix : TextIndex) (fuzzy : Bool) (list : List Posting),
        ix.postings.get? t = some list → ∃ scores, ix.search? t fuzzy = some scores ∧
          ∀ p ∈ list, (scores.get? p.id).isSome = true) := by
  intro t ht
  obtain ⟨run, hrun, rfl⟩ := List.mem_map.mp ht
  obtain ⟨hrunne, hrunchars⟩ := mem_splitTerms hrun
  have hne : (lowercase run).toList ≠ [] := by
    rw [toList_lowercase]
    exact Lowercase.chars_ne_nil hrunne
  have hchars := isTermChar_lowercase_iff fun c hc => (hrunchars c hc).2
  have hself : termsOf (lowercase run) = [lowercase run] ↔ 'İ' ∉ run.toList := by
    rw [termsOf_lowercase, ← hchars]
    constructor
    · intro hsplit c hc
      exact ((mem_splitTerms (hsplit ▸ List.mem_singleton_self (lowercase run))).2 c hc).2
    · exact splitTerms_of_all hne
  refine ⟨run, hrun, rfl, fun hnil => hne (by rw [hnil, String.toList_empty]), hchars, hself, ?_⟩
  exact fun hdotted ix fuzzy list hlist => isSome_search?_listed (hself.mpr hdotted) hlist fuzzy

/-- The last sigma of a word is in lower case a letter of its own, and it stays. -/
theorem termsOf_term_sigma :
    let record : Record :=
      { timestamp := Instant.earliest, level := .info, message := "Conn_Pool ΟΔΟΣ",
        file := "a.log", raw := "", id := 1 }
    "οδος" ∈ termsOf record.message ∧ termsOf "οδος" = ["οδος"] ∧
      ∃ scores, (TextIndex.ofRecords {} [record]).search? "οδος" false = some scores ∧
        (scores.get? 1).isSome = true := by
  intro record
  have hterm : "οδος" ∈ termsOf record.message := by decide +kernel
  have hlisted : (TextIndex.ofRecords {} [record]).postings.get? "οδος" =
      some [⟨1, .message, 1⟩] := by decide +kernel
  have hruns : ∀ run ∈ splitTerms record.message, 'İ' ∉ run.toList := by decide +kernel
  obtain ⟨run, hrun, -, -, -, hself, hfinds⟩ := termsOf_term record.message "οδος" hterm
  obtain ⟨scores, hsearch, hall⟩ := hfinds (hruns run hrun) _ false _ hlisted
  exact ⟨hterm, hself.mpr (hruns run hrun), scores, hsearch, hall _ (List.mem_singleton_self _)⟩

/-- The dot that a dotted capital I leaves behind divides the term, and the record is lost to it. -/
theorem search?_loses_dotted :
    let record : Record :=
      { timestamp := Instant.earliest, level := .info, message := "İ", file := "app.log",
        raw := "", id := 1 }
    termsOf record.message = ["i\u0307"] ∧ termsOf "i\u0307" = ["i"] ∧
      isTermChar '\u0307' = false ∧
      ((TextIndex.ofRecords {} [record]).postings.get? "i\u0307").isSome = true ∧
      ((TextIndex.ofRecords {} [record]).search? "i\u0307" false).map (·.entries) = some [] := by
  decide +kernel

end Index
end LogLens
