/-
Every line of a document is accounted for once.

A line is blank, or looks structured and cannot be decoded, or makes an entry of its own
(`Contributes`).  A batch that was read line by line holds just what its lines contribute, in their
order, and of the failures as many as its rules keep (`Batch.Accounts`).  One more line keeps this
up, so it holds behind the last one.  Reading fails on no line as long as the day after the
reference is in the representable years; without that day a time without a year ends it.
-/
import LogLens.Proofs.Time.Placement

namespace LogLens

open Placement

/-! ## One line -/

namespace LineOutcome

def entry? : LineOutcome → Option Entry
  | entry e => some e
  | _ => none

def failure? : LineOutcome → Option Failure
  | failure f => some f
  | _ => none

end LineOutcome

/-- The line looks structured but is no object. -/
def Undecodable (rules : ParserRules) (raw : String) (fault : Structured.Fault) : Prop :=
  Structured.looksStructured (trim raw.toList) = true ∧
    Structured.decode (trimText raw) rules.lenientJson = .error fault

/-- What line number `line` of a file contributes. -/
inductive Contributes (rules : ParserRules) (file raw : String) (line : Nat) : LineOutcome → Prop
  | blank (hblank : trim raw.toList = []) : Contributes rules file raw line .blank
  | failure (fault : Structured.Fault) (hraw : trim raw.toList ≠ [])
      (hfault : Undecodable rules raw fault) :
      Contributes rules file raw line (.failure ⟨line, raw, fault.message⟩)
  | entry (e : Entry) (hraw : trim raw.toList ≠ []) (hgood : ∀ fault, ¬ Undecodable rules raw fault)
      (hline : e.line = some line) (hverbatim : e.raw = raw) (hfile : e.file = file) :
      Contributes rules file raw line (.entry e)

namespace Contributes

variable {rules : ParserRules} {file raw : String} {line : Nat} {outcome : LineOutcome}

theorem line_of_entry? (h : Contributes rules file raw line outcome) {e : Entry}
    (he : outcome.entry? = some e) : e.line = some line := by
  cases h with
  | blank => cases he
  | failure => cases he
  | entry e' _ _ hline => exact Option.some.inj he ▸ hline

theorem line_of_failure? (h : Contributes rules file raw line outcome) {f : Failure}
    (hf : outcome.failure? = some f) : f.line = line := by
  cases h with
  | blank => cases hf
  | failure => exact Option.some.inj hf ▸ rfl
  | entry => cases hf

end Contributes

theorem isEmpty_trimText {s : String} : (trimText s).isEmpty = true ↔ trim s.toList = [] := by
  rw [trimText, String.isEmpty_iff, ← String.toList_inj, String.toList_ofList]
  rfl

theorem toList_trimText (s : String) : (trimText s).toList = trim s.toList :=
  String.toList_ofList

section Line

variable (rules : ParserRules) {reference : Instant} (h : reference.HasNextDay) (raw file : String)
  (line : Nat)

include h

theorem Structured.exists_entry (members : Members) :
    ∃ e, entry members raw file reference (some line) = .ok e ∧ e.line = some line ∧
      e.raw = raw ∧ e.file = file := by
  obtain ⟨found, hfound⟩ := timestampMember_isOk h members
  rw [entry, hfound]
  exact ⟨_, rfl, rfl, rfl, rfl⟩

theorem exists_plainEntry (trimmed : String) :
    ∃ e, plainEntry rules reference trimmed raw file line = .ok e ∧ e.line = some line ∧
      e.raw = raw ∧ e.file = file := by
  obtain ⟨⟨header, shape⟩, hheader⟩ := Header.ofLine_isOk h trimmed
  rw [plainEntry, hheader]
  exact ⟨_, rfl, rfl, rfl, rfl⟩

/-- Every line contributes something, if only nothing. -/
theorem exists_parseLine :
    ∃ outcome, parseLine rules reference raw file line = .ok outcome ∧
      Contributes rules file raw line outcome := by
  rw [parseLine]
  by_cases hblank : trim raw.toList = []
  · rw [if_pos (isEmpty_trimText.mpr hblank)]
    exact ⟨.blank, rfl, .blank hblank⟩
  rw [if_neg (mt isEmpty_trimText.mp hblank), toList_trimText]
  by_cases hlooks : Structured.looksStructured (trim raw.toList) = true
  · rw [if_pos hlooks]
    cases hdecode : Structured.decode (trimText raw) rules.lenientJson with
    | ok members =>
      obtain ⟨e, he, hline, hverbatim, hfile⟩ := Structured.exists_entry h raw file line members
      refine ⟨.entry e, by simp only [he]; rfl, .entry e hblank (fun fault hfault => ?_) hline
        hverbatim hfile⟩
      exact absurd (hdecode.symm.trans hfault.2) (by simp)
    | error fault =>
      exact ⟨.failure ⟨line, raw, fault.message⟩, rfl, .failure fault hblank ⟨hlooks, hdecode⟩⟩
  · rw [if_neg hlooks]
    obtain ⟨e, he, hline, hverbatim, hfile⟩ :=
      exists_plainEntry rules h raw file line (trimText raw)
    exact ⟨.entry e, by rw [he]; rfl,
      .entry e hblank (fun fault hfault => hlooks hfault.1) hline hverbatim hfile⟩

end Line

/-! ## What an outcome adds -/

namespace Batch

theorem failureCount_pushFailure (b : Batch) (f : Failure) (maxErrors : Nat) :
    (b.pushFailure f maxErrors).failureCount = b.failureCount + 1 := by
  by_cases hroom : b.failures.length < maxErrors
  · simp [pushFailure, failureCount, hroom]
    omega
  · simp [pushFailure, failureCount, hroom]
    omega

/-- The first failures of all are kept. -/
theorem failures_pushFailure {b : Batch} {all : List Failure} {maxErrors : Nat}
    (h : b.failures = all.take maxErrors) (f : Failure) :
    (b.pushFailure f maxErrors).failures = (all ++ [f]).take maxErrors := by
  have hkept := congrArg List.length h
  rw [List.length_take] at hkept
  by_cases hroom : b.failures.length < maxErrors
  · have hall : all.length < maxErrors := by omega
    rw [List.take_of_length_le hall.le] at h
    rw [List.take_of_length_le (by simpa using hall), ← h, pushFailure, if_pos hroom]
  · rw [List.take_append_of_le_length (by omega), ← h, pushFailure, if_neg hroom]

theorem pushFailure_frame (b : Batch) (f : Failure) (maxErrors : Nat) :
    (b.pushFailure f maxErrors).fileName = b.fileName ∧
    (b.pushFailure f maxErrors).totalLines = b.totalLines ∧
    (b.pushFailure f maxErrors).entries = b.entries := by
  rw [pushFailure]
  split <;> exact ⟨rfl, rfl, rfl⟩

/-- The outcome adds to the entries or to the failures, and to nothing else. -/
theorem addOutcome_eq (rules : ParserRules) (b : Batch) (outcome : LineOutcome) :
    (b.addOutcome rules outcome).fileName = b.fileName ∧
    (b.addOutcome rules outcome).totalLines = b.totalLines ∧
    (b.addOutcome rules outcome).entries = b.entries ++ outcome.entry?.toList ∧
    (b.addOutcome rules outcome).failureCount =
      b.failureCount + outcome.failure?.toList.length := by
  cases outcome with
  | blank => exact ⟨rfl, rfl, (List.append_nil _).symm, rfl⟩
  | entry e => exact ⟨rfl, rfl, rfl, rfl⟩
  | failure f =>
    obtain ⟨hfile, htotal, hentries⟩ := pushFailure_frame b f rules.maxErrors
    exact ⟨hfile, htotal, hentries.trans (List.append_nil _).symm,
      failureCount_pushFailure b f rules.maxErrors⟩

theorem failures_addOutcome {rules : ParserRules} {b : Batch} {all : List Failure}
    (h : b.failures = all.take rules.maxErrors) (outcome : LineOutcome) :
    (b.addOutcome rules outcome).failures =
      (all ++ outcome.failure?.toList).take rules.maxErrors := by
  cases outcome with
  | blank => exact h.trans (congrArg _ (List.append_nil all).symm)
  | entry e => exact h.trans (congrArg _ (List.append_nil all).symm)
  | failure f => exact failures_pushFailure h f

/-! ## Line after line -/

/-- The batch holds what the lines contribute, and nothing else. -/
structure Accounts (rules : ParserRules) (file : String) (lines : List String)
    (outcomes : List LineOutcome) (b : Batch) : Prop where
  fileName : b.fileName = file
  totalLines : b.totalLines = lines.length
  /-- Each line has one outcome, and lines are numbered from 1. -/
  length_eq : outcomes.length = lines.length
  contributes : ∀ n raw outcome, lines[n]? = some raw → outcomes[n]? = some outcome →
    Contributes rules file raw (n + 1) outcome
  entries : b.entries = outcomes.filterMap LineOutcome.entry?
  /-- The first failures are kept, up to the limit, and the others are counted. -/
  failures : b.failures = (outcomes.filterMap LineOutcome.failure?).take rules.maxErrors
  failureCount : b.failureCount = (outcomes.filterMap LineOutcome.failure?).length

theorem filterMap_concat {α β : Type} (f : α → Option β) (l : List α) (a : α) :
    (l ++ [a]).filterMap f = l.filterMap f ++ (f a).toList := by
  rw [List.filterMap_append]
  cases h : f a <;> simp [h]

theorem getElem?_concat_cases {α : Type} {l : List α} {a a' : α} {n : Nat}
    (h : (l ++ [a])[n]? = some a') : l[n]? = some a' ∨ n = l.length ∧ a' = a := by
  rcases Nat.lt_or_ge n l.length with hn | hn
  · rw [List.getElem?_append_left hn] at h
    exact Or.inl h
  · rw [List.getElem?_append_right hn] at h
    have hzero : n - l.length = 0 := by
      have := (List.getElem?_eq_some_iff.mp h).1
      simpa using this
    rw [hzero] at h
    exact Or.inr ⟨by omega, (Option.some.inj h).symm⟩

section Account

variable {rules : ParserRules} {file : String} {lines : List String} {outcomes : List LineOutcome}
  {b : Batch}

/-- One more line keeps the account. -/
theorem Accounts.concat (h : b.Accounts rules file lines outcomes) {raw : String}
    {outcome : LineOutcome} (hline : Contributes rules file raw (lines.length + 1) outcome) :
    ({ b with totalLines := b.totalLines + 1 }.addOutcome rules outcome).Accounts rules file
      (lines ++ [raw]) (outcomes ++ [outcome]) := by
  obtain ⟨hfile, htotal, hentries, hcount⟩ :=
    addOutcome_eq rules { b with totalLines := b.totalLines + 1 } outcome
  refine
    { fileName := hfile.trans h.fileName
      totalLines := ?_
      length_eq := ?_
      contributes := fun n raw' outcome' hraw houtcome => ?_
      entries := ?_
      failures := ?_
      failureCount := ?_ }
  · rw [htotal, List.length_append, ← h.totalLines]
    rfl
  · rw [List.length_append, List.length_append, h.length_eq]
    rfl
  · rcases getElem?_concat_cases hraw with hraw | ⟨hn, rfl⟩ <;>
      rcases getElem?_concat_cases houtcome with houtcome | ⟨hn', rfl⟩
    · exact h.contributes n raw' outcome' hraw houtcome
    · have hlt := (List.getElem?_eq_some_iff.mp hraw).1
      exact absurd (hn'.trans h.length_eq) hlt.ne
    · have hlt := (List.getElem?_eq_some_iff.mp houtcome).1
      exact absurd (hn.trans h.length_eq.symm) hlt.ne
    · exact hn ▸ hline
  · rw [hentries, filterMap_concat, ← h.entries]
  · rw [filterMap_concat]
    refine failures_addOutcome ?_ outcome
    exact h.failures
  · rw [hcount, filterMap_concat, List.length_append, ← h.failureCount]
    rfl

/-- Reading on from an account leads to an account of all lines. -/
theorem Accounts.addLines {reference : Instant} (hday : reference.HasNextDay)
    (h : b.Accounts rules file lines outcomes) (rest : List String) :
    ∃ b' outcomes', b.addLines rules reference (lines.length + 1) rest = .ok b' ∧
      b'.Accounts rules file (lines ++ rest) outcomes' := by
  induction rest generalizing b lines outcomes with
  | nil => exact ⟨b, outcomes, rfl, by rwa [List.append_nil]⟩
  | cons raw rest ih =>
    obtain ⟨outcome, hparse, hline⟩ := exists_parseLine rules hday raw file (lines.length + 1)
    obtain ⟨b', outcomes', hrest, haccounts⟩ := ih (h.concat hline)
    refine ⟨b', outcomes', ?_, by rwa [List.append_assoc] at haccounts⟩
    rw [List.length_append] at hrest
    rw [← h.fileName] at hparse
    rw [Batch.addLines, addLine, hparse]
    exact hrest

/-- What is picked from the outcomes stands in the order of its lines. -/
theorem Accounts.pairwise_filterMap (h : b.Accounts rules file lines outcomes) {α : Type}
    (pick : LineOutcome → Option α) (line? : α → Option Nat)
    (hline : ∀ {raw line outcome a}, Contributes rules file raw line outcome →
      pick outcome = some a → line? a = some line) :
    (outcomes.filterMap pick).Pairwise fun a a' =>
      ∃ m n, line? a = some m ∧ line? a' = some n ∧ m < n := by
  rw [List.pairwise_filterMap, List.pairwise_iff_getElem]
  intro m n hm hn hlt a ha a' ha'
  have hm' : m < lines.length := h.length_eq ▸ hm
  have hn' : n < lines.length := h.length_eq ▸ hn
  have hfirst := h.contributes m lines[m] outcomes[m] (List.getElem?_eq_getElem hm')
    (List.getElem?_eq_getElem hm)
  have hsecond := h.contributes n lines[n] outcomes[n] (List.getElem?_eq_getElem hn')
    (List.getElem?_eq_getElem hn)
  exact ⟨m + 1, n + 1, hline hfirst ha, hline hsecond ha', by omega⟩

theorem Accounts.entries_ordered (h : b.Accounts rules file lines outcomes) :
    b.entries.Pairwise fun e e' => ∃ m n, e.line = some m ∧ e'.line = some n ∧ m < n :=
  h.entries ▸ h.pairwise_filterMap LineOutcome.entry? Entry.line
    fun hline he => hline.line_of_entry? he

theorem Accounts.failures_ordered (h : b.Accounts rules file lines outcomes) :
    b.failures.Pairwise fun f f' => f.line < f'.line := by
  have hall := h.pairwise_filterMap LineOutcome.failure? (fun f => some f.line)
    fun hline hf => congrArg some (hline.line_of_failure? hf)
  rw [h.failures]
  refine (hall.imp ?_).sublist (List.take_sublist ..)
  rintro f f' ⟨m, n, hm, hn, hlt⟩
  rwa [Option.some.inj hm, Option.some.inj hn]

end Account

/-- A batch without lines. -/
theorem accounts_nil (rules : ParserRules) (file : String) (size : Nat) :
    Accounts rules file [] [] { fileName := file, fileSize := size } where
  fileName := rfl
  totalLines := rfl
  length_eq := rfl
  contributes := fun _ _ _ hraw _ => absurd hraw (by simp)
  entries := rfl
  failures := List.take_nil.symm
  failureCount := rfl

end Batch

/-! ## Whole documents -/

/-- A document that is no array is read line by line, and the batch accounts for every line. -/
theorem parseDocument_accounts (rules : ParserRules) {reference : Instant}
    (hday : reference.HasNextDay) (text file : String)
    (hlines : parseArray rules reference text file = .ok none) :
    ∃ b outcomes, parseDocument rules reference text file = .ok b ∧
      b.Accounts rules file (textLines text) outcomes ∧
      (b.entries.Pairwise fun e e' => ∃ m n, e.line = some m ∧ e'.line = some n ∧ m < n) ∧
      b.failures.Pairwise fun f f' => f.line < f'.line := by
  obtain ⟨b, outcomes, hb, haccounts⟩ :=
    (Batch.accounts_nil rules file text.utf8ByteSize).addLines hday (textLines text)
  refine ⟨b, outcomes, ?_, haccounts, haccounts.entries_ordered, haccounts.failures_ordered⟩
  rw [parseDocument, hlines]
  exact hb

/-- A blank line, an object that breaks off, a plain line and a second broken object, of which the
rules keep only one. -/
theorem parseDocument_accounts_mixed :
    ∃ b outcomes, parseDocument { maxErrors := 1 } Instant.earliest
        " \n\x7b1\x7d\nOct  1 12:00:00 up\n\x7b2\x7d" "a.log" = .ok b ∧
      b.Accounts { maxErrors := 1 } "a.log"
        [" ", "\x7b1\x7d", "Oct  1 12:00:00 up", "\x7b2\x7d"] outcomes ∧
      (b.entries.Pairwise fun e e' => ∃ m n, e.line = some m ∧ e'.line = some n ∧ m < n) ∧
      b.failures.Pairwise fun f f' => f.line < f'.line := by
  have hsplit : textLines " \n\x7b1\x7d\nOct  1 12:00:00 up\n\x7b2\x7d" =
      [" ", "\x7b1\x7d", "Oct  1 12:00:00 up", "\x7b2\x7d"] := by decide +kernel
  rw [← hsplit]
  exact parseDocument_accounts { maxErrors := 1 } (by decide) _ "a.log" (by decide +kernel)

/-- On the last representable day a time without a year ends the reading of a document, though it
stands in a plain line. -/
theorem parseDocument_outOfRange :
    parseArray {} Instant.latest "Oct  1 12:00:00 up" "a.log" = .ok none ∧
    textLines "Oct  1 12:00:00 up" = ["Oct  1 12:00:00 up"] ∧
    ¬ ∃ b, parseDocument {} Instant.latest "Oct  1 12:00:00 up" "a.log" = .ok b := by
  have herror : parseDocument {} Instant.latest "Oct  1 12:00:00 up" "a.log" = .error ⟨⟩ := by
    decide +kernel
  refine ⟨by decide +kernel, by decide +kernel, ?_⟩
  rintro ⟨b, hb⟩
  rw [herror] at hb
  cases hb

end LogLens
