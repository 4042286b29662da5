/-
Documents written line by line.

Lines that are put one under the other are read back as they are, when each of them is a line to
begin with: not empty, without a line feed, and not ending in the carriage return that belongs to
one.  Whether the last line is closed makes no difference.
-/
import Mathlib
import LogLens.Text.Slice

namespace LogLens

/-- The lines one under the other.  A closed document ends with a line feed. -/
def lineDocument (closed : Bool) : List String → String
  | [] => ""
  | [line] => if closed then line ++ "\n" else line
  | line :: rest => line ++ "\n" ++ lineDocument closed rest

/-- A text that a document can hold as one line. -/
structure IsLine (cs : List Char) : Prop where
  ne_nil : cs ≠ []
  newline : '\n' ∉ cs
  return_last : cs.getLast? ≠ some '\r'

namespace IsLine

variable {cs : List Char} (h : IsLine cs)

include h

theorem dropReturn_eq : dropReturn cs = cs := by
  unfold dropReturn
  split
  · exact absurd ‹_› h.return_last
  · rfl

theorem forall_newline : ∀ c ∈ cs, (c == '\n') = false := by
  intro c hc
  rw [beq_eq_false_iff_ne]
  rintro rfl
  exact h.newline hc

end IsLine

/-! ## Pieces -/

theorem splitAtAny_of_forall {p : Char → Bool} {cs : List Char} (h : ∀ c ∈ cs, p c = false) :
    splitAtAny p cs = [cs] := by
  induction cs with
  | nil => rfl
  | cons c cs ih =>
    rw [splitAtAny, h c List.mem_cons_self, ih fun d hd => h d (List.mem_cons_of_mem c hd)]
    rfl

theorem splitAtAny_append_cons {p : Char → Bool} {cs : List Char} (h : ∀ c ∈ cs, p c = false)
    {c : Char} (hc : p c = true) (rest : List Char) :
    splitAtAny p (cs ++ c :: rest) = cs :: splitAtAny p rest := by
  induction cs with
  | nil => rw [List.nil_append, splitAtAny, if_pos hc]
  | cons d cs ih =>
    rw [List.cons_append, splitAtAny, h d List.mem_cons_self,
      ih fun e he => h e (List.mem_cons_of_mem d he)]
    rfl

theorem splitAtAny_ne_nil (p : Char → Bool) (cs : List Char) : splitAtAny p cs ≠ [] := by
  cases cs with
  | nil => exact List.cons_ne_nil _ _
  | cons c cs =>
    rw [splitAtAny]
    split
    · exact List.cons_ne_nil _ _
    · split <;> exact List.cons_ne_nil _ _

/-! ## Lines -/

theorem linesOf_of_isLine {cs : List Char} (h : IsLine cs) : linesOf cs = [cs] := by
  rw [linesOf, splitAtAny_of_forall h.forall_newline, linesOf.complete,
    List.isEmpty_eq_false_iff.mpr h.ne_nil]
  rfl

theorem linesOf_append_newline {cs : List Char} (h : IsLine cs) (rest : List Char) :
    linesOf (cs ++ '\n' :: rest) = cs :: linesOf rest := by
  obtain ⟨piece, pieces, hrest⟩ :=
    List.exists_cons_of_ne_nil (splitAtAny_ne_nil (· == '\n') rest)
  rw [linesOf, linesOf, splitAtAny_append_cons h.forall_newline rfl, hrest, linesOf.complete,
    h.dropReturn_eq]
  exact List.cons_ne_nil piece pieces

theorem toList_lineDocument_cons (closed : Bool) (line : String) {rest : List String}
    (hrest : rest ≠ []) : (lineDocument closed (line :: rest)).toList =
      line.toList ++ '\n' :: (lineDocument closed rest).toList := by
  obtain ⟨next, rest, rfl⟩ := List.exists_cons_of_ne_nil hrest
  show (line ++ "\n" ++ lineDocument closed (next :: rest)).toList = _
  rw [String.toList_append, String.toList_append, List.append_assoc]
  rfl

theorem prefix_lineDocument (closed : Bool) (line : String) (rest : List String) :
    line.toList <+: (lineDocument closed (line :: rest)).toList := by
  by_cases hrest : rest = []
  · subst hrest
    cases closed with
    | false => exact List.prefix_rfl
    | true =>
      show line.toList <+: (line ++ "\n").toList
      rw [String.toList_append]
      exact List.prefix_append _ _
  · rw [toList_lineDocument_cons closed line hrest]
    exact List.prefix_append _ _

theorem linesOf_lineDocument (closed : Bool) {lines : List String}
    (h : ∀ line ∈ lines, IsLine line.toList) :
    linesOf (lineDocument closed lines).toList = lines.map String.toList := by
  induction lines with
  | nil => rfl
  | cons line rest ih =>
    have hline := h line List.mem_cons_self
    by_cases hrest : rest = []
    · subst hrest
      cases closed with
      | false => exact linesOf_of_isLine hline
      | true =>
        show linesOf (line ++ "\n").toList = [line.toList]
        rw [String.toList_append]
        exact linesOf_append_newline hline []
    · rw [toList_lineDocument_cons closed line hrest, linesOf_append_newline hline,
        ih fun next hnext => h next (List.mem_cons_of_mem line hnext)]
      rfl

/-- The lines of a document are those it was put together from. -/
theorem textLines_lineDocument (closed : Bool) {lines : List String}
    (h : ∀ line ∈ lines, IsLine line.toList) : textLines (lineDocument closed lines) = lines := by
  rw [textLines, linesOf_lineDocument closed h, List.map_map]
  exact List.map_id'' (fun _ => String.ofList_toList) lines

end LogLens
