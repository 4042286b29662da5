/-
Ranges and their bounds.

A filter on a range asks for what the filters on its two bounds ask for (`between_eq_bounds`).  There
are two sets of rules, one for numbers and one for levels, and in each the range is the conjunction
of its bounds (`evaluate_between`, `evaluateLevel?_between`).  A range counts by level only if both
bounds are levels, while each bound on its own decides for itself; this makes no difference, for a
level that is compared as a text is above and below nothing (`evaluate_level`).
-/
import LogLens.Proofs.Query.Facet

namespace LogLens

open Query

theorem Binary64.compare?_swap (x y : Binary64) :
    x.compare? y = (y.compare? x).map Ordering.swap := by
  rw [compare?, compare?]
  cases x.key? with
  | none => cases y.key? <;> rfl
  | some a =>
    cases y.key? with
    | none => rfl
    | some b => exact congrArg some Std.OrientedCmp.eq_swap

namespace Match

/-! ## Numbers -/

theorem holds_lte (x y : Binary64) : ((x.compare? y).map (holds .lte)).getD false = x.numLe y := by
  rw [Binary64.numLe]
  rcases x.compare? y with _ | _ | _ | _ <;> rfl

theorem holds_gte (x y : Binary64) : ((x.compare? y).map (holds .gte)).getD false = y.numLe x := by
  rw [Binary64.numLe, Binary64.compare?_swap x y]
  rcases y.compare? x with _ | _ | _ | _ <;> rfl

section Values

variable (now : Instant) (caseSensitive : Bool)

/-- Where numbers are compared, a range is the conjunction of its bounds. -/
theorem evaluate_between (actual low high : FieldValue) :
    evaluate now caseSensitive actual .range (.range low high) =
      (evaluate now caseSensitive actual .gte (.scalar low) &&
        evaluate now caseSensitive actual .lte (.scalar high)) := by
  simp only [evaluate, holds_gte, holds_lte]
  cases comparable? now actual with
  | none => rfl
  | some a => cases comparable? now low <;> cases comparable? now high <;> simp

/-- The name of a level is no number and no time, so it is above and below nothing. -/
theorem evaluate_level (level : Level) (bound : FieldValue) :
    evaluate now caseSensitive (.text level.name) .gte (.scalar bound) = false ∧
      evaluate now caseSensitive (.text level.name) .lte (.scalar bound) = false := by
  obtain ⟨hnumber, hstamp⟩ := plain_of_coerce (coerce_level level now)
  have hname : comparable? now (.text level.name) = none := by
    rw [comparable?, FieldValue.number?, hnumber, instant?, Stamp.parse?, hstamp]
    rfl
  simp only [evaluate, hname, and_self]

end Values

/-! ## Levels -/

theorem holds_gte_level (a b : Level) : holds .gte (a.compare b) = holds .lte (b.compare a) := by
  cases a <;> cases b <;> rfl

/-- Where levels are compared, a range is the conjunction of its bounds, and it takes both. -/
theorem evaluateLevel?_between (level : Level) (low high : FieldValue) :
    evaluateLevel? level .range (.range low high) =
      (evaluateLevel? level .gte (.scalar low)).bind fun above =>
        (evaluateLevel? level .lte (.scalar high)).map (above && ·) := by
  simp only [evaluateLevel?]
  cases level? low with
  | none => rfl
  | some lo =>
    cases level? high with
    | none => rfl
    | some hi => simp [holds_gte_level]

/-! ## Filters -/

def atLeast (field : String) (low : FieldValue) : Filter := ⟨field, .gte, .scalar low, false⟩

def atMost (field : String) (high : FieldValue) : Filter := ⟨field, .lte, .scalar high, false⟩

theorem passes_between (now : Instant) (caseSensitive : Bool) (e : Entry) (field : String)
    (low high : FieldValue) :
    passes now caseSensitive e (.between field low high) =
      (passes now caseSensitive e (atLeast field low) &&
        passes now caseSensitive e (atMost field high)) := by
  simp only [passes, Filter.between, atLeast, atMost, Bool.bne_false]
  cases hfield : e.field? field with
  | none => rfl
  | some actual =>
    by_cases hlevel : field = "level"
    · subst hlevel
      obtain rfl : .text e.level.name = actual := Option.some.inj hfield
      -- a level that is compared as a text passes none of the three filters
      have hlow := (evaluate_level now caseSensitive e.level low).1
      have hhigh := (evaluate_level now caseSensitive e.level high).2
      have hrange := evaluate_between now caseSensitive (.text e.level.name) low high
      rw [hlow, Bool.false_and] at hrange
      simp only [hlow, hhigh, hrange, evaluateLevel?_between, if_true]
      cases evaluateLevel? e.level .gte (.scalar low) with
      | none => rfl
      | some above => cases evaluateLevel? e.level .lte (.scalar high) <;> simp
    · simp only [hlevel, if_false]
      exact evaluate_between now caseSensitive actual low high

end Match

/-! ## Searches -/

namespace LogIndex

open Match

/-- A filter on a range holds when the filters on its two bounds hold, whatever the bounds are, and
a search with the one filter answers as a search with the two. -/
theorem between_eq_bounds (now : Instant) (field : String) (low high : FieldValue) :
    (∀ caseSensitive e, passes now caseSensitive e (.between field low high) = true ↔
      passes now caseSensitive e (atLeast field low) = true ∧
        passes now caseSensitive e (atMost field high) = true) ∧
    ∀ (ix : LogIndex) (q : SearchQuery),
      ix.search? { q with filters := q.filters ++ [.between field low high] } now =
        ix.search? { q with filters := q.filters ++ [atLeast field low, atMost field high] }
          now := by
  refine ⟨fun caseSensitive e => by rw [passes_between, Bool.and_eq_true], fun ix q => ?_⟩
  have hpasses : ∀ e, passesAll now q.caseSensitive e (q.filters ++ [.between field low high]) =
      passesAll now q.caseSensitive e (q.filters ++ [atLeast field low, atMost field high]) := by
    intro e
    simp only [passesAll, List.all_append, List.all_cons, List.all_nil, Bool.and_true,
      passes_between]
  have hhit : ∀ scores,
      hit? { q with filters := q.filters ++ [.between field low high] } now scores =
        hit? { q with filters := q.filters ++ [atLeast field low, atMost field high] } now
          scores := by
    intro scores
    funext slot
    simp only [hit?, verbatimTerms, hpasses]
  simp only [search?, searchAlong?, ranked, hhit]
  rfl

/-- A warning is at least a warning, but neither at most `zzz` nor between the two. -/
example :
    let e : Entry := { timestamp := .earliest, level := .warn, message := "", file := "", raw := "" }
    passes .earliest true e (atLeast "level" (.text "warning")) = true ∧
      passes .earliest true e (atMost "level" (.text "zzz")) = false ∧
      passes .earliest true e (.between "level" (.text "warning") (.text "zzz")) = false := by
  decide +kernel

end LogIndex
end LogLens
