/-
One step of the machine that reads values.

A step looks at the innermost array or object only: it opens one inside of it, turns it to what has
to come next, or hands a finished value on.  `Kind` says which of these it is, together with what
becomes of the numbers read so far.  So what the machine does for the tokens of one value does not
depend on the arrays and objects around it (`run_onTop`), and no number beyond all finite ones gets
into what is kept (`allFinite_run`).
-/
import LogLens.Json.Reader

namespace LogLens

def JsonNumber.isFinite : JsonNumber → Bool
  | integer _ => true
  | real x => x.isFinite

namespace Json

open Reader

/-! ## Numbers inside values -/

mutual

/-- The numbers in a value, from left to right. -/
def numbers : Json → List JsonNumber
  | .number n => [n]
  | .array items => numbersOfItems items
  | .object members => numbersOfMembers members
  | _ => []

def numbersOfItems : List Json → List JsonNumber
  | [] => []
  | j :: rest => numbers j ++ numbersOfItems rest

def numbersOfMember : String × Json → List JsonNumber
  | (_, j) => numbers j

def numbersOfMembers : List (String × Json) → List JsonNumber
  | [] => []
  | m :: rest => numbersOfMember m ++ numbersOfMembers rest

end

@[simp] theorem numbers_array (items : List Json) :
    (Json.array items).numbers = items.flatMap numbers := by
  rw [numbers]
  induction items with
  | nil => rfl
  | cons j rest ih => rw [numbersOfItems, ih, List.flatMap_cons]

@[simp] theorem numbers_object (members : List (String × Json)) :
    (Json.object members).numbers = members.flatMap fun m => m.2.numbers := by
  rw [numbers]
  induction members with
  | nil => rfl
  | cons m rest ih => rw [numbersOfMembers, ih, List.flatMap_cons, numbersOfMember]

/-- The numbers in what is kept of an array or object. -/
def Frame.numbers : Frame → List JsonNumber
  | .array items => items.flatMap Json.numbers
  | .object members | .member members _ => (members.getD []).flatMap fun m => m.2.numbers

def State.numbers (s : State) : List JsonNumber :=
  s.stack.flatMap Frame.numbers ++
    match s.expect with
    | .nothing j => j.numbers
    | _ => []

/-- No number is beyond all finite ones. -/
def AllFinite (l : List JsonNumber) : Prop := ∀ n ∈ l, n.isFinite = true

theorem allFinite_append {l m : List JsonNumber} :
    AllFinite (l ++ m) ↔ AllFinite l ∧ AllFinite m :=
  List.forall_mem_append

theorem AllFinite.subset {l m : List JsonNumber} (h : AllFinite m) (hsub : l ⊆ m) : AllFinite l :=
  fun n hn => h n (hsub hn)

/-! ## Kinds of steps -/

def Expect.finished : Expect → Bool
  | .nothing _ => true
  | _ => false

/-- What a step does on a stack, with `run outer` its outcome when further arrays and objects are
around that stack. -/
inductive Kind : List Frame → (List Frame → Option State) → Prop
  /-- An array or object is opened, or what has to come next changes. -/
  | opens {stack : List Frame} (new : List Frame) (expect : Expect)
      (hnew : new.flatMap Frame.numbers = []) (hexpect : expect.finished = false) :
      Kind stack fun outer => some ⟨new ++ stack ++ outer, expect⟩
  /-- The innermost array or object changes its state and keeps what it holds. -/
  | turns {frame : Frame} {rest : List Frame} (frame' : Frame) (expect : Expect)
      (hframe : frame'.numbers = frame.numbers) (hexpect : expect.finished = false) :
      Kind (frame :: rest) fun outer => some ⟨frame' :: rest ++ outer, expect⟩
  /-- A value of one token is handed on. -/
  | hands {stack : List Frame} (j : Json) (hj : AllFinite j.numbers) :
      Kind stack fun outer => deliver asWritten j (stack ++ outer)
  /-- The innermost array or object is closed and handed on. -/
  | closes {frame : Frame} {rest : List Frame} (j : Json)
      (hj : AllFinite frame.numbers → AllFinite j.numbers) :
      Kind (frame :: rest) fun outer => deliver asWritten j (rest ++ outer)

theorem allFinite_unreadable : AllFinite unreadable.numbers := by
  simp [AllFinite, unreadable, Json.numbers, JsonNumber.isFinite]

theorem allFinite_ofNumber? {n : JsonNumber} {j : Json} (h : ofNumber? asWritten n = some j) :
    AllFinite j.numbers := by
  cases n with
  | integer n =>
    obtain rfl := Option.some.inj h
    simp [AllFinite, Json.numbers, JsonNumber.isFinite]
  | real x =>
    rw [ofNumber?] at h
    split at h
    · rename_i hx
      obtain rfl := Option.some.inj h
      simpa [AllFinite, Json.numbers, JsonNumber.isFinite] using hx
    · obtain rfl := Option.some.inj h
      exact allFinite_unreadable

theorem allFinite_constant? {word : String} {j : Json} (h : constant? word = some j) :
    AllFinite j.numbers := by
  unfold constant? at h
  split at h <;> cases h <;> simp [AllFinite, Json.numbers]

theorem kind_startValue {stack : List Frame} {t : Token} {s : State}
    (h : startValue asWritten stack t = some s) :
    Kind stack fun outer => startValue asWritten (stack ++ outer) t := by
  cases t with
  | openArray => exact .opens [.array []] .item rfl rfl
  | openObject => exact .opens [.object (some [])] .nameOrClose rfl rfl
  | text s => exact .hands (.text s) (by simp [AllFinite, Json.numbers])
  | brokenText => exact .hands unreadable allFinite_unreadable
  | number n =>
    obtain ⟨j, hj, -⟩ := Option.bind_eq_some_iff.mp h
    simp only [startValue, hj, Option.bind_some]
    exact .hands j (allFinite_ofNumber? hj)
  | word w =>
    obtain ⟨j, hj, -⟩ := Option.bind_eq_some_iff.mp h
    simp only [startValue, hj, Option.bind_some]
    exact .hands j (allFinite_constant? hj)
  | closeArray | closeObject | colon | comma | escapedWord w => cases h

theorem kind_startMember {stack : List Frame} {t : Token} {s : State}
    (h : startMember asWritten stack t = some s) :
    Kind stack fun outer => startMember asWritten (stack ++ outer) t := by
  cases t with
  | text name => exact .opens [] (.colon (some name)) rfl rfl
  | brokenText => exact .opens [] (.colon none) rfl rfl
  | _ => cases h

theorem kind_closeArray {stack : List Frame} {s : State}
    (h : closeArray asWritten stack = some s) :
    Kind stack fun outer => closeArray asWritten (stack ++ outer) := by
  cases stack with
  | nil => cases h
  | cons frame rest =>
    cases frame with
    | array items =>
      refine .closes (.array items.reverse) fun hitems => hitems.subset fun n hn => ?_
      simpa [Frame.numbers] using hn
    | object members | member members name => cases h

theorem kind_closeObject {stack : List Frame} {s : State}
    (h : closeObject asWritten stack = some s) :
    Kind stack fun outer => closeObject asWritten (stack ++ outer) := by
  cases stack with
  | nil => cases h
  | cons frame rest =>
    cases frame with
    | object members =>
      cases members with
      | none => exact .closes unreadable fun _ => allFinite_unreadable
      | some members =>
        refine .closes (.object members) fun hmembers => hmembers.subset fun n hn => ?_
        simpa [Frame.numbers] using hn
    | array items | member members name => cases h

theorem kind_afterColon {name : Option String} {stack : List Frame} {s : State}
    (h : afterColon name stack = some s) :
    Kind stack fun outer => afterColon name (stack ++ outer) := by
  cases stack with
  | nil => cases h
  | cons frame rest =>
    cases frame with
    | object members => exact .turns (.member members name) .value rfl rfl
    | array items | member members name => cases h

theorem kind_afterComma {stack : List Frame} {s : State}
    (h : afterComma asWritten stack = some s) :
    Kind stack fun outer => afterComma asWritten (stack ++ outer) := by
  cases stack with
  | nil => cases h
  | cons frame rest =>
    cases frame with
    | array items => exact .turns (.array items) .value rfl rfl
    | object members => exact .turns (.object members) .name rfl rfl
    | member members name => cases h

/-- Where an array may end, everything else is read as where a value has to come. -/
theorem step_item {t : Token} (ht : t ≠ .closeArray) (stack : List Frame) :
    step asWritten ⟨stack, .item⟩ t = step asWritten ⟨stack, .value⟩ t := by
  cases t with
  | closeArray => exact absurd rfl ht
  | _ => rfl

/-- Where an object may end, everything else is read as where a name has to come. -/
theorem step_nameOrClose {t : Token} (ht : t ≠ .closeObject) (stack : List Frame) :
    step asWritten ⟨stack, .nameOrClose⟩ t = step asWritten ⟨stack, .name⟩ t := by
  cases t with
  | closeObject => exact absurd rfl ht
  | _ => rfl

/-- Every step is of one of the kinds. -/
theorem kind_step {stack : List Frame} {expect : Expect} {t : Token} {s : State}
    (h : step asWritten ⟨stack, expect⟩ t = some s) :
    Kind stack fun outer => step asWritten ⟨stack ++ outer, expect⟩ t := by
  cases expect with
  | value => exact kind_startValue h
  | name => exact kind_startMember h
  | item =>
    by_cases ht : t = .closeArray
    · subst ht
      exact kind_closeArray h
    · simp only [step_item ht] at h ⊢
      exact kind_startValue h
  | nameOrClose =>
    by_cases ht : t = .closeObject
    · subst ht
      exact kind_closeObject h
    · simp only [step_nameOrClose ht] at h ⊢
      exact kind_startMember h
  | colon name =>
    cases t with
    | colon => exact kind_afterColon h
    | _ => cases h
  | comma =>
    cases t with
    | comma => exact kind_afterComma h
    | closeArray => exact kind_closeArray h
    | closeObject => exact kind_closeObject h
    | _ => cases h
  | nothing j => cases h

/-! ## Inside of other values -/

/-- What a state becomes when further arrays and objects are around it: a finished value is handed
to the innermost of them. -/
def State.onTop (outer : List Frame) : State → Option State
  | ⟨_, .nothing j⟩ => deliver asWritten j outer
  | ⟨stack, expect⟩ => some ⟨stack ++ outer, expect⟩

theorem onTop_of_unfinished {s : State} (h : s.expect.finished = false) (outer : List Frame) :
    s.onTop outer = some ⟨s.stack ++ outer, s.expect⟩ := by
  obtain ⟨stack, expect⟩ := s
  cases expect with
  | nothing j => cases h
  | _ => rfl

theorem deliver_onTop {j : Json} {stack : List Frame} {s : State}
    (h : deliver asWritten j stack = some s) (outer : List Frame) :
    deliver asWritten j (stack ++ outer) = s.onTop outer := by
  cases stack with
  | nil =>
    obtain rfl := Option.some.inj h
    rfl
  | cons frame rest =>
    cases frame with
    | array items | member members name =>
      obtain rfl := Option.some.inj h
      rfl
    | object members => cases h

theorem Kind.onTop {stack : List Frame} {run : List Frame → Option State} (h : Kind stack run)
    {s : State} (hs : run [] = some s) (outer : List Frame) : run outer = s.onTop outer := by
  cases h with
  | opens new expect hnew hexpect | turns frame' expect hframe hexpect =>
    obtain rfl := Option.some.inj hs
    rw [onTop_of_unfinished hexpect, List.append_nil]
  | hands j hj | closes j hj =>
    simp only [List.append_nil] at hs
    exact deliver_onTop hs outer

/-- A step looks at the innermost array or object only. -/
theorem step_onTop {s s' : State} {t : Token} (h : step asWritten s t = some s')
    (outer : List Frame) :
    step asWritten ⟨s.stack ++ outer, s.expect⟩ t = s'.onTop outer := by
  refine (kind_step h).onTop ?_ outer
  rw [List.append_nil]
  exact h

/-- A run does on top of arrays and objects what it does alone, and hands its value to them. -/
theorem run_onTop {ts : List Token} {s s' : State} (hs : s.expect.finished = false)
    (h : ts.foldlM (step asWritten) s = some s') (outer : List Frame) :
    ts.foldlM (step asWritten) ⟨s.stack ++ outer, s.expect⟩ = s'.onTop outer := by
  induction ts generalizing s with
  | nil =>
    obtain rfl := Option.some.inj h
    exact (onTop_of_unfinished hs outer).symm
  | cons t ts ih =>
    rw [List.foldlM_cons] at h ⊢
    obtain ⟨mid, hmid, h⟩ := Option.bind_eq_some_iff.mp h
    rw [step_onTop hmid outer]
    cases hfinished : mid.expect.finished with
    | false =>
      rw [onTop_of_unfinished hfinished]
      exact ih hfinished h
    | true =>
      -- Behind a finished value no token is taken.
      obtain ⟨stack, expect⟩ := mid
      cases expect with
      | nothing j =>
        cases ts with
        | nil =>
          obtain rfl := Option.some.inj h
          exact bind_pure _
        | cons t ts => cases h
      | _ => cases hfinished

/-- The tokens of one value hand it to the array or object around them. -/
theorem run_value {ts : List Token} {j : Json} (h : ofTokens? asWritten ts = some j)
    (stack : List Frame) :
    ts.foldlM (step asWritten) ⟨stack, .value⟩ = deliver asWritten j stack := by
  unfold ofTokens? at h
  split at h
  · rename_i stack' j' hrun
    obtain rfl := Option.some.inj h
    exact run_onTop rfl hrun stack
  · cases h

theorem run_item {t : Token} {ts : List Token} {stack : List Frame} {s : State}
    (h : (t :: ts).foldlM (step asWritten) ⟨stack, .value⟩ = some s) :
    (t :: ts).foldlM (step asWritten) ⟨stack, .item⟩ = some s := by
  have ht : t ≠ .closeArray := by
    rintro rfl
    cases h
  rwa [List.foldlM_cons, step_item ht]

theorem run_nameOrClose {t : Token} {ts : List Token} {stack : List Frame} {s : State}
    (h : (t :: ts).foldlM (step asWritten) ⟨stack, .name⟩ = some s) :
    (t :: ts).foldlM (step asWritten) ⟨stack, .nameOrClose⟩ = some s := by
  have ht : t ≠ .closeObject := by
    rintro rfl
    cases h
  rwa [List.foldlM_cons, step_nameOrClose ht]

/-! ## Finite numbers -/

theorem numbers_of_unfinished {stack : List Frame} {expect : Expect}
    (h : expect.finished = false) :
    State.numbers ⟨stack, expect⟩ = stack.flatMap Frame.numbers := by
  cases expect with
  | nothing j => cases h
  | _ => exact List.append_nil _

/-- A member that is handed its value is kept behind those before it, if it has a name. -/
theorem numbers_keep_subset (members : Option (List (String × Json))) (name : Option String)
    (j : Json) :
    (Frame.object do return insertMember asWritten (← members) (← name) j).numbers ⊆
      j.numbers ++ (Frame.member members name).numbers := by
  cases members with
  | none => exact List.nil_subset _
  | some members =>
    cases name with
    | none => exact List.nil_subset _
    | some name =>
      intro n hn
      simpa [Frame.numbers, insertMember, asWritten, or_comm] using hn

theorem allFinite_deliver {j : Json} {stack : List Frame} {s : State}
    (h : deliver asWritten j stack = some s) (hj : AllFinite j.numbers)
    (hstack : AllFinite (stack.flatMap Frame.numbers)) : AllFinite s.numbers := by
  cases stack with
  | nil =>
    obtain rfl := Option.some.inj h
    exact hj
  | cons frame rest =>
    rw [List.flatMap_cons, allFinite_append] at hstack
    obtain ⟨hframe, hrest⟩ := hstack
    have hall := allFinite_append.mpr ⟨hj, hframe⟩
    cases frame with
    | array items =>
      obtain rfl := Option.some.inj h
      rw [numbers_of_unfinished rfl, List.flatMap_cons, allFinite_append]
      exact ⟨hall, hrest⟩
    | member members name =>
      obtain rfl := Option.some.inj h
      rw [numbers_of_unfinished rfl, List.flatMap_cons, allFinite_append]
      exact ⟨hall.subset (numbers_keep_subset members name j), hrest⟩
    | object members => cases h

theorem Kind.allFinite {stack : List Frame} {run : List Frame → Option State}
    (h : Kind stack run) {s : State} (hs : run [] = some s)
    (hstack : AllFinite (stack.flatMap Frame.numbers)) : AllFinite s.numbers := by
  cases h with
  | opens new expect hnew hexpect =>
    obtain rfl := Option.some.inj hs
    simpa [numbers_of_unfinished hexpect, hnew] using hstack
  | turns frame' expect hframe hexpect =>
    obtain rfl := Option.some.inj hs
    simpa [numbers_of_unfinished hexpect, hframe] using hstack
  | hands j hj =>
    simp only [List.append_nil] at hs
    exact allFinite_deliver hs hj hstack
  | closes j hj =>
    simp only [List.append_nil] at hs
    rw [List.flatMap_cons, allFinite_append] at hstack
    exact allFinite_deliver hs (hj hstack.1) hstack.2

/-- A step brings in finite numbers only. -/
theorem allFinite_step {s s' : State} {t : Token} (h : step asWritten s t = some s')
    (hs : AllFinite s.numbers) : AllFinite s'.numbers := by
  refine (kind_step h).allFinite ?_ (hs.subset (List.subset_append_left _ _))
  rw [List.append_nil]
  exact h

theorem allFinite_run {ts : List Token} {s s' : State}
    (h : ts.foldlM (step asWritten) s = some s') (hs : AllFinite s.numbers) :
    AllFinite s'.numbers := by
  induction ts generalizing s with
  | nil =>
    obtain rfl := Option.some.inj h
    exact hs
  | cons t ts ih =>
    rw [List.foldlM_cons] at h
    obtain ⟨mid, hmid, h⟩ := Option.bind_eq_some_iff.mp h
    exact ih h (allFinite_step hmid hs)

theorem allFinite_ofTokens? {ts : List Token} {j : Json} (h : ofTokens? asWritten ts = some j) :
    AllFinite j.numbers := by
  unfold ofTokens? at h
  split at h
  · rename_i stack j' hrun
    obtain rfl := Option.some.inj h
    have hall := allFinite_run hrun (by simp [AllFinite, start, State.numbers])
    exact (allFinite_append.mp hall).2
  · cases h

end Json
end LogLens
