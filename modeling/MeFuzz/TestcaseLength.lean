import MeFuzz.CachedOnDiskCorpus

namespace MeFuzz.Corpus.TestcaseLength

open OnDisk (Codec)

/-!
# The cached length of a testcase

A testcase memoises the length of its input, so that it need not load the input for
it.  Nothing that changes the input takes the memo back.  While the input is in memory
its length is measured anew, so the memo has to be right when the input leaves memory.
-/

/-- `Testcase`, as far as its input goes. -/
structure Testcase (Input : Type) where
  input : Option Input
  filename : Option String
  cachedLen : Option Nat
  deriving DecidableEq

/-- A testcase, and what the files hold. -/
structure State (Input : Type) where
  testcase : Testcase Input
  files : String → Option Bytes

/-- What a kind of input does when it is put into a testcase, and its length. -/
structure Kind (Input : Type) where
  codec : Codec Input
  wrappedAsTestcase : Input → Input
  len : Input → Nat

variable {Input : Type}
variable (kind : Kind Input)
variable (state : State Input)

namespace State

/-- Write to the input, as `input_mut` lets its caller do. -/
def writeInput (input : Option Input) : State Input :=
  { state with testcase := { state.testcase with input := input } }

/-- `set_input`. -/
def setInput (input : Input) : State Input :=
  state.writeInput (some (kind.wrappedAsTestcase input))

/-- The input that is read from the testcase's file. -/
def fromFile : Option Input :=
  (state.testcase.filename.bind state.files).bind kind.codec.fromFile

/-- `load_input`; `works` tells whether the file system does its part. -/
def loadInput (works : Bool) : Except Error Input × State Input :=
  match state.testcase.input, state.testcase.filename with
  | some input, _ => (.ok input, state)
  | none, none => (.error .panicked, state)
  | none, some _ =>
      match works, state.fromFile kind with
      | true, some input => (.ok input, state.writeInput (some input))
      | _, _ => (.error .file, state)

/-- `store_input`. -/
def storeInput (works : Bool) : Except Error Bool × State Input :=
  match state.testcase.filename, state.testcase.input with
  | some fname, some input =>
      if works then
        (.ok true,
          { state with
            files :=
              Function.update state.files fname
                (some (kind.codec.toFile input)) }.writeInput none)
      else (.error .file, state)
  | _, _ => (.ok false, state)

/-- Write the memo. -/
def memoise (len : Nat) : State Input :=
  { state with testcase := { state.testcase with cachedLen := some len } }

/-- `cached_len`. -/
def cachedLen (works : Bool) : Except Error Nat × State Input :=
  match state.testcase.input with
  | some input => (.ok (kind.len input), state.memoise (kind.len input))
  | none =>
      match state.testcase.cachedLen with
      | some len => (.ok len, state)
      | none =>
          match state.loadInput kind works with
          | (.ok input, loaded) =>
              (.ok (kind.len input), loaded.memoise (kind.len input))
          | (.error error, loaded) => (.error error, loaded)

end State

/-- A call on a testcase. -/
inductive Operation (Input : Type) where
  | setInput (input : Input)
  | writeInput (input : Option Input)
  | storeInput (works : Bool)
  | loadInput (works : Bool)
  | cachedLen (works : Bool)

/-- The state after a call. -/
def perform : Operation Input → State Input
  | .setInput input => state.setInput kind input
  | .writeInput input => state.writeInput input
  | .storeInput works => (state.storeInput kind works).2
  | .loadInput works => (state.loadInput kind works).2
  | .cachedLen works => (state.cachedLen kind works).2

/-- The calls as a transition relation. -/
def Step : StepRelation (State Input) (Operation Input) :=
  fun state operation next => next = perform kind state operation

/-- The input of a testcase: the one in memory, or else the one in its file. -/
def State.current : Option Input :=
  state.testcase.input.or (state.fromFile kind)

/-- This is the length of the current input. -/
def State.HasLen (len : Nat) : Prop :=
  ∃ input, state.current kind = some input ∧ kind.len input = len

/-- What a call answers is the length of the current input. -/
def AnswersWithLength : Operation Input → Prop
  | .cachedLen works =>
      ∀ len,
        (state.cachedLen kind works).1 = .ok len → state.HasLen kind len
  | _ => True

/-- The memo is the length of the current input, if there is a memo. -/
def State.Fresh : Prop :=
  ∀ len, state.testcase.cachedLen = some len → state.HasLen kind len

/-- No input leaves memory while the memo is that of another length. -/
def LeavesFresh : Operation Input → Prop
  | .writeInput none => (state.writeInput none).Fresh kind
  | .storeInput true =>
      ∀ input,
        state.testcase.filename.isSome →
        state.testcase.input = some input →
        ∀ len, state.testcase.cachedLen = some len → kind.len input = len
  | _ => True

/-- The memo is right whenever the input is not in memory. -/
def State.FreshOutside : Prop :=
  state.testcase.input = none → state.Fresh kind

variable {kind state}

theorem current_of_input
    {input : Input}
    (inMemory : state.testcase.input = some input) :
    state.current kind = some input := by
  unfold State.current
  rw [inMemory, Option.some_or]

theorem current_of_none
    (outside : state.testcase.input = none) :
    state.current kind = state.fromFile kind := by
  unfold State.current
  rw [outside, Option.none_or]

theorem loadInput_cases
    (works : Bool)
    (outside : state.testcase.input = none) :
    (∃ error, state.loadInput kind works = (.error error, state)) ∨
      ∃ input,
        state.fromFile kind = some input ∧
          state.loadInput kind works =
            (.ok input, state.writeInput (some input)) := by
  unfold State.loadInput
  rw [outside]
  cases state.testcase.filename with
  | none =>
      exact .inl ⟨_, rfl⟩
  | some filename =>
      cases works with
      | false =>
          exact .inl ⟨_, rfl⟩
      | true =>
          cases state.fromFile kind with
          | none =>
              exact .inl ⟨_, rfl⟩
          | some input =>
              exact .inr ⟨input, rfl, rfl⟩

theorem freshOutside_storeInput
    (works : Bool)
    (leavesFresh : LeavesFresh kind state (.storeInput works))
    (fresh : state.FreshOutside kind) :
    (state.storeInput kind works).2.FreshOutside kind := by
  unfold State.storeInput
  cases hasName : state.testcase.filename with
  | none =>
      exact fresh
  | some fname =>
      cases inMemory : state.testcase.input with
      | none =>
          exact fresh
      | some input =>
          cases works with
          | false =>
              exact fresh
          | true =>
              intro _ len isMemo
              refine ⟨input, ?_, leavesFresh input ?_ inMemory len isMemo⟩
              · rw [current_of_none (by rfl)]
                simp [State.fromFile, State.writeInput, hasName,
                  kind.codec.reads]
              · rw [hasName]
                rfl

theorem freshOutside_of_input
    {input : Input}
    (inMemory : state.testcase.input = some input) :
    state.FreshOutside kind := by
  intro outside
  rw [inMemory] at outside
  cases outside

theorem freshOutside_loadInput
    (works : Bool)
    (fresh : state.FreshOutside kind) :
    (state.loadInput kind works).2.FreshOutside kind := by
  cases inMemory : state.testcase.input with
  | some input =>
      unfold State.loadInput
      rw [inMemory]
      exact fresh
  | none =>
      rcases @loadInput_cases _ kind _ works inMemory with
        ⟨error, loads⟩ | ⟨input, -, loads⟩
      · rw [loads]
        exact fresh
      · rw [loads]
        exact freshOutside_of_input rfl

theorem freshOutside_cachedLen
    (works : Bool)
    (fresh : state.FreshOutside kind) :
    (state.cachedLen kind works).2.FreshOutside kind := by
  unfold State.cachedLen
  cases inMemory : state.testcase.input with
  | some input =>
      exact freshOutside_of_input inMemory
  | none =>
      cases isMemo : state.testcase.cachedLen with
      | some len =>
          exact fresh
      | none =>
          rcases @loadInput_cases _ kind _ works inMemory with
            ⟨error, loads⟩ | ⟨input, -, loads⟩
          · rw [loads]
            exact fresh
          · rw [loads]
            exact freshOutside_of_input rfl

theorem answers_of_freshOutside
    {operation : Operation Input}
    (fresh : state.FreshOutside kind) :
    AnswersWithLength kind state operation := by
  cases operation with
  | cachedLen works =>
      intro len answers
      unfold State.cachedLen at answers
      cases inMemory : state.testcase.input with
      | some input =>
          rw [inMemory] at answers
          cases answers
          exact ⟨input, current_of_input inMemory, rfl⟩
      | none =>
          rw [inMemory] at answers
          cases isMemo : state.testcase.cachedLen with
          | some memo =>
              rw [isMemo] at answers
              cases answers
              exact fresh inMemory len isMemo
          | none =>
              rw [isMemo] at answers
              rcases @loadInput_cases _ kind _ works inMemory with
                ⟨error, loads⟩ | ⟨input, isFile, loads⟩
              · rw [loads] at answers
                cases answers
              · rw [loads] at answers
                cases answers
                exact ⟨input, (current_of_none inMemory).trans isFile, rfl⟩
  | _ =>
      trivial

theorem step_freshOutside
    {operation : Operation Input}
    {next : State Input}
    (fresh : state.FreshOutside kind)
    (leavesFresh : LeavesFresh kind state operation)
    (taken : Step kind state operation next) :
    next.FreshOutside kind := by
  subst taken
  cases operation with
  | setInput input =>
      exact freshOutside_of_input rfl
  | writeInput input =>
      cases input with
      | none =>
          exact fun _ => leavesFresh
      | some input =>
          exact freshOutside_of_input rfl
  | storeInput works =>
      exact freshOutside_storeInput works leavesFresh fresh
  | loadInput works =>
      exact freshOutside_loadInput works fresh
  | cachedLen works =>
      exact freshOutside_cachedLen works fresh

/--
Every answer of a run is the length of the current input, if no input leaves memory
while the memo is that of another length.
-/
theorem cached_length_is_current
    (kind : Kind Input)
    (start : State Input)
    (operations : List (Operation Input))
    (noMemo : start.testcase.cachedLen = none)
    (leavesFresh :
      Run.Throughout (Step kind) (LeavesFresh kind) start operations) :
    Run.Throughout (Step kind) (AnswersWithLength kind) start operations := by
  have initially : start.FreshOutside kind := by
    intro _ len isMemo
    rw [noMemo] at isMemo
    cases isMemo
  refine Run.throughout_of_invariant ?_ ?_ initially leavesFresh
  · exact fun fresh _ => answers_of_freshOutside fresh
  · exact step_freshOutside

theorem reads_bytes (input : Bytes) : some (id input) = some input :=
  rfl

/-- Inputs that are bytes, and are written to files as they are. -/
def bytesKind : Kind Bytes where
  codec :=
    { toFile := id
      fromFile := some
      generateName := fun _ _ => "bytes"
      reads := reads_bytes }
  wrappedAsTestcase := id
  len := List.length

/-- A testcase of one byte that has a file name. -/
def oneByte : State Bytes where
  testcase :=
    { input := some [0]
      filename := some "bytes"
      cachedLen := none }
  files := fun _ => none

/-- The length is asked for before and after an input is stored, and so with a longer one. -/
def storedTwice : List (Operation Bytes) :=
  [.cachedLen true, .storeInput true, .cachedLen true, .setInput [0, 0], .cachedLen true,
    .storeInput true, .cachedLen true, .loadInput true, .cachedLen true]

theorem cached_length_is_current_stored_twice :
    Run.Throughout (Step bytesKind) (AnswersWithLength bytesKind) oneByte storedTwice := by
  refine cached_length_is_current bytesKind oneByte _ rfl ?_
  refine Run.throughout_cons trivial ?_
  rintro _ rfl
  refine Run.throughout_cons ?_ ?_
  · rintro input _ ⟨⟩ len ⟨⟩
    rfl
  rintro _ rfl
  refine Run.throughout_cons trivial ?_
  rintro _ rfl
  refine Run.throughout_cons trivial ?_
  rintro _ rfl
  refine Run.throughout_cons trivial ?_
  rintro _ rfl
  refine Run.throughout_cons ?_ ?_
  · rintro input _ ⟨⟩ len ⟨⟩
    rfl
  rintro _ rfl
  refine Run.throughout_cons trivial ?_
  rintro _ rfl
  refine Run.throughout_cons trivial ?_
  rintro _ rfl
  exact Run.throughout_singleton trivial

/-- A longer input is stored, and the length is that of the one before. -/
theorem stored_input_has_old_length :
    ∃ measured changed stored,
      oneByte.cachedLen bytesKind true = (.ok 1, measured) ∧
        changed = measured.setInput bytesKind [0, 0] ∧
        changed.storeInput bytesKind true = (.ok true, stored) ∧
        (stored.cachedLen bytesKind true).1 = .ok 1 ∧
        stored.current bytesKind = some [0, 0] :=
  ⟨_, _, _, rfl, rfl, rfl, rfl, rfl⟩

end MeFuzz.Corpus.TestcaseLength
