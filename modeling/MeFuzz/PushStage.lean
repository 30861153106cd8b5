import MeFuzz.InMemoryCorpus
import MeFuzz.Procedures

namespace MeFuzz.PushStage

open Corpus (CorpusId)

/-!
# The mutational push stage

A push stage gives out one input a call instead of running it.  The driver runs it,
writes the exit kind and asks for the next.  The stage keeps what it needs between
the calls in its helper.
-/

/-- What the stage uses: scheduler, generator, corpus, mutator, fuzzer and events. -/
structure Environment (State Input ExitKind Error : Type) where
  schedulerNext : State → Except Error CorpusId × State
  below : State → Nat → Nat × State
  setFuzzedCorpusId : State → CorpusId → State
  clearFuzzedCorpusId : State → State
  loadInput : State → CorpusId → Option (Input × State)
  mutate : State → Input → Option (Input × State)
  mutatorPostExec : State → Option CorpusId → Except Error Unit × State
  processExecution : State → Input → ExitKind → Except Error Unit × State
  maybeReportProgress : State → Except Error Unit × State

section

variable (State Input ExitKind Error : Type)

/-- What is done, in order: by the stage, by the driver, and what a call returns. -/
inductive Event where
  | initialized (testcasesToDo : Nat)
  | initFailed (error : Error)
  | evaluated (input : Input) (exitKind : ExitKind) (result : Except Error Unit)
  | deinitialized
  | wrote (exitKind : ExitKind)
  | returned (result : Option (Except Error Input))

/-- `PushStageHelper`, with the shared state and the shared exit kind. -/
structure PushStageHelper where
  initialized : Bool
  sharedState : Option State
  errored : Bool
  currentCorpusIdx : Option CorpusId
  currentInput : Option Input
  exitKind : Option ExitKind

/-- `StdMutationalPushStage`, and the events so far. -/
structure Stage where
  currentCorpusIdx : Option CorpusId
  testcasesToDo : Nat
  testcasesDone : Nat
  psh : PushStageHelper State Input ExitKind
  trace : List (Event Input ExitKind Error)

end

/-- An `unwrap` of nothing. -/
inductive Panic where
  | panicked
  deriving Repr, DecidableEq

section

variable {State Input ExitKind Error Value : Type}

/-- A part of the stage. -/
abbrev Part (State Input ExitKind Error Value : Type) :=
  Procedure Panic (Stage State Input ExitKind Error) Value

/-- `StdMutationalPushStage::new`. -/
def Stage.new (state : State) : Stage State Input ExitKind Error where
  currentCorpusIdx := none
  testcasesToDo := 0
  testcasesDone := 0
  psh :=
    { initialized := false
      sharedState := some state
      errored := false
      currentCorpusIdx := none
      currentInput := none
      exitKind := none }
  trace := []

/-- `unwrap`. -/
def unwrap : Option Value → Part State Input ExitKind Error Value
  | some value => pure value
  | none => throw .panicked

/-- An event is added. -/
def log
    (event : Event Input ExitKind Error) :
    Part State Input ExitKind Error Unit :=
  modify fun stage => { stage with trace := stage.trace ++ [event] }

/-- A change of the helper. -/
def modifyHelper
    (change : PushStageHelper State Input ExitKind →
      PushStageHelper State Input ExitKind) :
    Part State Input ExitKind Error Unit :=
  modify fun stage => { stage with psh := change stage.psh }

/-- `DEFAULT_MUTATIONAL_MAX_ITERATIONS`. -/
def defaultMutationalMaxIterations : Nat := 128

variable (environment : Environment State Input ExitKind Error)

/-- `iterations`. -/
def iterations (state : State) : Nat × State :=
  let (value, state) := environment.below state defaultMutationalMaxIterations
  (1 + value, state)

/-- The corpus index that is set, or the next one of the scheduler. -/
def chooseCorpusIdx
    (state : State) :
    Option CorpusId → Except Error CorpusId × State
  | some corpusIdx => (.ok corpusIdx, state)
  | none => environment.schedulerNext state

/-- `init`. -/
def init
    (state : State) :
    Part State Input ExitKind Error (Except Error Unit × State) := do
  match chooseCorpusIdx environment state (← get).currentCorpusIdx with
  | (.error error, state) => do
      log (.initFailed error)
      pure (.error error, state)
  | (.ok corpusIdx, state) => do
      let (testcasesToDo, state) := iterations environment state
      modify fun stage =>
        { stage with
          currentCorpusIdx := some corpusIdx
          testcasesToDo
          testcasesDone := 0 }
      log (.initialized testcasesToDo)
      pure (.ok (), state)

/-- `pre_exec`. -/
def preExec
    (state : State) :
    Part State Input ExitKind Error (Option Input × State) := do
  let stage ← get
  if stage.testcasesToDo ≤ stage.testcasesDone then pure (none, state)
  else
    let idx ← unwrap stage.currentCorpusIdx
    let state := environment.setFuzzedCorpusId state idx
    let (input, state) ← unwrap (environment.loadInput state idx)
    let (input, state) ← unwrap (environment.mutate state input)
    modifyHelper fun psh => { psh with currentInput := some input }
    pure (some input, state)

/-- `post_exec`. -/
def postExec
    (state : State)
    (lastInput : Input)
    (exitKind : ExitKind) :
    Part State Input ExitKind Error (Except Error Unit × State) := do
  match environment.processExecution state lastInput exitKind with
  | (.error error, state) => do
      log (.evaluated lastInput exitKind (.error error))
      pure (.error error, state)
  | (.ok _, state) => do
      match environment.mutatorPostExec state (← get).currentCorpusIdx with
      | (.error error, state) => do
          log (.evaluated lastInput exitKind (.error error))
          pure (.error error, state)
      | (.ok _, state) => do
          modify fun stage =>
            { stage with testcasesDone := stage.testcasesDone + 1 }
          log (.evaluated lastInput exitKind (.ok ()))
          pure (.ok (), environment.clearFuzzedCorpusId state)

/-- `deinit`. -/
def deinit : Part State Input ExitKind Error Unit := do
  modify fun stage => { stage with currentCorpusIdx := none }
  log .deinitialized

/-- `end_of_iter`. -/
def endOfIter
    (sharedState : State)
    (errored : Bool) : Part State Input ExitKind Error Unit :=
  modifyHelper fun psh =>
    { psh with
      sharedState := some sharedState
      errored
      currentCorpusIdx := none
      initialized := if errored then false else psh.initialized }

/-- The first half of `next_std`: `post_exec` or `init`. -/
def beginStep
    (sharedState : State) :
    Part State Input ExitKind Error (Except Error Unit × State) := do
  let stage ← get
  if stage.psh.initialized then
    modifyHelper fun psh => { psh with currentInput := none }
    let lastInput ← unwrap stage.psh.currentInput
    let exitKind ← unwrap stage.psh.exitKind
    postExec environment sharedState lastInput exitKind
  else init environment sharedState

/-- The second half of `next_std`: `pre_exec`, and the end of the round. -/
def finishStep
    (sharedState : State) :
    Part State Input ExitKind Error (Option (Except Error Input)) := do
  match ← preExec environment sharedState with
  | (some input, sharedState) => do
      modifyHelper fun psh => { psh with exitKind := none }
      endOfIter sharedState false
      pure (some (.ok input))
  | (none, sharedState) => do
      modifyHelper fun psh =>
        { psh with
          currentInput := none
          initialized := false }
      deinit
      match environment.maybeReportProgress sharedState with
      | (.error error, sharedState) => do
          endOfIter sharedState true
          pure (some (.error error))
      | (.ok _, sharedState) => do
          endOfIter sharedState false
          pure none

/-- `next_std`. -/
def nextStd : Part State Input ExitKind Error (Option (Except Error Input)) := do
  let stage ← get
  modifyHelper fun psh => { psh with sharedState := none }
  let sharedState ← unwrap stage.psh.sharedState
  match ← beginStep environment sharedState with
  | (.error error, sharedState) => do
      endOfIter sharedState true
      pure (some (.error error))
  | (.ok _, sharedState) => finishStep environment sharedState

/-- What the driver does. -/
inductive Action (ExitKind : Type) where
  | next
  | write (exitKind : ExitKind)

/-- `next`, or the driver writes the exit kind of the execution. -/
def act :
    Action ExitKind → Part State Input ExitKind Error Unit
  | .next => do
      let result ← nextStd environment
      log (.returned result)
  | .write exitKind => do
      modifyHelper fun psh => { psh with exitKind := some exitKind }
      log (.wrote exitKind)

/-- Actions that return are steps. -/
def Step :
    StepRelation (Stage State Input ExitKind Error) (Action ExitKind) :=
  fun stage action next =>
    (act environment action).outcome stage = (.ok (), next)

end

end MeFuzz.PushStage
