import MeFuzz.PushStage

namespace MeFuzz.PushStage

open Procedure

/-!
# The protocol of the push stage

A round starts with `init`, goes on with an input and its evaluation in turn, and
ends with `deinit`.  The helper's flag that a round has started is never set, so
each call starts another round and drops the input of the one before.
-/

section

variable (Input ExitKind : Type)

/-- Where a round is. -/
inductive Phase where
  | idle
  | failed
  | ready (left : Nat)
  | waiting (left : Nat) (input : Input) (exitKind : Option ExitKind)
  | ended

end

section

variable {State Input ExitKind Error : Type}

/-- What may happen in each phase. -/
inductive Protocol :
    StepRelation (Phase Input ExitKind) (Event Input ExitKind Error) where
  | init (testcasesToDo : Nat) :
      Protocol .idle (.initialized testcasesToDo) (.ready testcasesToDo)
  | initFailed (error : Error) :
      Protocol .idle (.initFailed error) .failed
  | writeIdle (exitKind : ExitKind) :
      Protocol .idle (.wrote exitKind) .idle
  | yield (left : Nat) (input : Input) :
      Protocol (.ready (left + 1)) (.returned (some (.ok input)))
        (.waiting left input none)
  | write
      (left : Nat)
      (input : Input)
      (previous : Option ExitKind)
      (exitKind : ExitKind) :
      Protocol (.waiting left input previous) (.wrote exitKind)
        (.waiting left input (some exitKind))
  | evaluate (left : Nat) (input : Input) (exitKind : ExitKind) :
      Protocol (.waiting left input (some exitKind))
        (.evaluated input exitKind (.ok ())) (.ready left)
  | evaluateFailed
      (left : Nat)
      (input : Input)
      (exitKind : ExitKind)
      (error : Error) :
      Protocol (.waiting left input (some exitKind))
        (.evaluated input exitKind (.error error)) .failed
  | fail (error : Error) :
      Protocol .failed (.returned (some (.error error))) .idle
  | deinit :
      Protocol (.ready 0) .deinitialized .ended
  | finish :
      Protocol .ended (.returned none) .idle
  | reportFailed (error : Error) :
      Protocol .ended (.returned (some (.error error))) .idle

theorem protocol_functional
    {phase next other : Phase Input ExitKind}
    {event : Event Input ExitKind Error}
    (taken : Protocol phase event next)
    (takenToo : Protocol phase event other) :
    next = other := by
  cases taken <;> cases takenToo <;> rfl

/-- What has happened so far follows the protocol. -/
def Conforms (stage : Stage State Input ExitKind Error) : Prop :=
  ∃ phase, Run Protocol .idle stage.trace phase

/-- The stage is asked for an input while none is waiting for its evaluation. -/
def NothingWaiting
    (stage : Stage State Input ExitKind Error) :
    Action ExitKind → Prop
  | .next => stage.psh.currentInput = none
  | .write _ => True

/-- The flag is not set, and an input is waiting exactly where one is kept. -/
structure Restarts (stage : Stage State Input ExitKind Error) : Prop where
  notInitialized : stage.psh.initialized = false
  phase :
    match stage.psh.currentInput with
    | none => Run Protocol .idle stage.trace .idle
    | some input =>
        ∃ left exitKind, Run Protocol .idle stage.trace (.waiting left input exitKind)

variable {environment : Environment State Input ExitKind Error}
variable {stage next : Stage State Input ExitKind Error}

/-- The events of a call that starts a round, and the input that it keeps. -/
inductive Restarted
    (stage next : Stage State Input ExitKind Error) : Prop where
  | failed
      (error : Error)
      (trace :
        next.trace =
          stage.trace ++ [.initFailed error, .returned (some (.error error))])
      (kept : next.psh.currentInput = stage.psh.currentInput)
  | yielded
      (left : Nat)
      (input : Input)
      (trace :
        next.trace =
          stage.trace ++
            [.initialized (left + 1), .returned (some (.ok input))])
      (kept : next.psh.currentInput = some input)

/-- The stage with other events. -/
def Stage.logged
    (stage : Stage State Input ExitKind Error)
    (event : Event Input ExitKind Error) : Stage State Input ExitKind Error :=
  { stage with trace := stage.trace ++ [event] }

theorem iterations_eq_succ
    (environment : Environment State Input ExitKind Error)
    (state : State) :
    ∃ left, (iterations environment state).1 = left + 1 :=
  ⟨_, Nat.add_comm ..⟩

/-- The stage after `init`. -/
def Stage.started
    (stage : Stage State Input ExitKind Error)
    (corpusIdx : Corpus.CorpusId)
    (testcasesToDo : Nat) : Stage State Input ExitKind Error where
  currentCorpusIdx := some corpusIdx
  testcasesToDo := testcasesToDo
  testcasesDone := 0
  psh := stage.psh
  trace := stage.trace ++ [.initialized testcasesToDo]

theorem outcome_init
    (stage : Stage State Input ExitKind Error)
    (state : State) :
    (init environment state).outcome stage =
      match chooseCorpusIdx environment state stage.currentCorpusIdx with
      | (.error error, state) =>
          (.ok (.error error, state), stage.logged (.initFailed error))
      | (.ok corpusIdx, state) =>
          (.ok (.ok (), (iterations environment state).2),
            stage.started corpusIdx (iterations environment state).1) := by
  unfold init
  rw [outcome_bind_ok outcome_get]
  generalize chooseCorpusIdx environment state stage.currentCorpusIdx = chosen
  obtain ⟨result, state⟩ := chosen
  cases result with
  | error error =>
      rfl
  | ok corpusIdx =>
      rfl

theorem outcome_finishStep
    {state : State}
    {result : Option (Except Error Input)}
    (isOpen : stage.testcasesDone < stage.testcasesToDo)
    (returns :
      (finishStep environment state).outcome stage = (.ok result, next)) :
    ∃ input,
      result = some (.ok input) ∧ next.trace = stage.trace ∧
        next.psh.currentInput = some input ∧
        next.psh.initialized = stage.psh.initialized := by
  unfold finishStep preExec at returns
  rw [bind_assoc, outcome_bind_ok outcome_get,
    if_neg (Nat.not_le.mpr isOpen)] at returns
  cases isIdx : stage.currentCorpusIdx with
  | none =>
      rw [isIdx] at returns
      cases returns
  | some idx =>
      rw [isIdx] at returns
      simp only [unwrap, pure_bind, bind_assoc] at returns
      cases isLoaded :
        environment.loadInput (environment.setFuzzedCorpusId state idx) idx with
      | none =>
          rw [isLoaded] at returns
          cases returns
      | some loaded =>
          rw [isLoaded] at returns
          simp only [pure_bind] at returns
          cases isMutated : environment.mutate loaded.2 loaded.1 with
          | none =>
              rw [isMutated] at returns
              cases returns
          | some mutated =>
              rw [isMutated] at returns
              cases returns
              exact ⟨mutated.1, rfl, rfl, rfl, rfl⟩

theorem outcome_modifyHelper
    (change : PushStageHelper State Input ExitKind →
      PushStageHelper State Input ExitKind) :
    (modifyHelper change).outcome stage =
      (.ok (), { stage with psh := change stage.psh }) :=
  rfl

theorem outcome_nextStd
    {state : State}
    (notInitialized : stage.psh.initialized = false)
    (isShared : stage.psh.sharedState = some state) :
    (nextStd environment).outcome stage =
      Procedure.outcome
        (init environment state >>= fun stepSuccess =>
          match stepSuccess with
          | (.error error, sharedState) => do
              endOfIter sharedState true
              pure (some (.error error))
          | (.ok _, sharedState) => finishStep environment sharedState)
        { stage with psh := { stage.psh with sharedState := none } } := by
  unfold nextStd beginStep
  rw [outcome_bind_ok outcome_get, isShared]
  simp only [unwrap, pure_bind, bind_assoc]
  rw [outcome_bind_ok (outcome_modifyHelper _), outcome_bind_ok outcome_get]
  dsimp only
  rw [notInitialized]
  rfl

theorem next_restarts
    (notInitialized : stage.psh.initialized = false)
    (taken : Step environment stage .next next) :
    next.psh.initialized = false ∧ Restarted stage next := by
  unfold Step act at taken
  cases isShared : stage.psh.sharedState with
  | none =>
      unfold nextStd at taken
      rw [bind_assoc, outcome_bind_ok outcome_get, isShared] at taken
      cases taken
  | some state =>
      rw [outcome_bind, outcome_nextStd notInitialized isShared, outcome_bind,
        outcome_init] at taken
      dsimp only at taken
      cases isChosen :
        chooseCorpusIdx environment state stage.currentCorpusIdx with
      | mk chosen after =>
          rw [isChosen] at taken
          cases chosen with
          | error error =>
              cases taken
              exact ⟨rfl, .failed error (List.append_assoc ..) rfl⟩
          | ok corpusIdx =>
              dsimp only at taken
              cases isFinished :
                (finishStep environment (iterations environment after).2).outcome
                  (Stage.started
                    { stage with psh := { stage.psh with sharedState := none } }
                    corpusIdx (iterations environment after).1) with
              | mk finished final =>
                  rw [isFinished] at taken
                  cases finished with
                  | error panic =>
                      cases taken
                  | ok result =>
                      obtain ⟨left, isSucc⟩ :=
                        iterations_eq_succ environment after
                      rw [isSucc] at isFinished
                      obtain ⟨input, rfl, sameTrace, kept, sameFlag⟩ :=
                        outcome_finishStep (Nat.zero_lt_succ left) isFinished
                      cases taken
                      have traceIs := congrArg
                        (· ++ [.returned (some (.ok input))]) sameTrace
                      have traceAfter := traceIs.trans (List.append_assoc ..)
                      exact
                        ⟨sameFlag.trans notInitialized,
                          .yielded left input traceAfter kept⟩

theorem run_snoc
    {phase other : Phase Input ExitKind}
    {trace : List (Event Input ExitKind Error)}
    {event : Event Input ExitKind Error}
    (run : Run Protocol .idle trace phase)
    (taken : Protocol phase event other) :
    Run Protocol .idle (trace ++ [event]) other :=
  run.append (.single taken)

theorem not_run_waiting
    {left : Nat}
    {input : Input}
    {exitKind : Option ExitKind}
    {final : Phase Input ExitKind}
    {trace rest : List (Event Input ExitKind Error)}
    {event : Event Input ExitKind Error}
    (run : Run Protocol .idle trace (.waiting left input exitKind))
    (begins :
      (∃ testcasesToDo, event = .initialized testcasesToDo) ∨
        ∃ error, event = .initFailed error) :
    ¬Run Protocol .idle (trace ++ event :: rest) final := by
  intro longRun
  obtain ⟨middle, traceRun, restRun⟩ := longRun.of_append
  obtain rfl :=
    @Run.unique _ _ Protocol (fun taken other => protocol_functional taken other)
      _ _ _ _ run traceRun
  rcases begins with ⟨testcasesToDo, rfl⟩ | ⟨error, rfl⟩
  · cases restRun with
    | cons taken _ => cases taken
  · cases restRun with
    | cons taken _ => cases taken

theorem Restarts.conforms
    (restarts : Restarts stage) :
    Conforms stage := by
  have phase := restarts.phase
  cases isKept : stage.psh.currentInput with
  | none =>
      rw [isKept] at phase
      exact ⟨_, phase⟩
  | some input =>
      rw [isKept] at phase
      obtain ⟨left, exitKind, run⟩ := phase
      exact ⟨_, run⟩

theorem Restarts.afterNext
    (restarts : Restarts stage)
    (nothingWaiting : stage.psh.currentInput = none)
    (taken : Step environment stage .next next) :
    Restarts next := by
  have idle := restarts.phase
  rw [nothingWaiting] at idle
  obtain ⟨notInitialized, restarted⟩ :=
    next_restarts restarts.notInitialized taken
  refine ⟨notInitialized, ?_⟩
  cases restarted with
  | failed error trace kept =>
      rw [kept.trans nothingWaiting, trace]
      exact idle.append
        (.cons (.initFailed error) (.single (.fail error)))
  | yielded left input trace kept =>
      rw [kept, trace]
      exact
        ⟨left, none,
          idle.append
            (.cons (.init (left + 1)) (.single (.yield left input)))⟩

theorem Restarts.afterWrite
    {exitKind : ExitKind}
    (restarts : Restarts stage)
    (taken : Step environment stage (.write exitKind) next) :
    Restarts next := by
  have phase := restarts.phase
  cases taken
  refine ⟨restarts.notInitialized, ?_⟩
  dsimp only
  cases isKept : stage.psh.currentInput with
  | none =>
      rw [isKept] at phase
      exact run_snoc phase (.writeIdle exitKind)
  | some input =>
      rw [isKept] at phase
      obtain ⟨left, previous, run⟩ := phase
      exact
        ⟨left, some exitKind,
          run_snoc run (.write left input previous exitKind)⟩

theorem Restarts.nothingWaiting
    (restarts : Restarts stage)
    (taken : Step environment stage .next next)
    (conforms : Conforms next) :
    stage.psh.currentInput = none := by
  obtain ⟨final, run⟩ := conforms
  have phase := restarts.phase
  cases isKept : stage.psh.currentInput with
  | none =>
      rfl
  | some input =>
      rw [isKept] at phase
      obtain ⟨left, exitKind, waiting⟩ := phase
      cases (next_restarts restarts.notInitialized taken).2 with
      | failed error trace _ =>
          rw [trace] at run
          exact absurd run (not_run_waiting waiting (.inr ⟨error, rfl⟩))
      | yielded begun _ trace _ =>
          rw [trace] at run
          exact absurd run
            (not_run_waiting waiting (.inl ⟨begun + 1, rfl⟩))

theorem restarts_new (state : State) :
    Restarts (Stage.new state : Stage State Input ExitKind Error) :=
  ⟨rfl, .nil _⟩

/--
What a stage does follows the protocol exactly as long as it is never called while
an input that it has given out waits for its evaluation.
-/
theorem conforms_iff_nothing_waiting
    (environment : Environment State Input ExitKind Error)
    (state : State)
    (actions : List (Action ExitKind)) :
    Run.Always (Step environment) Conforms (Stage.new state) actions ↔
      Run.Everywhere (Step environment) NothingWaiting (Stage.new state)
        actions := by
  apply @Run.always_iff_everywhere_of_invariant _ _ _ _ Restarts
  · exact fun restarts => restarts.conforms
  · intro stage action next restarts guard taken
    cases action with
    | next => exact restarts.afterNext guard taken
    | write exitKind => exact restarts.afterWrite taken
  · intro stage action next restarts taken conforms
    cases action with
    | next => exact restarts.nothingWaiting taken conforms
    | write exitKind => exact trivial
  · exact restarts_new state

end

/-- An environment where every part of a round goes well. -/
def wellBehaved : Environment Unit Nat Nat Empty where
  schedulerNext := fun _ => (.ok 0, ())
  below := fun _ _ => (1, ())
  setFuzzedCorpusId := fun _ _ => ()
  clearFuzzedCorpusId := fun _ => ()
  loadInput := fun _ _ => some (7, ())
  mutate := fun _ input => some (input + 1, ())
  mutatorPostExec := fun _ _ => (.ok (), ())
  processExecution := fun _ _ _ => (.ok (), ())
  maybeReportProgress := fun _ => (.ok (), ())

/-- Even in it, the second call begins a round and the first input is dropped. -/
theorem second_call_drops_input :
    ∃ final,
      Run (Step wellBehaved) (Stage.new ()) [.next, .write 0, .next] final ∧
        final.trace =
          [.initialized 2, .returned (some (.ok 8)), .wrote 0,
            .initialized 2, .returned (some (.ok 8))] ∧
        ¬Conforms final := by
  obtain ⟨final, run, traceIs⟩ :
      ∃ final,
        Run (Step wellBehaved) (Stage.new ()) [.next, .write 0, .next] final ∧
          final.trace =
            [.initialized 2, .returned (some (.ok 8)), .wrote 0,
              .initialized 2, .returned (some (.ok 8))] :=
    ⟨_, .cons rfl (.cons rfl (.cons rfl (.nil _))), rfl⟩
  refine ⟨final, run, traceIs, ?_⟩
  have waiting :
      Run Protocol (.idle : Phase Nat Nat)
        ([.initialized 2, .returned (some (.ok 8)), .wrote 0] :
          List (Event Nat Nat Empty))
        (.waiting 1 8 (some 0)) :=
    .cons (.init 2)
      (.cons (.yield 1 8) (.single (.write 1 8 none 0)))
  rintro ⟨phase, conforming⟩
  rw [traceIs] at conforming
  exact not_run_waiting waiting (.inl ⟨2, rfl⟩) conforming

end MeFuzz.PushStage
