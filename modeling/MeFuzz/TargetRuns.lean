import MeFuzz.TransitionRun
import MeFuzz.InMemoryCorpus
import MeFuzz.Procedures

namespace MeFuzz.Execution

open Corpus (Error)

/-!
# Runs of the target

Stages run the target on their own or let the fuzzer do it.  The fuzzer counts each run
before it starts; a stage counts its runs afterwards, once more, or not at all.
-/

variable {Input World Value : Type}

/-- `ExitKind`, as far as stages tell it apart. -/
inductive ExitKind where
  | ok
  | errored
  deriving Repr, DecidableEq

/-- An executor with its observers; the world is the fuzzer's state but the counter. -/
structure Executor (Input World : Type) where
  preExecAll : Input → Procedure Error World Unit
  runTarget : Input → Procedure Error World ExitKind
  postExecAll : Input → ExitKind → Procedure Error World Unit
  mapHash : Procedure Error World Nat
  howManySet : List Nat → Procedure Error World Nat

/-- `state.executions`, and how often the target was run. -/
structure Machine (World : Type) where
  executions : Nat
  runs : Nat
  world : World

abbrev Stage (World Value : Type) :=
  Procedure Error (Machine World) Value

/-- What does not concern the counter. -/
def onWorld (act : Procedure Error World Value) : Stage World Value :=
  ExceptT.mk fun machine =>
    ((act.outcome machine.world).1,
      { machine with world := (act.outcome machine.world).2 })

/-- `*state.executions_mut() += 1`. -/
def countExecution : Stage World Unit :=
  modify fun machine => { machine with executions := machine.executions + 1 }

/-- `executor.run_target`. -/
def runTarget
    (executor : Executor Input World)
    (input : Input) : Stage World ExitKind := do
  modify fun machine => { machine with runs := machine.runs + 1 }
  onWorld (executor.runTarget input)

section

variable (executor : Executor Input World)

/-- `StdFuzzer::execute_input`. -/
def executeInput (input : Input) : Stage World ExitKind := do
  onWorld (executor.preExecAll input)
  countExecution
  let exitKind ← runTarget executor input
  onWorld (executor.postExecAll input exitKind)
  pure exitKind

/-- `perform_minification` runs an input, also the one that replaces the entry. -/
def minify (input : Input) : Stage World ExitKind := do
  let exitKind ← executeInput executor input
  countExecution
  pure exitKind

/-- The first run of `CalibrationStage::perform`; `log` warns of an error. -/
def calibrateFirst (log : Procedure Error World Unit) (input : Input) :
    Stage World ExitKind := do
  onWorld (executor.preExecAll input)
  let exitKind ← runTarget executor input
  if exitKind = .errored then onWorld log
  onWorld (executor.postExecAll input exitKind)
  pure exitKind

/-- Its later runs; one that errored has no `post_exec`. -/
def calibrateAgain (log : Procedure Error World Unit) (input : Input) :
    Stage World ExitKind := do
  onWorld (executor.preExecAll input)
  let exitKind ← runTarget executor input
  if exitKind = .errored then onWorld log
  else onWorld (executor.postExecAll input exitKind)
  pure exitKind

/-- `ColorizationStage::get_raw_map_hash_run`. -/
def getRawMapHashRun (input : Input) : Stage World Nat := do
  onWorld (executor.preExecAll input)
  let exitKind ← runTarget executor input
  let hash ← onWorld executor.mapHash
  onWorld (executor.postExecAll input exitKind)
  pure hash

/-- A run in `MapCorpusMinimizer::minimize`. -/
def minimizerRun (input : Input) : Stage World Unit := do
  onWorld (executor.preExecAll input)
  let exitKind ← runTarget executor input
  onWorld (executor.postExecAll input exitKind)

/-- Run the target, and count the run if it did not fail. -/
def runAndCount (input : Input) : Stage World Unit := do
  onWorld (executor.preExecAll input)
  let exitKind ← runTarget executor input
  countExecution
  onWorld (executor.postExecAll input exitKind)

/-- `GeneralizationStage::verify_input`. -/
def verifyInput (novelties : List Nat) (input : Input) : Stage World Bool := do
  runAndCount executor input
  let count ← onWorld (executor.howManySet novelties)
  pure (count = novelties.length)

/-- `TracingStage::trace`. -/
def trace (input : Input) : Stage World Unit :=
  runAndCount executor input

/-- `ShadowExecutor`: the shadow observers come first. -/
def shadowed (shadow : Executor Input World) : Executor Input World :=
  { executor with
    preExecAll := fun input => do
      shadow.preExecAll input
      executor.preExecAll input
    postExecAll := fun input exitKind => do
      shadow.postExecAll input exitKind
      executor.postExecAll input exitKind }

/-- `ShadowTracingStage::perform`, after it has got the input. -/
def shadowTrace (shadow : Executor Input World) (input : Input) : Stage World Unit :=
  runAndCount (shadowed executor shadow) input

end

/-- Where the target is run, by which executor and with which input. -/
inductive Site (Input World : Type) where
  | executeInput (executor : Executor Input World) (input : Input)
  | minify (executor : Executor Input World) (input : Input)
  | calibrateFirst
      (executor : Executor Input World) (log : Procedure Error World Unit) (input : Input)
  | calibrateAgain
      (executor : Executor Input World) (log : Procedure Error World Unit) (input : Input)
  | getRawMapHashRun (executor : Executor Input World) (input : Input)
  | minimizerRun (executor : Executor Input World) (input : Input)
  | verifyInput (executor : Executor Input World) (novelties : List Nat) (input : Input)
  | trace (executor : Executor Input World) (input : Input)
  | shadowTrace (executor shadow : Executor Input World) (input : Input)
  | elsewhere (act : Procedure Error World Unit)

/-- The state that a site leaves, on success and on error. -/
def after (machine : Machine World) : Site Input World → Machine World
  | .executeInput executor input => ((executeInput executor input).outcome machine).2
  | .minify executor input => ((minify executor input).outcome machine).2
  | .calibrateFirst executor log input =>
      ((calibrateFirst executor log input).outcome machine).2
  | .calibrateAgain executor log input =>
      ((calibrateAgain executor log input).outcome machine).2
  | .getRawMapHashRun executor input =>
      ((getRawMapHashRun executor input).outcome machine).2
  | .minimizerRun executor input => ((minimizerRun executor input).outcome machine).2
  | .verifyInput executor novelties input =>
      ((verifyInput executor novelties input).outcome machine).2
  | .trace executor input => ((trace executor input).outcome machine).2
  | .shadowTrace executor shadow input =>
      ((shadowTrace executor shadow input).outcome machine).2
  | .elsewhere act => ((onWorld act).outcome machine).2

/-- One site after the other, in any order. -/
def Step : StepRelation (Machine World) (Site Input World) :=
  fun machine site next => next = after machine site

section

open Procedure

/-- Both counters have come to these values. -/
def Counted (executions runs : Nat) (machine : Machine World) : Prop :=
  machine.executions = executions ∧ machine.runs = runs

variable {executions runs : Nat}
variable {executor : Executor Input World}
variable {input : Input}
variable {machine : Machine World}

/-- A procedure that neither runs the target nor counts. -/
def Quiet (stage : Stage World Value) : Prop :=
  ∀ executions runs, Keeps (Counted executions runs) stage

namespace Quiet

theorem onWorld (act : Procedure Error World Value) :
    Quiet (onWorld act) :=
  fun _ _ => Keeps.of_left fun _ counted => counted

theorem pure (value : Value) :
    Quiet (pure value : Stage World Value) :=
  fun _ _ => Keeps.pure

theorem bind
    {Result : Type}
    {stage : Stage World Value}
    {rest : Value → Stage World Result}
    (first : Quiet stage)
    (next : ∀ value, Quiet (rest value)) :
    Quiet (stage >>= rest) :=
  fun executions runs =>
    (first executions runs).bind fun value => next value executions runs

end Quiet

theorem outcome_onWorld_ok
    {act : Procedure Error World Value}
    {value : Value}
    {world : World}
    (told : act.outcome machine.world = (.ok value, world)) :
    (onWorld act).outcome machine = (.ok value, { machine with world := world }) := by
  change ((act.outcome machine.world).1, { machine with world := _ }) = _
  rw [told]

theorem outcome_onWorld_error
    {act : Procedure Error World Value}
    {error : Error}
    {world : World}
    (told : act.outcome machine.world = (.error error, world)) :
    (onWorld act).outcome machine = (.error error, { machine with world := world }) := by
  change ((act.outcome machine.world).1, { machine with world := _ }) = _
  rw [told]

/-- The observers are ready, so the target is run. -/
def Starts (executor : Executor Input World) (input : Input) (world : World) : Prop :=
  ∃ started, (executor.preExecAll input).outcome world = (.ok (), started)

/-- The target is run, and the executor does not fail. -/
def Finishes (executor : Executor Input World) (input : Input) (world : World) : Prop :=
  ∃ started exitKind finished,
    (executor.preExecAll input).outcome world = (.ok (), started) ∧
      (executor.runTarget input).outcome started = (.ok exitKind, finished)

/-- No part of an execution fails. -/
def Succeeds (executor : Executor Input World) (input : Input) (world : World) : Prop :=
  ∃ started exitKind finished observed,
    (executor.preExecAll input).outcome world = (.ok (), started) ∧
      (executor.runTarget input).outcome started = (.ok exitKind, finished) ∧
      (executor.postExecAll input exitKind).outcome finished = (.ok (), observed)

theorem counted_after
    {procedure : Stage World Value}
    (leaves :
      Satisfies (fun now => now = machine) procedure
        (fun _ => Counted executions runs) fun _ => Counted executions runs) :
    Counted executions runs (procedure.outcome machine).2 := by
  have left := leaves machine rfl
  cases told : procedure.outcome machine with
  | mk answer next =>
      rw [told] at left
      cases answer with
      | error _ =>
          exact left
      | ok _ =>
          exact left

/-- The counter says how often the target was run. -/
def Exact (machine : Machine World) : Prop :=
  machine.executions = machine.runs

theorem Counted.exact_iff (counted : Counted executions runs machine) :
    Exact machine ↔ executions = runs := by
  unfold Exact
  rw [counted.1, counted.2]

theorem exact_started
    (exact : Exact machine)
    {rest : Stage World Value}
    {Counts : Prop}
    (started :
      ∀ world,
        (executor.preExecAll input).outcome machine.world = (.ok (), world) →
        (Exact ((rest.outcome { machine with world := world }).2) ↔ Counts)) :
    Exact
        (outcome
          (do
            onWorld (executor.preExecAll input)
            rest)
          machine).2 ↔
      (Starts executor input machine.world → Counts) := by
  cases told : (executor.preExecAll input).outcome machine.world with
  | mk answer world =>
      cases answer with
      | error error =>
          rw [outcome_bind_error (outcome_onWorld_error told)]
          refine iff_of_true exact ?_
          rintro ⟨_, starts⟩
          cases told.symm.trans starts
      | ok _ =>
          rw [outcome_bind_ok (outcome_onWorld_ok told)]
          refine (started world told).trans ?_
          exact ⟨fun counts _ => counts, fun counts => counts ⟨world, told⟩⟩

theorem counted_runTarget :
    Satisfies (Counted executions runs) (runTarget executor input)
      (fun _ => Counted executions (runs + 1)) fun _ => Counted executions (runs + 1) := by
  rintro machine ⟨rfl, rfl⟩
  unfold runTarget
  rw [outcome_bind_ok (outcome_modify _)]
  exact Quiet.onWorld _ _ _ _ ⟨rfl, rfl⟩

theorem not_exact_of_uncounted
    (exact : Exact machine)
    {rest : ExitKind → Stage World Value}
    (quiet : ∀ exitKind, Quiet (rest exitKind))
    (world : World) :
    ¬Exact
      (outcome
        (do
          let exitKind ← runTarget executor input
          rest exitKind)
        { machine with world := world }).2 := by
  have runs :
      Satisfies (fun now => now = { machine with world := world })
        (do
          let exitKind ← runTarget executor input
          rest exitKind)
        (fun _ => Counted machine.executions (machine.runs + 1))
        fun _ => Counted machine.executions (machine.runs + 1) := by
    refine Satisfies.bind ?_ fun exitKind => quiet exitKind _ _
    rintro _ rfl
    exact counted_runTarget _ ⟨rfl, rfl⟩
  rw [(counted_after runs).exact_iff, exact]
  exact Nat.ne_of_lt (Nat.lt_succ_self _)

variable {log : Procedure Error World Unit}

theorem exact_calibrateFirst (exact : Exact machine) :
    Exact ((calibrateFirst executor log input).outcome machine).2 ↔
      ¬Starts executor input machine.world := by
  refine exact_started exact fun world _ => iff_of_false ?_ id
  refine not_exact_of_uncounted exact (fun exitKind => ?_) world
  split
  · exact (Quiet.onWorld _).bind fun _ => (Quiet.onWorld _).bind fun _ => .pure _
  · exact (Quiet.onWorld _).bind fun _ => .pure _

theorem exact_calibrateAgain (exact : Exact machine) :
    Exact ((calibrateAgain executor log input).outcome machine).2 ↔
      ¬Starts executor input machine.world := by
  refine exact_started exact fun world _ => iff_of_false ?_ id
  refine not_exact_of_uncounted exact (fun exitKind => ?_) world
  split
  · exact (Quiet.onWorld _).bind fun _ => .pure _
  · exact (Quiet.onWorld _).bind fun _ => .pure _

theorem exact_getRawMapHashRun (exact : Exact machine) :
    Exact ((getRawMapHashRun executor input).outcome machine).2 ↔
      ¬Starts executor input machine.world := by
  refine exact_started exact fun world _ => iff_of_false ?_ id
  refine not_exact_of_uncounted exact (fun exitKind => ?_) world
  exact (Quiet.onWorld _).bind fun _ => (Quiet.onWorld _).bind fun _ => .pure _

theorem exact_minimizerRun (exact : Exact machine) :
    Exact ((minimizerRun executor input).outcome machine).2 ↔
      ¬Starts executor input machine.world := by
  refine exact_started exact fun world _ => iff_of_false ?_ id
  exact not_exact_of_uncounted exact (fun _ => Quiet.onWorld _) world

theorem outcome_runTarget_ok
    {exitKind : ExitKind}
    {world : World}
    (told : (executor.runTarget input).outcome machine.world = (.ok exitKind, world)) :
    (runTarget executor input).outcome machine =
      (.ok exitKind, { machine with runs := machine.runs + 1, world := world }) := by
  unfold runTarget
  rw [outcome_bind_ok (outcome_modify _)]
  exact outcome_onWorld_ok told

theorem outcome_runTarget_error
    {error : Error}
    {world : World}
    (told : (executor.runTarget input).outcome machine.world = (.error error, world)) :
    (runTarget executor input).outcome machine =
      (.error error, { machine with runs := machine.runs + 1, world := world }) := by
  unfold runTarget
  rw [outcome_bind_ok (outcome_modify _)]
  exact outcome_onWorld_error told

theorem exact_executeInput (exact : Exact machine) :
    Exact ((executeInput executor input).outcome machine).2 := by
  have whenStarted :
      Exact ((executeInput executor input).outcome machine).2 ↔
        (Starts executor input machine.world → True) := by
    refine exact_started exact fun world _ => iff_of_true ?_ trivial
    have counted :
        Satisfies (fun now => now = { machine with world := world })
          (do
            countExecution
            let exitKind ← runTarget executor input
            onWorld (executor.postExecAll input exitKind)
            pure exitKind)
          (fun _ => Counted (machine.executions + 1) (machine.runs + 1))
          fun _ => Counted (machine.executions + 1) (machine.runs + 1) := by
      rintro _ rfl
      rw [countExecution, outcome_bind_ok (outcome_modify _)]
      refine Satisfies.bind counted_runTarget (fun exitKind => ?_) _ ⟨rfl, rfl⟩
      exact ((Quiet.onWorld _).bind fun _ => .pure _) _ _
    rw [(counted_after counted).exact_iff, exact]
  exact whenStarted.mpr fun _ => trivial

theorem executeInput_returns_iff :
    (∃ exitKind next,
      (executeInput executor input).outcome machine = (.ok exitKind, next)) ↔
        Succeeds executor input machine.world := by
  unfold executeInput
  cases started : (executor.preExecAll input).outcome machine.world with
  | mk answer world =>
  cases answer with
  | error error =>
      rw [outcome_bind_error (outcome_onWorld_error started)]
      refine iff_of_false (fun ⟨_, _, returned⟩ => nomatch returned) ?_
      rintro ⟨_, _, _, _, starts, -, -⟩
      cases started.symm.trans starts
  | ok _ =>
  rw [outcome_bind_ok (outcome_onWorld_ok started), countExecution,
    outcome_bind_ok (outcome_modify _)]
  cases ran : (executor.runTarget input).outcome world with
  | mk answer finished =>
  cases answer with
  | error error =>
      rw [outcome_bind_error (outcome_runTarget_error ran)]
      refine iff_of_false (fun ⟨_, _, returned⟩ => nomatch returned) ?_
      rintro ⟨_, _, _, _, starts, runs, -⟩
      cases started.symm.trans starts
      cases ran.symm.trans runs
  | ok exitKind =>
  rw [outcome_bind_ok (outcome_runTarget_ok ran)]
  cases seen : (executor.postExecAll input exitKind).outcome finished with
  | mk answer observed =>
  cases answer with
  | error error =>
      rw [outcome_bind_error (outcome_onWorld_error seen)]
      refine iff_of_false (fun ⟨_, _, returned⟩ => nomatch returned) ?_
      rintro ⟨_, _, _, _, starts, runs, sees⟩
      cases started.symm.trans starts
      cases ran.symm.trans runs
      cases seen.symm.trans sees
  | ok _ =>
      rw [outcome_bind_ok (outcome_onWorld_ok seen)]
      exact iff_of_true ⟨_, _, rfl⟩ ⟨world, exitKind, finished, observed, started, ran, seen⟩

/-- `perform_minification` counts an execution for the second time. -/
theorem exact_minify (exact : Exact machine) :
    Exact ((minify executor input).outcome machine).2 ↔
      ¬Succeeds executor input machine.world := by
  have once : Exact ((executeInput executor input).outcome machine).2 :=
    exact_executeInput exact
  rw [← executeInput_returns_iff]
  cases told : (executeInput executor input).outcome machine with
  | mk answer next =>
      rw [told] at once
      unfold minify
      cases answer with
      | error error =>
          rw [outcome_bind_error told]
          exact iff_of_true once fun ⟨_, _, returned⟩ => nomatch returned
      | ok exitKind =>
          rw [outcome_bind_ok told]
          refine iff_of_false (fun twice => ?_) fun fails => fails ⟨_, _, rfl⟩
          exact Nat.succ_ne_self next.runs ((congrArg Nat.succ once).symm.trans twice)

theorem exact_runAndCount (exact : Exact machine) :
    Exact ((runAndCount executor input).outcome machine).2 ↔
      (Starts executor input machine.world → Finishes executor input machine.world) := by
  refine exact_started exact fun world started => ?_
  cases ran : (executor.runTarget input).outcome world with
  | mk answer finished =>
      cases answer with
      | error error =>
          rw [outcome_bind_error (outcome_runTarget_error ran)]
          refine iff_of_false ?_ ?_
          · exact fun equal => Nat.ne_of_lt (Nat.lt_succ_self _) (exact.symm.trans equal)
          · rintro ⟨_, _, _, starts, runs⟩
            cases started.symm.trans starts
            cases ran.symm.trans runs
      | ok exitKind =>
          rw [outcome_bind_ok (outcome_runTarget_ok ran), countExecution,
            outcome_bind_ok (outcome_modify _)]
          refine iff_of_true ?_ ⟨world, exitKind, finished, started, ran⟩
          exact congrArg Nat.succ exact

theorem exact_bind
    {Result : Type}
    {stage : Stage World Value}
    {rest : Value → Stage World Result}
    (quiet : ∀ value, Quiet (rest value)) :
    Exact ((stage >>= rest).outcome machine).2 ↔ Exact (stage.outcome machine).2 := by
  cases told : stage.outcome machine with
  | mk answer next =>
      cases answer with
      | error error =>
          rw [outcome_bind_error told]
      | ok value =>
          rw [outcome_bind_ok told]
          exact ((quiet value _ _).left ⟨rfl, rfl⟩).exact_iff

theorem exact_verifyInput
    (exact : Exact machine)
    {novelties : List Nat} :
    Exact ((verifyInput executor novelties input).outcome machine).2 ↔
      (Starts executor input machine.world → Finishes executor input machine.world) :=
  (exact_bind fun _ => (Quiet.onWorld _).bind fun _ => .pure _).trans
    (exact_runAndCount exact)

end

/-- When a site counts as many executions as it runs the target. -/
def CountsOnce (machine : Machine World) : Site Input World → Prop
  | .executeInput _ _ => True
  | .minify executor input => ¬Succeeds executor input machine.world
  | .calibrateFirst executor _ input => ¬Starts executor input machine.world
  | .calibrateAgain executor _ input => ¬Starts executor input machine.world
  | .getRawMapHashRun executor input => ¬Starts executor input machine.world
  | .minimizerRun executor input => ¬Starts executor input machine.world
  | .verifyInput executor _ input =>
      Starts executor input machine.world → Finishes executor input machine.world
  | .trace executor input =>
      Starts executor input machine.world → Finishes executor input machine.world
  | .shadowTrace executor shadow input =>
      Starts (shadowed executor shadow) input machine.world →
      Finishes (shadowed executor shadow) input machine.world
  | .elsewhere _ => True

theorem exact_after
    {machine : Machine World}
    (exact : Exact machine)
    (site : Site Input World) :
    Exact (after machine site) ↔ CountsOnce machine site := by
  cases site with
  | executeInput executor input =>
      exact iff_of_true (exact_executeInput exact) trivial
  | minify executor input =>
      exact exact_minify exact
  | calibrateFirst executor log input =>
      exact exact_calibrateFirst exact
  | calibrateAgain executor log input =>
      exact exact_calibrateAgain exact
  | getRawMapHashRun executor input =>
      exact exact_getRawMapHashRun exact
  | minimizerRun executor input =>
      exact exact_minimizerRun exact
  | verifyInput executor novelties input =>
      exact exact_verifyInput exact
  | trace executor input =>
      exact exact_runAndCount exact
  | shadowTrace executor shadow input =>
      exact exact_runAndCount exact
  | elsewhere act =>
      exact iff_of_true exact trivial

/-- A fuzzer that has not run the target yet. -/
def fresh (world : World) : Machine World :=
  { executions := 0, runs := 0, world := world }

/--
The counter stays exact just as long as no entry is minimized, calibrated or
colorized, no corpus is minimized, and no target fails while a stage generalizes
or traces.
-/
theorem executions_count_runs_iff
    (world : World)
    (sites : List (Site Input World)) :
    Run.Always Step Exact (fresh world) sites ↔
      Run.Everywhere Step CountsOnce (fresh world) sites := by
  have initially : Exact (fresh world) := rfl
  refine Run.always_iff_everywhere ?_ initially sites
  rintro machine site next exact rfl
  exact exact_after exact site

/-- A target that always ends well, with observers that see nothing. -/
def steadyExecutor : Executor (List Nat) Unit where
  preExecAll := fun _ => pure ()
  runTarget := fun _ => pure .ok
  postExecAll := fun _ _ => pure ()
  mapHash := pure 0
  howManySet := fun _ => pure 0

/-- The first run of the calibration is not counted. -/
theorem calibration_is_not_counted :
    ¬Run.Always Step Exact (fresh ())
      [.calibrateFirst steadyExecutor (pure ()) []] := by
  intro always
  have exact :=
    always [.calibrateFirst steadyExecutor (pure ()) []] _ (List.prefix_refl _)
      (.single rfl)
  change 0 = 1 at exact
  exact absurd exact (by decide)

end MeFuzz.Execution
