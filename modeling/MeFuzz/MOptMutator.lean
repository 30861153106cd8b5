import MeFuzz.MOptScheduler
import MeFuzz.MutatorDraws

namespace MeFuzz.MOptScheduler

open Procedure
open Mutators (MutationResult)

/-!
# Mutators that MOpt schedules

The mutators of a node share one scheduler.  Each has its own mode; what they count is
in the state that they share, so a swarm that one of them has started may be ended by
another.
-/

/-- `MOptMode`. -/
inductive MOptMode where
  | pilotfuzzing
  | corefuzzing
  deriving Repr, DecidableEq

/-- `StdMOptMutator`, without its mutations. -/
structure StdMOptMutator where
  mode : MOptMode
  findsBefore : Nat
  deriving Repr, DecidableEq

/-- The failure of a result that is unwrapped. -/
def Failure.unwrap : Failure → Failure
  | .error raised => .unwrapped raised
  | failure => failure

namespace OperatorCounters

variable {operatorNum : Nat}
variable (counters : OperatorCounters operatorNum)
variable (operator : Fin operatorNum)

/-- The cycles till now become those till the last execution. -/
def keepCycles : OperatorCounters operatorNum :=
  { counters with
    operatorCyclesV3 :=
      Function.update counters.operatorCyclesV3 operator
        (counters.operatorCyclesV2 operator) }

/-- One more cycle of an operator. -/
def addCycle (idx : Nat) : Except Failure (OperatorCounters operatorNum) := do
  let cycles ← entry counters.operatorCyclesV2 idx
  let cycles ← addU64 cycles 1
  if isOperator : idx < operatorNum then
    .ok { counters with
      operatorCyclesV2 :=
        Function.update counters.operatorCyclesV2 ⟨idx, isOperator⟩ cycles }
  else .error .outOfTable

/-- New finds of an operator that has been used since the last execution. -/
def addFinds (diff : Nat) : Except Failure (OperatorCounters operatorNum) :=
  if counters.operatorCyclesV3 operator < counters.operatorCyclesV2 operator then do
    let finds ← addU64 (counters.operatorFindsV2 operator) diff
    .ok { counters with
      operatorFindsV2 := Function.update counters.operatorFindsV2 operator finds }
  else .ok counters

/-- What has been counted till now is kept for `pso_update`. -/
def keep : OperatorCounters operatorNum :=
  { counters with
    operatorFinds :=
      Function.update counters.operatorFinds operator
        (counters.operatorFindsV2 operator)
    operatorCycles :=
      Function.update counters.operatorCycles operator
        (counters.operatorCyclesV2 operator) }

/-- Counting goes on from what has been kept for `pso_update`. -/
def goBack : OperatorCounters operatorNum :=
  { counters with
    operatorCyclesV2 :=
      Function.update counters.operatorCyclesV2 operator
        (counters.operatorCycles operator)
    operatorCyclesV3 :=
      Function.update counters.operatorCyclesV3 operator
        (counters.operatorCycles operator)
    operatorFindsV2 :=
      Function.update counters.operatorFindsV2 operator
        (counters.operatorFinds operator) }

end OperatorCounters

section

variable {Number Rand : Type}
variable {operatorNum swarmNum : Nat}

/-- A change of the counters of core mode. -/
def changeCore
    (change : OperatorCounters operatorNum → Except Failure (OperatorCounters operatorNum)) :
    Procedure Failure (MOpt Number Rand operatorNum swarmNum) Unit := do
  let core ← change (← get).core
  modify fun mopt => { mopt with core }

/-- A change of the entries of a swarm. -/
def changeSwarm
    (swarm : Nat)
    (change : Swarm Number operatorNum → Except Failure (Swarm Number operatorNum)) :
    Procedure Failure (MOpt Number Rand operatorNum swarmNum) Unit := do
  if isSwarm : swarm < swarmNum then do
    let entries ← change ((← get).swarms ⟨swarm, isSwarm⟩)
    modify (MOpt.setSwarm · ⟨swarm, isSwarm⟩ entries)
  else throw .outOfTable

/-- A change of what a swarm counts in pilot mode. -/
def changePilot
    (swarm : Nat)
    (change : OperatorCounters operatorNum → Except Failure (OperatorCounters operatorNum)) :
    Procedure Failure (MOpt Number Rand operatorNum swarmNum) Unit :=
  changeSwarm swarm fun entries => do
    let pilot ← change entries.pilot
    .ok { entries with pilot }

variable [OfScientific Number] [LT Number] [DecidableLT Number]
variable [Add Number] [Sub Number] [Mul Number] [Div Number]
variable (generator : Generator Rand)

/-- `StdMOptMutator::schedule`. -/
def schedule : Procedure Failure (MOpt Number Rand operatorNum swarmNum) Nat :=
  ExceptT.adapt Failure.unwrap (selectAlgorithm generator)

/-- `StdMOptMutator::iterations`, with what is drawn for the exponent. -/
def iterations (draw : Nat) : Except Failure Nat :=
  if 1 + draw < 64 then .ok (1 <<< (1 + draw)) else .error .overflow

/--
What both modes do in `mutate`.  The counters that they change are a parameter, and
so is what the mutation of an index returns in an iteration.
-/
def mutateCounting
    (change :
      (OperatorCounters operatorNum → Except Failure (OperatorCounters operatorNum)) →
        Procedure Failure (MOpt Number Rand operatorNum swarmNum) Unit)
    (draw : Nat)
    (mutations : Nat → Nat → Except Corpus.Error MutationResult) :
    Procedure Failure (MOpt Number Rand operatorNum swarmNum) MutationResult := do
  forM (List.finRange operatorNum) fun i =>
    change fun counters => .ok (counters.keepCycles i)
  let iterations ← iterations draw
  (List.range iterations).foldlM
    (fun r iteration => do
      let idx ← schedule generator
      let outcome ← (mutations iteration idx).mapError Failure.error
      change fun counters => counters.addCycle idx
      pure (if outcome = .mutated then .mutated else r))
    .skipped

/-- `StdMOptMutator::core_mutate`. -/
def coreMutate
    (draw : Nat)
    (mutations : Nat → Nat → Except Corpus.Error MutationResult) :
    Procedure Failure (MOpt Number Rand operatorNum swarmNum) MutationResult :=
  mutateCounting generator changeCore draw mutations

/-- `StdMOptMutator::pilot_mutate`. -/
def pilotMutate
    (draw : Nat)
    (mutations : Nat → Nat → Except Corpus.Error MutationResult) :
    Procedure Failure (MOpt Number Rand operatorNum swarmNum) MutationResult := do
  let swarmNow := (← get).swarmNow
  mutateCounting generator (changePilot swarmNow) draw mutations

/-- `StdMOptMutator::scheduled_mutate`. -/
def scheduledMutate
    (mode : MOptMode)
    (draw : Nat)
    (mutations : Nat → Nat → Except Corpus.Error MutationResult) :
    Procedure Failure (MOpt Number Rand operatorNum swarmNum) MutationResult :=
  match mode with
  | .corefuzzing => coreMutate generator draw mutations
  | .pilotfuzzing => pilotMutate generator draw mutations

/-- The part of `post_exec` for new finds. -/
def countFinds
    (change :
      (OperatorCounters operatorNum → Except Failure (OperatorCounters operatorNum)) →
        Procedure Failure (MOpt Number Rand operatorNum swarmNum) Unit)
    (before after : Nat) :
    Procedure Failure (MOpt Number Rand operatorNum swarmNum) Unit := do
  if before < after then do
    let diff := after - before
    let totalFinds ← addU64 (← get).totalFinds diff
    modify fun mopt => { mopt with totalFinds }
    forM (List.finRange operatorNum) fun i =>
      change fun counters => counters.addFinds i diff
  else pure ()

/-- `post_exec` in core mode, for the mode that the mutator is in afterwards. -/
def postExecCore (before after : Nat) :
    Procedure Failure (MOpt Number Rand operatorNum swarmNum) MOptMode := do
  let coreTime ← addU64 (← get).coreTime 1
  modify fun mopt => { mopt with coreTime }
  countFinds changeCore before after
  let mopt ← get
  if mopt.periodCore < mopt.coreTime then do
    modify fun mopt =>
      { mopt with coreTime := 0, findsUntilLastSwarm := mopt.totalFinds }
    forM (List.finRange operatorNum) fun i =>
      changeCore fun counters => .ok (counters.keep i)
    psoUpdate generator
    pure .pilotfuzzing
  else pure .corefuzzing

/-- `eff` of an operator. -/
def efficiency
    (counters : OperatorCounters operatorNum)
    (operator : Fin operatorNum) : Except Failure Number :=
  if counters.operatorCycles operator < counters.operatorCyclesV2 operator then do
    let finds ←
      subU64 (counters.operatorFindsV2 operator) (counters.operatorFinds operator)
    let cycles ←
      subU64 (counters.operatorCyclesV2 operator) (counters.operatorCycles operator)
    .ok (asF64 finds / asF64 cycles)
  else .ok 0.0

/-- An operator of a swarm at the end of its period. -/
def Swarm.rate
    (entries : Swarm Number operatorNum)
    (operator : Fin operatorNum) : Except Failure (Swarm Number operatorNum) := do
  let eff ← efficiency entries.pilot operator
  let pilot := entries.pilot.keep operator
  if entries.effBest operator < eff then
    .ok { entries with
      effBest := Function.update entries.effBest operator eff
      lBest := Function.update entries.lBest operator (entries.xNow operator)
      pilot }
  else .ok { entries with pilot }

/-- The loop of `post_exec` for the swarm with the best fitness. -/
def MOpt.bestSwarm (mopt : MOpt Number Rand operatorNum swarmNum) : Nat :=
  ((List.finRange swarmNum).foldl
    (fun (best : Number × Nat) i =>
      if best.1 < (mopt.swarms i).swarmFitness then ((mopt.swarms i).swarmFitness, i.val)
      else best)
    (0.0, 0)).2

/-- What `post_exec` does with the swarm whose pilot period ends. -/
def rateSwarm (swarmNow : Nat) :
    Procedure Failure (MOpt Number Rand operatorNum swarmNum) Unit := do
  let mopt ← get
  let newFinds ← subU64 mopt.totalFinds mopt.findsUntilLastSwarm
  let f : Number := asF64 newFinds / (asF64 mopt.pilotTime / 5000.0)
  changeSwarm swarmNow fun entries => .ok { entries with swarmFitness := f }
  modify fun mopt =>
    { mopt with pilotTime := 0, findsUntilLastSwarm := mopt.totalFinds }
  forM (List.finRange operatorNum) fun i =>
    changeSwarm swarmNow fun entries => entries.rate i

/-- What `post_exec` does once the last swarm has been rated. -/
def enterCore : Procedure Failure (MOpt Number Rand operatorNum swarmNum) MOptMode := do
  forM (List.finRange operatorNum) fun i =>
    changeCore fun counters => .ok (counters.goBack i)
  modify fun mopt => { mopt with swarmNow := mopt.bestSwarm }
  pure .corefuzzing

/-- What `post_exec` does after a swarm has been rated. -/
def nextSwarm : Procedure Failure (MOpt Number Rand operatorNum swarmNum) MOptMode := do
  let swarmNow ← addU64 (← get).swarmNow 1
  modify fun mopt => { mopt with swarmNow }
  if swarmNum = 1 then do
    psoUpdate generator
    pure .pilotfuzzing
  else if swarmNow = swarmNum then enterCore
  else pure .pilotfuzzing

/-- `post_exec` in pilot mode, for the mode that the mutator is in afterwards. -/
def postExecPilot (before after : Nat) :
    Procedure Failure (MOpt Number Rand operatorNum swarmNum) MOptMode := do
  let pilotTime ← addU64 (← get).pilotTime 1
  modify fun mopt => { mopt with pilotTime }
  let swarmNow := (← get).swarmNow
  countFinds (changePilot swarmNow) before after
  let mopt ← get
  if mopt.periodPilot < mopt.pilotTime then do
    rateSwarm swarmNow
    nextSwarm generator
  else pure .pilotfuzzing

/-- `StdMOptMutator::post_exec`, for the mode that the mutator is in afterwards. -/
def postExec
    (mutator : StdMOptMutator)
    (after : Nat) :
    Procedure Failure (MOpt Number Rand operatorNum swarmNum) MOptMode :=
  match mutator.mode with
  | .corefuzzing => postExecCore generator mutator.findsBefore after
  | .pilotfuzzing => postExecPilot generator mutator.findsBefore after

/-- A state with its scheduler, and the mutators that work on it. -/
structure Node (Number Rand : Type) (operatorNum swarmNum : Nat) where
  mopt : MOpt Number Rand operatorNum swarmNum
  mutators : List StdMOptMutator

/--
What happens on a node.  The finds are the testcases of the corpus and the solutions
that there are at a call.
-/
inductive Call where
  | create
  | mutate
      (mutator finds draw : Nat)
      (mutations : Nat → Nat → Except Corpus.Error MutationResult)
  | postExec (mutator finds : Nat)

/-- A mutator that `StdMOptMutator::new` gives. -/
def StdMOptMutator.new : StdMOptMutator where
  mode := .pilotfuzzing
  findsBefore := 0

/-- A node after an outcome, unless it has panicked. -/
def Node.after
    {Value : Type}
    (node : Node Number Rand operatorNum swarmNum)
    (returned : Value → List StdMOptMutator) :
    Except Failure Value × MOpt Number Rand operatorNum swarmNum →
      Except Failure (Node Number Rand operatorNum swarmNum)
  | (.ok value, mopt) => .ok { mopt, mutators := returned value }
  | (.error (.error _), mopt) => .ok { node with mopt }
  | (.error failure, _) => .error failure

/-- A call of a mutator, if there is one. -/
def Node.step (node : Node Number Rand operatorNum swarmNum) :
    Call → Except Failure (Node Number Rand operatorNum swarmNum)
  | .create => .ok { node with mutators := node.mutators ++ [.new] }
  | .mutate mutator finds draw mutations =>
      match node.mutators[mutator]? with
      | none => .ok node
      | some called =>
          let mutators :=
            node.mutators.set mutator { called with findsBefore := finds }
          { node with mutators }.after (fun _ => mutators)
            (outcome (scheduledMutate generator called.mode draw mutations) node.mopt)
  | .postExec mutator finds =>
      match node.mutators[mutator]? with
      | none => .ok node
      | some called =>
          node.after (fun mode => node.mutators.set mutator { called with mode })
            (outcome (postExec generator called finds) node.mopt)

/-- The calls on a node, one after the other. -/
def Node.run
    (node : Node Number Rand operatorNum swarmNum)
    (calls : List Call) : Except Failure (Node Number Rand operatorNum swarmNum) :=
  calls.foldlM (Node.step generator) node

end

end MeFuzz.MOptScheduler
