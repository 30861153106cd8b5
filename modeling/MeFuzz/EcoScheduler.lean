import MeFuzz.TransitionRun
import MeFuzz.SchedulerState

namespace MeFuzz.Scheduler

open Corpus (CorpusId Error InMemoryCorpus)

/-!
# The scheduler of EcoFuzz

Each call of `next` marks the entry scheduled before as fuzzed and then selects
the next one.  While some entries were fuzzed and others were not, the first
one that was not is selected; otherwise the energies decide.
-/

variable {Input : Type}

namespace EcoScheduler

/-- The loop of `integer_sqrt`. -/
def integerSqrtLoop (val : Nat) : Nat → Nat → Nat → Nat
  | 0, i, _ => i - 1
  | fuel + 1, i, r =>
      if r ≤ val then integerSqrtLoop val fuel (i + 1) (i * i) else i - 1

/-- `integer_sqrt`. -/
def integerSqrt (val : Nat) : Nat :=
  integerSqrtLoop val (val + 3) 0 0

/-- `state.metadata().get::<EcoMetadata>()`, which must be there. -/
def getMetadata : Hook Input EcoMetadata := do
  let state ← get
  orKeyNotFound "EcoMetadata not found" state.eco

/-- Write the `EcoMetadata` of the state. -/
def setMetadata (data : EcoMetadata) : Hook Input Unit :=
  modify fun state => { state with eco := some data }

/-- The `EcoTestcaseMetadata` of an entry, which must be there. -/
def getTestcaseMetadata (id : CorpusId) : Hook Input EcoTestcaseMetadata := do
  let testcase ← getTestcase id
  orKeyNotFound "EcoTestcaseMetadata not found" testcase.ecoMeta

/-- A testcase with other `EcoTestcaseMetadata`. -/
def withMetadata
    (data : EcoTestcaseMetadata)
    (testcase : Testcase Input) : Testcase Input :=
  { testcase with ecoMeta := some data }

/-- Write the `EcoTestcaseMetadata` of an entry. -/
def setTestcaseMetadata
    (id : CorpusId)
    (data : EcoTestcaseMetadata) : Hook Input Unit :=
  updateTestcase id (withMetadata data)

/-- `EcoScheduler::new`, as far as it changes the state. -/
def new (state : State Input) : State Input :=
  { state with
    schedulerMetadata := some (state.schedulerMetadata.getD .new)
    eco := some (state.eco.getD .default) }

/-- `EcoScheduler::on_add`. -/
def onAdd
    (lastHash : Nat)
    (idx : CorpusId) : Hook Input Unit := do
  attachSchedulerMeta lastHash idx
  let _ ← getTestcase idx
  setTestcaseMetadata idx .default
  let state ← get
  let data ← getMetadata
  let sinceLast ← checkedSub state.executions data.lastExecutions
  setMetadata { data with lastFindIteration := sinceLast + 1 }

/-- `EcoScheduler::on_replace`. -/
def onReplace
    (lastHash : Nat)
    (idx : CorpusId) : Hook Input Unit :=
  onAdd lastHash idx

/-- `EcoScheduler::on_remove`. -/
def onRemove : Hook Input Unit :=
  pure ()

/-- `EcoScheduler::on_evaluation`; what it returns is the new `last_hash`. -/
def onEvaluation (observed : Option Nat) : Hook Input Nat := do
  let hash ← countRun observed
  let state ← get
  match state.corpus.current with
  | some id => do
      let data ← getTestcaseMetadata id
      let data := { data with mutationNum := data.mutationNum + 1 }
      setTestcaseMetadata id data
      let testcase ← getTestcase id
      let entry ←
        orKeyNotFound "SchedulerTestcaseMetaData not found"
          testcase.schedulerMeta
      if entry.nFuzzEntry = hash then
        setTestcaseMetadata id
          { data with execByMutation := data.execByMutation + 1 }
      pure hash
  | none => pure hash

/-- The rate of the regrets after one more of them. -/
def withRegret
    (data : EcoMetadata)
    (count : Nat)
    (computedScore : Float) : EcoMetadata :=
  let regret := Float.ofNat data.lastFindIteration / computedScore
  let regret := if regret == 0.0 then 1.1 else regret
  let calculateCoe := Float.ofNat data.calculateCoe
  let rate := (data.rate * calculateCoe + regret) / (calculateCoe + 1.0)
  { data with
    rate := if 1.5 < rate then 1.5 else if rate < 0.1 then 0.1 else rate
    calculateCoe := min (data.calculateCoe + 1) (count / 100) }

/-- `EcoScheduler::handle_previous`. -/
def handlePrevious (id : CorpusId) : Hook Input Unit := do
  let state ← get
  let count := state.corpus.count
  let data ← getMetadata
  let previous ← getTestcaseMetadata id
  let lastFound ← checkedSub count data.lastCorpusCount
  let lastEnergy ← checkedSub previous.mutationNum data.lastMutationNum
  setTestcaseMetadata id
    { previous with
      wasFuzzed := true
      lastFound := lastFound
      lastEnergy := lastEnergy }
  setMetadata (withRegret data count previous.computedScore)

/-- `EcoScheduler::first_iteration`. -/
def firstIteration : Hook Input Unit := do
  let state ← get
  let data ← getMetadata
  setMetadata
    { data with
      initialCorpusCount :=
        some (data.initialCorpusCount.getD state.corpus.count) }

/-- The first loop of `schedule`: an entry that was not fuzzed. -/
def findUnfuzzed : List CorpusId → Hook Input (Option CorpusId)
  | [] => pure none
  | id :: rest => do
      let data ← getTestcaseMetadata id
      if data.wasFuzzed then findUnfuzzed rest else pure (some id)

/-- The second loop of `schedule`: whether an entry was fuzzed. -/
def anyFuzzed : List CorpusId → Hook Input Bool
  | [] => pure false
  | id :: rest => do
      let data ← getTestcaseMetadata id
      if data.wasFuzzed then pure true else anyFuzzed rest

/-- The walk of `schedule` to an entry that is not in exploitation. -/
def findUnexploited : List CorpusId → Hook Input (Option CorpusId)
  | [] => pure none
  | id :: rest => do
      let data ← getTestcaseMetadata id
      if data.state = .exploitation then findUnexploited rest
      else pure (some id)

/-- The exploitation of every entry starts over. -/
def resetStates : List CorpusId → Hook Input Unit
  | [] => pure ()
  | id :: rest => do
      let data ← getTestcaseMetadata id
      setTestcaseMetadata id { data with state := .none }
      resetStates rest

/-- A product of three numbers, which panics beyond `u64`. -/
def checkedProduct (first second third : Nat) : Except Error Nat :=
  if first * second ≤ maxU64 ∧ first * second * third ≤ maxU64 then
    .ok (first * second * third)
  else .error .panicked

/-- The last loop of `schedule`: the entry with the fewest runs of its own. -/
def selectBest :
    List CorpusId → CorpusId → EcoTestcaseMetadata → Hook Input CorpusId
  | [], selection, _ => pure selection
  | id :: rest, selection, selectionMeta => do
      let data ← getTestcaseMetadata id
      let own ←
        checkedProduct data.execByMutation selectionMeta.mutationNum
          (integerSqrt selectionMeta.serial)
      let selected ←
        checkedProduct selectionMeta.execByMutation data.mutationNum
          (integerSqrt data.serial)
      if own < selected ∧ data.state = .none then selectBest rest id data
      else selectBest rest selection selectionMeta

/-- `EcoScheduler::schedule`. -/
def schedule : Hook Input CorpusId := do
  let state ← get
  let ids := state.corpus.ids
  let selection ← findUnfuzzed ids
  if ← anyFuzzed ids then
    let data ← getMetadata
    setMetadata { data with state := .exploration }
    orPanic selection
  else
    let data ← getMetadata
    setMetadata { data with state := .exploitation }
    let cur ←
      match ← findUnexploited ids with
      | some id => pure (some id)
      | none => do
          resetStates ids
          pure state.corpus.first
    let selection ← orPanic cur
    let selectionMeta ← getTestcaseMetadata selection
    selectBest ids selection selectionMeta

/-- What `next` notes of the entry that was selected. -/
def noteSelection (id : CorpusId) : Hook Input Unit := do
  setCurrent (some id)
  let selected ← getTestcaseMetadata id
  let state ← get
  let data ← getMetadata
  setMetadata
    { data with
      lastMutationNum := selected.mutationNum
      lastCorpusCount := state.corpus.count
      lastExecutions := state.executions }

/-- What `next` does about the entry that was scheduled before. -/
def finishCurrent : Hook Input Unit := do
  let state ← get
  match state.corpus.current with
  | some id => handlePrevious id
  | none => firstIteration

/-- `EcoScheduler::next`. -/
def next : Hook Input CorpusId := do
  finishCurrent
  let id ← schedule
  noteSelection id
  pure id

/-- The energy of an entry. -/
def energy
    (data : EcoMetadata)
    (entry : EcoTestcaseMetadata)
    (averageCost : Nat) : Nat :=
  let energy :=
    if data.state = .exploitation then
      if entry.lastFound = 0 then min (2 * entry.lastEnergy) (16 * averageCost)
      else min entry.lastEnergy (16 * averageCost)
    else 0
  if energy = 0 then
    if averageCost < entry.execNum then averageCost / 4
    else if averageCost / 2 < entry.execNum then averageCost / 2
    else averageCost
  else energy

/-- The metadata of an entry with its score. -/
def scored
    (data : EcoMetadata)
    (entry : EcoTestcaseMetadata)
    (averageCost : Nat) : EcoTestcaseMetadata :=
  { entry with
    state := if data.state = .exploitation then .exploitation else entry.state
    computedScore := Float.ofNat (energy data entry averageCost) * data.rate }

/-- `EcoTestcaseScore::compute`, for an entry of the corpus. -/
def compute (idx : CorpusId) : Hook Input Float := do
  let testcase ← getTestcase idx
  let state ← get
  let averageCost ←
    orPanic
      (if state.executions = 0 then none
      else some (state.corpus.count / state.executions))
  let averageCost := if averageCost = 0 then 1024 else averageCost
  let data ← getMetadata
  let entry ←
    orKeyNotFound "EcoTestcaseMetadata not found" testcase.ecoMeta
  setTestcaseMetadata idx (scored data entry averageCost)
  pure (scored data entry averageCost).computedScore

end EcoScheduler

end MeFuzz.Scheduler
