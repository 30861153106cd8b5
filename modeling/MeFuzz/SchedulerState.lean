import MeFuzz.InMemoryCorpus
import MeFuzz.Procedures

namespace MeFuzz.Scheduler

open Corpus (CorpusId Error InMemoryCorpus)

/-!
# The state that schedulers share

A scheduler keeps what it knows in two places: as metadata of the testcases,
and as metadata of the fuzzer state beside the corpus.  Its hooks are procedures
on that state.
-/

/-- `SchedulerTestcaseMetaData`.  The time of `cycle_and_time` is in nanoseconds. -/
structure SchedulerTestcaseMetaData where
  bitmapSize : Nat
  handicap : Nat
  depth : Nat
  nFuzzEntry : Nat
  cycleAndTime : Nat × Nat
  deriving Repr, DecidableEq

/-- `SchedulerTestcaseMetaData::with_n_fuzz_entry`. -/
def SchedulerTestcaseMetaData.withNFuzzEntry
    (depth nFuzzEntry : Nat) : SchedulerTestcaseMetaData :=
  ⟨0, 0, depth, nFuzzEntry, (0, 0)⟩

/-- `SchedulerTestcaseMetaData::new`. -/
def SchedulerTestcaseMetaData.new (depth : Nat) : SchedulerTestcaseMetaData :=
  .withNFuzzEntry depth 0

/-- `EcoState`. -/
inductive EcoState where
  | none
  | exploration
  | exploitation
  deriving Repr, DecidableEq

/-- `EcoTestcaseMetadata`. -/
structure EcoTestcaseMetadata where
  mutationNum : Nat
  execNum : Nat
  execByMutation : Nat
  lastFound : Nat
  line : Nat
  lastEnergy : Nat
  state : EcoState
  serial : Nat
  wasFuzzed : Bool
  computedScore : Float
  deriving DecidableEq

/-- `EcoTestcaseMetadata::default`. -/
def EcoTestcaseMetadata.default : EcoTestcaseMetadata :=
  ⟨0, 0, 0, 0, 0, 0, .none, 0, false, 0⟩

/-- `MapIndexesMetadata` and `AccountingIndexesMetadata`. -/
structure IndexesMetadata where
  list : List Nat
  tcref : Int
  deriving Repr, DecidableEq

/-- `Testcase`, with the metadata that schedulers attach to it. -/
structure Testcase (Input : Type) where
  input : Option Input
  execTime : Option Nat
  fuzzLevel : Nat
  fuzzed : Bool
  schedulerMeta : Option SchedulerTestcaseMetaData
  ecoMeta : Option EcoTestcaseMetadata
  mapIndexes : Option IndexesMetadata
  accountingIndexes : Option IndexesMetadata
  isFavored : Bool
  deriving DecidableEq

/-- `Testcase::new`. -/
def Testcase.new {Input : Type} (input : Input) : Testcase Input :=
  ⟨some input, none, 0, false, none, none, none, none, false⟩

/-- `N_FUZZ_SIZE`, the length of `n_fuzz`. -/
def nFuzzSize : Nat :=
  2 ^ 21

/-- `SchedulerMetadata`. -/
structure SchedulerMetadata where
  execTime : Nat
  cycles : Nat
  bitmapSize : Nat
  bitmapSizeLog : Float
  bitmapEntries : Nat
  queueCycles : Nat
  nFuzz : Nat → Nat

/-- `SchedulerMetadata::new`. -/
def SchedulerMetadata.new : SchedulerMetadata :=
  ⟨0, 0, 0, 0, 0, 0, fun _ => 0⟩

/-- `WeightedScheduleMetadata`. -/
structure WeightedScheduleMetadata where
  runsInCurrentCycle : Nat
  aliasTable : CorpusId → Option CorpusId
  aliasProbability : CorpusId → Option Float

/-- `WeightedScheduleMetadata::new`. -/
def WeightedScheduleMetadata.new : WeightedScheduleMetadata :=
  ⟨0, fun _ => none, fun _ => none⟩

/-- `EcoMetadata`. -/
structure EcoMetadata where
  state : EcoState
  initialCorpusCount : Option Nat
  lastMutationNum : Nat
  lastCorpusCount : Nat
  lastExecutions : Nat
  lastFindIteration : Nat
  calculateCoe : Nat
  rate : Float

/-- `EcoMetadata::default`. -/
def EcoMetadata.default : EcoMetadata :=
  ⟨.none, none, 0, 0, 0, 0, 0, 0⟩

/-- `TopRatedsMetadata`: map index to corpus index. -/
abbrev TopRatedsMetadata := OrderedMap Nat CorpusId

/-- `TopAccountingMetadata`. -/
structure TopAccountingMetadata where
  map : OrderedMap Nat CorpusId
  changed : Bool
  maxAccounting : List Nat

/-- `TopAccountingMetadata::new`. -/
def TopAccountingMetadata.new (accLen : Nat) : TopAccountingMetadata :=
  ⟨.empty, false, List.replicate accLen 0⟩

/-- `ProbabilityMetadata`. -/
structure ProbabilityMetadata where
  map : OrderedMap CorpusId Float
  totalProbability : Float

/-- `ProbabilityMetadata::new`. -/
def ProbabilityMetadata.new : ProbabilityMetadata :=
  ⟨.empty, 0⟩

/-- The fuzzer state, as far as schedulers use it. -/
structure State (Input : Type) where
  corpus : InMemoryCorpus (Testcase Input)
  executions : Nat
  schedulerMetadata : Option SchedulerMetadata
  weighted : Option WeightedScheduleMetadata
  eco : Option EcoMetadata
  topRateds : Option TopRatedsMetadata
  topAccounting : Option TopAccountingMetadata
  probability : Option ProbabilityMetadata

variable {Input : Type}

/-- A fresh state. -/
def State.new : State Input :=
  ⟨.new, 0, none, none, none, none, none, none⟩

/-- A hook of a scheduler. -/
abbrev Hook (Input Value : Type) :=
  Procedure Error (State Input) Value

/-- `ok_or_else` with a key that was not found. -/
def orKeyNotFound
    {Value : Type}
    (message : String) : Option Value → Except Error Value
  | some value => .ok value
  | none => .error (.keyNotFound message)

/-- `unwrap` and `expect`. -/
def orPanic
    {Value : Type} : Option Value → Except Error Value
  | some value => .ok value
  | none => .error .panicked

/-- A subtraction of unsigned integers or durations, which panics on underflow. -/
def checkedSub (first second : Nat) : Except Error Nat :=
  if second ≤ first then .ok (first - second) else .error .panicked

/-- An addition that panics beyond a limit. -/
def checkedAdd (limit first second : Nat) : Except Error Nat :=
  if first + second ≤ limit then .ok (first + second) else .error .panicked

/-- `u64::MAX`. -/
def maxU64 : Nat :=
  2 ^ 64 - 1

/-- The longest `Duration`, in nanoseconds. -/
def maxDuration : Nat :=
  2 ^ 64 * 1000000000 - 1

/-- `state.corpus().get(idx)?`. -/
def getTestcase (idx : CorpusId) : Hook Input (Testcase Input) := do
  let state ← get
  state.corpus.get idx

/-- Write to a testcase that was got. -/
def updateTestcase
    (idx : CorpusId)
    (change : Testcase Input → Testcase Input) : Hook Input Unit :=
  modify fun state => { state with corpus := state.corpus.modify idx change }

/-- `*state.corpus_mut().current_mut() = current`. -/
def setCurrent (current : Option CorpusId) : Hook Input Unit :=
  modify fun state => { state with corpus := state.corpus.setCurrent current }

section

variable {state : State Input}
variable {idx : CorpusId}
variable {testcase : Testcase Input}

open Procedure

theorem outcome_getTestcase :
    (getTestcase idx : Hook Input _).outcome state =
      (state.corpus.get idx, state) := by
  unfold getTestcase
  rw [outcome_bind_ok outcome_get]
  rfl

theorem outcome_getTestcase_ok
    (found : state.corpus.find idx = some testcase) :
    (getTestcase idx : Hook Input _).outcome state = (.ok testcase, state) := by
  rw [outcome_getTestcase, InMemoryCorpus.get_eq_ok.mpr found]

variable {Value : Type}

theorem outcome_orKeyNotFound
    {value : Value}
    {found : Option Value}
    {message : String}
    (isThere : found = some value) :
    (liftM (orKeyNotFound message found) : Hook Input _).outcome state =
      (.ok value, state) := by
  rw [isThere]
  rfl

theorem outcome_orKeyNotFound_none
    {found : Option Value}
    {message : String}
    (missing : found = none) :
    (liftM (orKeyNotFound message found) : Hook Input _).outcome state =
      (.error (.keyNotFound message), state) := by
  rw [missing]
  rfl

theorem outcome_orPanic
    {value : Value}
    {found : Option Value}
    (isThere : found = some value) :
    (liftM (orPanic found) : Hook Input _).outcome state =
      (.ok value, state) := by
  rw [isThere]
  rfl

theorem outcome_orPanic_none
    {found : Option Value}
    (missing : found = none) :
    (liftM (orPanic found) : Hook Input _).outcome state =
      (.error .panicked, state) := by
  rw [missing]
  rfl

theorem outcome_checkedSub
    {first second : Nat}
    (notBelow : second ≤ first) :
    (liftM (checkedSub first second) : Hook Input _).outcome state =
      (.ok (first - second), state) := by
  rw [outcome_lift, checkedSub, if_pos notBelow]

@[simp] theorem outcome_updateTestcase
    {change : Testcase Input → Testcase Input} :
    (updateTestcase idx change).outcome state =
      (.ok (), { state with corpus := state.corpus.modify idx change }) :=
  rfl

@[simp] theorem outcome_setCurrent
    {current : Option CorpusId} :
    (setCurrent current : Hook Input _).outcome state =
      (.ok (), { state with corpus := state.corpus.setCurrent current }) :=
  rfl

end

/-- `state.corpus_mut().add(testcase)?`. -/
def addTestcase (testcase : Testcase Input) : Hook Input CorpusId := do
  let state ← get
  set { state with corpus := (state.corpus.add testcase).2 }
  pure (state.corpus.add testcase).1

/-- `state.corpus_mut().replace(idx, testcase)?`. -/
def replaceTestcase
    (idx : CorpusId)
    (testcase : Testcase Input) : Hook Input (Testcase Input) := do
  let state ← get
  let (prev, corpus) ← state.corpus.replace idx testcase
  set { state with corpus := corpus }
  pure prev

/-- `state.corpus_mut().remove(idx)?`. -/
def removeTestcase (idx : CorpusId) : Hook Input (Testcase Input) := do
  let state ← get
  let (prev, corpus) ← state.corpus.remove idx
  set { state with corpus := corpus }
  pure prev

section

variable {state : State Input}
variable {idx : CorpusId}
variable {testcase prev : Testcase Input}

open Procedure

@[simp] theorem outcome_addTestcase :
    (addTestcase testcase).outcome state =
      (.ok state.corpus.nextId,
        { state with corpus := (state.corpus.add testcase).2 }) :=
  rfl

theorem outcome_replaceTestcase
    (found : state.corpus.find idx = some prev) :
    (replaceTestcase idx testcase).outcome state =
      (.ok prev,
        { state with
          corpus := state.corpus.modify idx fun _ => testcase }) := by
  unfold replaceTestcase
  rw [outcome_bind_ok outcome_get, InMemoryCorpus.replace_eq, found]
  rfl

theorem outcome_replaceTestcase_missing
    (missing : state.corpus.find idx = none) :
    (replaceTestcase idx testcase).outcome state =
      (.error (Corpus.indexNotFound idx), state) := by
  unfold replaceTestcase
  rw [outcome_bind_ok outcome_get, InMemoryCorpus.replace_eq, missing]
  rfl

theorem outcome_removeTestcase
    (found : state.corpus.find idx = some prev) :
    (removeTestcase idx).outcome state =
      (.ok prev, { state with corpus := state.corpus.removed idx }) := by
  unfold removeTestcase
  rw [outcome_bind_ok outcome_get, InMemoryCorpus.remove_eq, found]
  rfl

theorem outcome_removeTestcase_missing
    (missing : state.corpus.find idx = none) :
    (removeTestcase idx).outcome state =
      (.error (Corpus.indexNotFound idx), state) := by
  unfold removeTestcase
  rw [outcome_bind_ok outcome_get, InMemoryCorpus.remove_eq, missing]
  rfl

end

/-- The depth of the parent of a new testcase. -/
def parentDepth : Hook Input Nat := do
  let state ← get
  match state.corpus.current with
  | some parentIdx => do
      let parent ← getTestcase parentIdx
      let data ←
        orKeyNotFound "SchedulerTestcaseMetaData not found"
          parent.schedulerMeta
      pure data.depth
  | none => pure 0

/-- Attach a `SchedulerTestcaseMetaData` to a testcase. -/
def attachSchedulerMeta
    (lastHash : Nat)
    (idx : CorpusId) : Hook Input Unit := do
  let depth ← parentDepth
  let _ ← getTestcase idx
  updateTestcase idx fun testcase =>
    { testcase with
      schedulerMeta := some (.withNFuzzEntry (depth + 1) lastHash) }

section

variable {state : State Input}
variable {idx : CorpusId}

open Procedure

theorem outcome_parentDepth (state : State Input) :
    (∃ depth, (parentDepth : Hook Input _).outcome state = (.ok depth, state)) ∨
      ∃ message,
        (parentDepth : Hook Input _).outcome state =
          (.error (.keyNotFound message), state) := by
  unfold parentDepth
  rw [outcome_bind_ok outcome_get]
  cases state.corpus.current with
  | none =>
      exact .inl ⟨0, rfl⟩
  | some parentIdx =>
      cases found : state.corpus.find parentIdx with
      | none =>
          refine .inr
            ⟨s!"Index {parentIdx} not found", outcome_bind_error ?_⟩
          rw [outcome_getTestcase, InMemoryCorpus.get_eq, found]
          rfl
      | some parent =>
          dsimp only
          rw [outcome_bind_ok (outcome_getTestcase_ok found)]
          cases parent.schedulerMeta with
          | none =>
              exact .inr ⟨_, rfl⟩
          | some data =>
              exact .inl ⟨data.depth, rfl⟩

theorem outcome_parentDepth_ok
    (isReadable :
      ∀ id, state.corpus.current = some id →
        ∃ parent,
          state.corpus.find id = some parent ∧
            parent.schedulerMeta.isSome = true) :
    ∃ depth,
      (parentDepth : Hook Input _).outcome state = (.ok depth, state) := by
  unfold parentDepth
  rw [outcome_bind_ok outcome_get]
  cases isCurrent : state.corpus.current with
  | none =>
      exact ⟨0, rfl⟩
  | some parentIdx =>
      obtain ⟨parent, found, hasMeta⟩ := isReadable parentIdx isCurrent
      obtain ⟨data, isData⟩ := Option.isSome_iff_exists.mp hasMeta
      refine ⟨data.depth, ?_⟩
      dsimp only
      rw [outcome_bind_ok (outcome_getTestcase_ok found), isData]
      rfl

theorem outcome_attachSchedulerMeta_ok
    (isReadable :
      ∀ id, state.corpus.current = some id →
        ∃ parent,
          state.corpus.find id = some parent ∧
            parent.schedulerMeta.isSome = true)
    (isLive : idx ∈ state.corpus.ids)
    (lastHash : Nat) :
    ∃ depth,
      (attachSchedulerMeta lastHash idx : Hook Input _).outcome state =
        (.ok (),
          { state with
            corpus :=
              state.corpus.modify idx fun testcase =>
                { testcase with
                  schedulerMeta :=
                    some (.withNFuzzEntry (depth + 1) lastHash) } }) := by
  obtain ⟨testcase, found⟩ := InMemoryCorpus.mem_ids.mp isLive
  obtain ⟨depth, reads⟩ := outcome_parentDepth_ok isReadable
  refine ⟨depth, ?_⟩
  unfold attachSchedulerMeta
  rw [outcome_bind_ok reads, outcome_bind_ok (outcome_getTestcase_ok found)]
  rfl

theorem outcome_attachSchedulerMeta
    (isLive : idx ∈ state.corpus.ids)
    (lastHash : Nat) :
    (∃ depth,
        (attachSchedulerMeta lastHash idx : Hook Input _).outcome state =
          (.ok (),
            { state with
              corpus :=
                state.corpus.modify idx fun testcase =>
                  { testcase with
                    schedulerMeta :=
                      some (.withNFuzzEntry (depth + 1) lastHash) } })) ∨
      ∃ message,
        (attachSchedulerMeta lastHash idx : Hook Input _).outcome state =
          (.error (.keyNotFound message), state) := by
  obtain ⟨testcase, found⟩ := InMemoryCorpus.mem_ids.mp isLive
  rcases outcome_parentDepth state with ⟨depth, reads⟩ | ⟨message, fails⟩
  · refine .inl ⟨depth, ?_⟩
    unfold attachSchedulerMeta
    rw [outcome_bind_ok reads, outcome_bind_ok (outcome_getTestcase_ok found)]
    rfl
  · exact .inr ⟨message, outcome_bind_error fails⟩

end

/-- `state.metadata_mut().get_mut::<SchedulerMetadata>()`, which must be there. -/
def getSchedulerMetadata : Hook Input SchedulerMetadata := do
  let state ← get
  orKeyNotFound "SchedulerMetadata not found" state.schedulerMetadata

/-- Write the `SchedulerMetadata` of the state. -/
def setSchedulerMetadata (data : SchedulerMetadata) : Hook Input Unit :=
  modify fun state => { state with schedulerMetadata := some data }

/-- Take up to four from the handicap of a testcase. -/
def updateHandicap (idx : CorpusId) : Hook Input Unit := do
  let testcase ← getTestcase idx
  let data ←
    orKeyNotFound "SchedulerTestcaseMetaData not found" testcase.schedulerMeta
  let handicap :=
    if 4 ≤ data.handicap then data.handicap - 4 else data.handicap - 1
  updateTestcase idx fun testcase =>
    { testcase with
      schedulerMeta := some { data with handicap := handicap } }

section

variable {state : State Input}
variable {idx : CorpusId}
variable {testcase : Testcase Input}

open Procedure

theorem outcome_getSchedulerMetadata
    {data : SchedulerMetadata}
    (isThere : state.schedulerMetadata = some data) :
    (getSchedulerMetadata : Hook Input _).outcome state =
      (.ok data, state) := by
  unfold getSchedulerMetadata
  rw [outcome_bind_ok outcome_get, isThere]
  rfl

theorem outcome_updateHandicap
    {data : SchedulerTestcaseMetaData}
    (found : state.corpus.find idx = some testcase)
    (isData : testcase.schedulerMeta = some data) :
    (updateHandicap idx : Hook Input _).outcome state =
      (.ok (),
        { state with
          corpus :=
            state.corpus.modify idx fun testcase =>
              { testcase with
                schedulerMeta :=
                  some
                    { data with
                      handicap :=
                        if 4 ≤ data.handicap then data.handicap - 4
                        else data.handicap - 1 } } }) := by
  unfold updateHandicap
  rw [outcome_bind_ok (outcome_getTestcase_ok found), isData]
  rfl

end

/--
Count a run in `n_fuzz`.  The hash is that of the map observer, if there is
one; what it leaves is the `last_hash` of the scheduler.
-/
def countRun (observed : Option Nat) : Hook Input Nat := do
  let hash ← orKeyNotFound "MapObserver not found" observed
  let data ← getSchedulerMetadata
  let hash := hash % nFuzzSize
  setSchedulerMetadata
    { data with
      nFuzz :=
        Function.update data.nFuzz hash (min (data.nFuzz hash + 1) (2 ^ 32 - 1)) }
  pure hash

/-- Counting a run only changes the `SchedulerMetadata`, if it does not fail. -/
theorem outcome_countRun
    (state : State Input)
    (observed : Option Nat) :
    (∃ hash data,
        (countRun observed : Hook Input _).outcome state =
          (.ok hash, { state with schedulerMetadata := some data })) ∨
      ∃ message,
        (countRun observed : Hook Input _).outcome state =
          (.error (.keyNotFound message), state) := by
  cases observed with
  | none =>
      exact .inr ⟨_, rfl⟩
  | some hash =>
      cases isThere : state.schedulerMetadata with
      | none =>
          refine .inr ⟨"SchedulerMetadata not found", ?_⟩
          unfold countRun getSchedulerMetadata
          rw [Procedure.outcome_bind_ok (outcome_orKeyNotFound rfl)]
          refine Procedure.outcome_bind_error ?_
          rw [Procedure.outcome_bind_ok Procedure.outcome_get]
          exact outcome_orKeyNotFound_none isThere
      | some data =>
          let key := hash % nFuzzSize
          refine .inl
            ⟨key,
              { data with
                nFuzz :=
                  Function.update data.nFuzz key
                    (min (data.nFuzz key + 1) (2 ^ 32 - 1)) },
              ?_⟩
          unfold countRun
          rw [Procedure.outcome_bind_ok (outcome_orKeyNotFound rfl),
            Procedure.outcome_bind_ok (outcome_getSchedulerMetadata isThere)]
          rfl

end MeFuzz.Scheduler
