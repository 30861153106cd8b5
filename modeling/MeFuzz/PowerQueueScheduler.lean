import MeFuzz.SchedulerState

namespace MeFuzz.Scheduler

open Corpus (CorpusId Error InMemoryCorpus)

/-!
# The power queue scheduler and the calibration stage

The calibration stage measures an entry and adds what it measured to the
`SchedulerMetadata` of the state.  The hooks of the scheduler take it back when
the entry is replaced or removed.
-/

variable {Input : Type}

namespace PowerQueueScheduler

/-- `PowerQueueScheduler::on_add`. -/
def onAdd
    (lastHash : Nat)
    (idx : CorpusId) : Hook Input Unit :=
  attachSchedulerMeta lastHash idx

/-- Take the measures of a testcase back. -/
def takeBack (prevMeta : SchedulerTestcaseMetaData) : Hook Input Unit := do
  let psmeta ← getSchedulerMetadata
  let execTime ← checkedSub psmeta.execTime prevMeta.cycleAndTime.1
  let cycles ← checkedSub psmeta.cycles prevMeta.cycleAndTime.2
  let bitmapSize ← checkedSub psmeta.bitmapSize prevMeta.bitmapSize
  let bitmapEntries ← checkedSub psmeta.bitmapEntries 1
  setSchedulerMetadata
    { psmeta with
      execTime := execTime
      cycles := cycles
      bitmapSize := bitmapSize
      bitmapSizeLog :=
        psmeta.bitmapSizeLog - (Float.ofNat prevMeta.bitmapSize).log2
      bitmapEntries := bitmapEntries }

/-- `PowerQueueScheduler::on_replace`. -/
def onReplace
    (idx : CorpusId)
    (prev : Testcase Input) : Hook Input Unit := do
  let prevMeta ←
    orKeyNotFound "SchedulerTestcaseMetaData not found" prev.schedulerMeta
  takeBack prevMeta
  let _ ← getTestcase idx
  updateTestcase idx fun testcase =>
    { testcase with schedulerMeta := some (.new (prevMeta.depth + 1)) }

/-- `PowerQueueScheduler::on_remove`. -/
def onRemove (prev : Option (Testcase Input)) : Hook Input Unit :=
  match prev with
  | none =>
      throw
        (.illegalArgument
          "Power schedulers must be aware of the removed corpus entry for reweighting.")
  | some prev => do
      let prevMeta ←
        orKeyNotFound "SchedulerTestcaseMetaData not found" prev.schedulerMeta
      takeBack prevMeta

/-- The entry that follows the current one; a cycle is counted at the end. -/
def followCurrent : Hook Input CorpusId := do
  let state ← get
  match state.corpus.current with
  | some cur =>
      match state.corpus.next cur with
      | some next => pure next
      | none => do
          let psmeta ← getSchedulerMetadata
          setSchedulerMetadata
            { psmeta with queueCycles := psmeta.queueCycles + 1 }
          orPanic state.corpus.first
  | none => orPanic state.corpus.first

/-- `PowerQueueScheduler::next`. -/
def next : Hook Input CorpusId := do
  let state ← get
  if state.corpus.count = 0 then throw (.empty "No entries in corpus")
  else
    let id ← followCurrent
    setCurrent (some id)
    updateHandicap id
    pure id

section

variable {state : State Input}
variable {psmeta : SchedulerMetadata}
variable {idx : CorpusId}

open Procedure

/-- The statistics without the measures of a testcase. -/
def withoutMeasures
    (psmeta : SchedulerMetadata)
    (prevMeta : SchedulerTestcaseMetaData) : SchedulerMetadata :=
  { psmeta with
    execTime := psmeta.execTime - prevMeta.cycleAndTime.1
    cycles := psmeta.cycles - prevMeta.cycleAndTime.2
    bitmapSize := psmeta.bitmapSize - prevMeta.bitmapSize
    bitmapSizeLog :=
      psmeta.bitmapSizeLog - (Float.ofNat prevMeta.bitmapSize).log2
    bitmapEntries := psmeta.bitmapEntries - 1 }

/-- The measures of a testcase are part of the statistics. -/
structure HasMeasures
    (psmeta : SchedulerMetadata)
    (prevMeta : SchedulerTestcaseMetaData) : Prop where
  execTime : prevMeta.cycleAndTime.1 ≤ psmeta.execTime
  cycles : prevMeta.cycleAndTime.2 ≤ psmeta.cycles
  bitmapSize : prevMeta.bitmapSize ≤ psmeta.bitmapSize
  bitmapEntries : 1 ≤ psmeta.bitmapEntries

theorem outcome_takeBack
    {prevMeta : SchedulerTestcaseMetaData}
    (isThere : state.schedulerMetadata = some psmeta)
    (has : HasMeasures psmeta prevMeta) :
    (takeBack prevMeta : Hook Input _).outcome state =
      (.ok (),
        { state with
          schedulerMetadata := some (withoutMeasures psmeta prevMeta) }) := by
  unfold takeBack
  rw [outcome_bind_ok (outcome_getSchedulerMetadata isThere)]
  simp only [checkedSub, if_pos has.execTime, if_pos has.cycles,
    if_pos has.bitmapSize, if_pos has.bitmapEntries]
  rfl

theorem outcome_takeBack_panics
    {prevMeta : SchedulerTestcaseMetaData}
    (isThere : state.schedulerMetadata = some psmeta)
    (lacks : ¬HasMeasures psmeta prevMeta) :
    (takeBack prevMeta : Hook Input _).outcome state =
      (.error .panicked, state) := by
  unfold takeBack
  rw [outcome_bind_ok (outcome_getSchedulerMetadata isThere)]
  by_cases execTime : prevMeta.cycleAndTime.1 ≤ psmeta.execTime
  · by_cases cycles : prevMeta.cycleAndTime.2 ≤ psmeta.cycles
    · by_cases bitmapSize : prevMeta.bitmapSize ≤ psmeta.bitmapSize
      · by_cases bitmapEntries : 1 ≤ psmeta.bitmapEntries
        · exact absurd ⟨execTime, cycles, bitmapSize, bitmapEntries⟩ lacks
        · simp only [checkedSub, if_pos execTime, if_pos cycles,
            if_pos bitmapSize, if_neg bitmapEntries]
          rfl
      · simp only [checkedSub, if_pos execTime, if_pos cycles,
          if_neg bitmapSize]
        rfl
    · simp only [checkedSub, if_pos execTime, if_neg cycles]
      rfl
  · simp only [checkedSub, if_neg execTime]
    rfl

theorem outcome_followCurrent
    (isThere : state.schedulerMetadata = some psmeta)
    (notEmpty : state.corpus.ids ≠ []) :
    ∃ id queueCycles,
      id ∈ state.corpus.ids ∧
        (followCurrent : Hook Input _).outcome state =
          (.ok id,
            { state with
              schedulerMetadata :=
                some { psmeta with queueCycles := queueCycles } }) := by
  have unchanged :
      { state with
        schedulerMetadata :=
          some { psmeta with queueCycles := psmeta.queueCycles } } = state := by
    rw [← isThere]
  obtain ⟨first, isFirst⟩ := InMemoryCorpus.exists_first notEmpty
  have isLive := InMemoryCorpus.mem_of_first isFirst
  unfold followCurrent
  rw [outcome_bind_ok outcome_get]
  cases state.corpus.current with
  | none =>
      refine ⟨first, psmeta.queueCycles, isLive, ?_⟩
      simp only [isFirst]
      rw [unchanged]
      rfl
  | some cur =>
      cases isNext : state.corpus.next cur with
      | some next =>
          refine ⟨next, psmeta.queueCycles,
            InMemoryCorpus.mem_of_next isNext, ?_⟩
          simp only [isNext]
          rw [unchanged]
          rfl
      | none =>
          refine ⟨first, psmeta.queueCycles + 1, isLive, ?_⟩
          simp only [isNext, isFirst]
          rw [outcome_bind_ok (outcome_getSchedulerMetadata isThere)]
          rfl

theorem outcome_next
    (isThere : state.schedulerMetadata = some psmeta)
    (notEmpty : state.corpus.ids ≠ []) :
    ∃ id queueCycles,
      id ∈ state.corpus.ids ∧
        (next : Hook Input _).outcome state =
          (updateHandicap id >>= fun _ => pure id : Hook Input _).outcome
            { state with
              corpus := state.corpus.setCurrent (some id)
              schedulerMetadata :=
                some { psmeta with queueCycles := queueCycles } } := by
  obtain ⟨id, queueCycles, isLive, follows⟩ :=
    outcome_followCurrent isThere notEmpty
  refine ⟨id, queueCycles, isLive, ?_⟩
  unfold next
  rw [outcome_bind_ok outcome_get,
    if_neg (mt InMemoryCorpus.count_eq_zero.mp notEmpty),
    outcome_bind_ok follows]
  rfl

theorem outcome_next_empty
    (isEmpty : state.corpus.ids = []) :
    (next : Hook Input _).outcome state =
      (.error (.empty "No entries in corpus"), state) := by
  unfold next
  rw [outcome_bind_ok outcome_get,
    if_pos (InMemoryCorpus.count_eq_zero.mpr isEmpty)]
  rfl

end

end PowerQueueScheduler

/-- What the calibration stage measures in the runs of a testcase. -/
structure Measurement where
  totalTime : Nat
  iter : Nat
  bitmapSize : Nat
  deriving Repr, DecidableEq

/-- `CalibrationStage::perform`, once the runs are measured. -/
def CalibrationStage.perform
    (corpusIdx : CorpusId)
    (measured : Measurement) : Hook Input Unit := do
  let testcase ← getTestcase corpusIdx
  if 0 < testcase.fuzzLevel then pure ()
  else
    let state ← get
    if state.schedulerMetadata.isSome && testcase.schedulerMeta.isSome then
      let psmeta ← getSchedulerMetadata
      let execTime ← checkedAdd maxDuration psmeta.execTime measured.totalTime
      let cycles ← checkedAdd maxU64 psmeta.cycles measured.iter
      let bitmapSize ← checkedAdd maxU64 psmeta.bitmapSize measured.bitmapSize
      let bitmapEntries ← checkedAdd maxU64 psmeta.bitmapEntries 1
      setSchedulerMetadata
        { psmeta with
          execTime := execTime
          cycles := cycles
          bitmapSize := bitmapSize
          bitmapSizeLog :=
            psmeta.bitmapSizeLog + (Float.ofNat measured.bitmapSize).log2
          bitmapEntries := bitmapEntries }
      updateTestcase corpusIdx fun testcase =>
        { testcase with
          execTime := some (measured.totalTime / measured.iter)
          fuzzLevel := testcase.fuzzLevel + 1
          schedulerMeta :=
            testcase.schedulerMeta.map fun data =>
              { data with
                cycleAndTime := (measured.totalTime, measured.iter)
                bitmapSize := measured.bitmapSize
                handicap := psmeta.queueCycles } }
    else pure ()

namespace CalibrationStage

section

variable {state : State Input}
variable {psmeta : SchedulerMetadata}
variable {idx : CorpusId}
variable {testcase : Testcase Input}
variable {measured : Measurement}

open Procedure

/-- The statistics with a measurement. -/
def withMeasures
    (psmeta : SchedulerMetadata)
    (measured : Measurement) : SchedulerMetadata :=
  { psmeta with
    execTime := psmeta.execTime + measured.totalTime
    cycles := psmeta.cycles + measured.iter
    bitmapSize := psmeta.bitmapSize + measured.bitmapSize
    bitmapSizeLog :=
      psmeta.bitmapSizeLog + (Float.ofNat measured.bitmapSize).log2
    bitmapEntries := psmeta.bitmapEntries + 1 }

/-- A testcase that was calibrated. -/
def calibrated
    (psmeta : SchedulerMetadata)
    (measured : Measurement)
    (testcase : Testcase Input) : Testcase Input :=
  { testcase with
    execTime := some (measured.totalTime / measured.iter)
    fuzzLevel := testcase.fuzzLevel + 1
    schedulerMeta :=
      testcase.schedulerMeta.map fun data =>
        { data with
          cycleAndTime := (measured.totalTime, measured.iter)
          bitmapSize := measured.bitmapSize
          handicap := psmeta.queueCycles } }

/-- The statistics with a measurement are within their types. -/
structure Fits
    (psmeta : SchedulerMetadata)
    (measured : Measurement) : Prop where
  execTime : psmeta.execTime + measured.totalTime ≤ maxDuration
  cycles : psmeta.cycles + measured.iter ≤ maxU64
  bitmapSize : psmeta.bitmapSize + measured.bitmapSize ≤ maxU64
  bitmapEntries : psmeta.bitmapEntries + 1 ≤ maxU64

theorem outcome_perform_reaches
    (isThere : state.schedulerMetadata = some psmeta)
    (found : state.corpus.find idx = some testcase)
    (level : testcase.fuzzLevel = 0)
    (hasMeta : testcase.schedulerMeta.isSome = true) :
    (perform idx measured).outcome state =
      (do
        let execTime ←
          checkedAdd maxDuration psmeta.execTime measured.totalTime
        let cycles ← checkedAdd maxU64 psmeta.cycles measured.iter
        let bitmapSize ←
          checkedAdd maxU64 psmeta.bitmapSize measured.bitmapSize
        let bitmapEntries ← checkedAdd maxU64 psmeta.bitmapEntries 1
        setSchedulerMetadata
          { psmeta with
            execTime := execTime
            cycles := cycles
            bitmapSize := bitmapSize
            bitmapSizeLog :=
              psmeta.bitmapSizeLog + (Float.ofNat measured.bitmapSize).log2
            bitmapEntries := bitmapEntries }
        updateTestcase idx (calibrated psmeta measured) :
          Hook Input Unit).outcome state := by
  have usePowerschedule :
      (state.schedulerMetadata.isSome && testcase.schedulerMeta.isSome) =
        true := by
    rw [isThere, hasMeta]
    rfl
  unfold perform
  rw [outcome_bind_ok (outcome_getTestcase_ok found), if_neg (by omega),
    outcome_bind_ok outcome_get, if_pos usePowerschedule,
    outcome_bind_ok (outcome_getSchedulerMetadata isThere)]
  rfl

theorem outcome_perform
    (isThere : state.schedulerMetadata = some psmeta)
    (found : state.corpus.find idx = some testcase)
    (level : testcase.fuzzLevel = 0)
    (hasMeta : testcase.schedulerMeta.isSome = true)
    (fits : Fits psmeta measured) :
    (perform idx measured).outcome state =
      (.ok (),
        { state with
          corpus := state.corpus.modify idx (calibrated psmeta measured)
          schedulerMetadata := some (withMeasures psmeta measured) }) := by
  rw [outcome_perform_reaches isThere found level hasMeta]
  simp only [checkedAdd, if_pos fits.execTime, if_pos fits.cycles,
    if_pos fits.bitmapSize, if_pos fits.bitmapEntries]
  rfl

theorem outcome_perform_panics
    (isThere : state.schedulerMetadata = some psmeta)
    (found : state.corpus.find idx = some testcase)
    (level : testcase.fuzzLevel = 0)
    (hasMeta : testcase.schedulerMeta.isSome = true)
    (exceeds : ¬Fits psmeta measured) :
    (perform idx measured).outcome state = (.error .panicked, state) := by
  rw [outcome_perform_reaches isThere found level hasMeta]
  by_cases execTime : psmeta.execTime + measured.totalTime ≤ maxDuration
  · by_cases cycles : psmeta.cycles + measured.iter ≤ maxU64
    · by_cases bitmapSize : psmeta.bitmapSize + measured.bitmapSize ≤ maxU64
      · by_cases bitmapEntries : psmeta.bitmapEntries + 1 ≤ maxU64
        · exact absurd ⟨execTime, cycles, bitmapSize, bitmapEntries⟩ exceeds
        · simp only [checkedAdd, if_pos execTime, if_pos cycles,
            if_pos bitmapSize, if_neg bitmapEntries]
          rfl
      · simp only [checkedAdd, if_pos execTime, if_pos cycles,
          if_neg bitmapSize]
        rfl
    · simp only [checkedAdd, if_pos execTime, if_neg cycles]
      rfl
  · simp only [checkedAdd, if_neg execTime]
    rfl

end

end CalibrationStage

end MeFuzz.Scheduler
