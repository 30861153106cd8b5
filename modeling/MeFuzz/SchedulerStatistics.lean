import MeFuzz.TransitionRun
import MeFuzz.PowerQueueScheduler

namespace MeFuzz.Scheduler.PowerQueueScheduler

open Corpus (CorpusId Error InMemoryCorpus)

/-!
# The statistics of the power schedulers

The `SchedulerMetadata` of the state sums up what the calibration stage measured.
The sums are exact as long as only calibrated entries are replaced or removed.
-/

variable {Input : Type}

/-- A sum over the measurements of some entries. -/
def total
    (field : Measurement → Nat)
    (ids : List CorpusId)
    (measured : CorpusId → Option Measurement) : Nat :=
  (ids.map fun id => ((measured id).map field).getD 0).sum

section

variable {field : Measurement → Nat}
variable {ids : List CorpusId}
variable {measured : CorpusId → Option Measurement}
variable {id : CorpusId}
variable {value : Option Measurement}

theorem total_update_of_not_mem
    (absent : id ∉ ids) :
    total field ids (Function.update measured id value) =
      total field ids measured := by
  unfold total
  congr 1
  refine List.map_congr_left fun other isOther => ?_
  rw [Function.update_of_ne]
  rintro rfl
  exact absent isOther

theorem total_update
    (nodup : ids.Nodup)
    (isMember : id ∈ ids) :
    total field ids (Function.update measured id value) +
        ((measured id).map field).getD 0 =
      total field ids measured + (value.map field).getD 0 := by
  obtain ⟨before, after, rfl⟩ := List.append_of_mem isMember
  rw [List.nodup_middle, List.nodup_cons, List.mem_append, not_or] at nodup
  obtain ⟨⟨notBefore, notAfter⟩, _⟩ := nodup
  have sameBefore :=
    @total_update_of_not_mem field before measured id value notBefore
  have sameAfter :=
    @total_update_of_not_mem field after measured id value notAfter
  simp only [total, List.map_append, List.map_cons, List.sum_append,
    List.sum_cons, Function.update_self] at sameBefore sameAfter ⊢
  omega

theorem total_removed
    (nodup : ids.Nodup)
    (isMember : id ∈ ids) :
    total field (ids.filter fun other => other ≠ id) measured +
        ((measured id).map field).getD 0 =
      total field ids measured := by
  obtain ⟨before, after, rfl⟩ := List.append_of_mem isMember
  rw [List.nodup_middle, List.nodup_cons, List.mem_append, not_or] at nodup
  obtain ⟨⟨notBefore, notAfter⟩, _⟩ := nodup
  have others :
      (before ++ id :: after).filter (fun other => other ≠ id) =
        before ++ after := by
    rw [List.filter_append, List.filter_cons_of_neg (by simp)]
    congr 1
    · exact List.filter_eq_self.mpr fun other isOther => by
        rw [decide_eq_true_eq]
        rintro rfl
        exact notBefore isOther
    · exact List.filter_eq_self.mpr fun other isOther => by
        rw [decide_eq_true_eq]
        rintro rfl
        exact notAfter isOther
  rw [others]
  simp only [total, List.map_append, List.map_cons, List.sum_append,
    List.sum_cons]
  omega

end

/-- What happens to the statistics. -/
inductive Event (Input : Type) where
  | add (lastHash : Nat) (testcase : Testcase Input)
  | replace (idx : CorpusId) (testcase : Testcase Input)
  | remove (idx : CorpusId)
  | calibrate (idx : CorpusId) (measured : Measurement)
  | next

/-- The corpus is changed and the hook of the scheduler is told. -/
def perform : Event Input → Hook Input Unit
  | .add lastHash testcase => do
      let idx ← addTestcase testcase
      onAdd lastHash idx
  | .replace idx testcase => do
      let prev ← replaceTestcase idx testcase
      onReplace idx prev
  | .remove idx => do
      let prev ← removeTestcase idx
      onRemove (some prev)
  | .calibrate idx measured => CalibrationStage.perform idx measured
  | .next => do
      let _ ← next

/-- The fuzzer state, and what was measured of its calibrated entries. -/
structure Ledger (Input : Type) where
  state : State Input
  measured : CorpusId → Option Measurement

/-- The calibration stage measures an entry only once. -/
def calibrates
    (state : State Input)
    (idx : CorpusId) : Bool :=
  (state.corpus.find idx).any fun testcase =>
    decide (testcase.fuzzLevel = 0) &&
      (state.schedulerMetadata.isSome && testcase.schedulerMeta.isSome)

/-- What is measured of the entries after an event. -/
def record
    (ledger : Ledger Input) :
    Event Input → CorpusId → Option Measurement
  | .replace idx _ => Function.update ledger.measured idx none
  | .remove idx => Function.update ledger.measured idx none
  | .calibrate idx measured =>
      if calibrates ledger.state idx then
        Function.update ledger.measured idx (some measured)
      else ledger.measured
  | _ => ledger.measured

/-- Each event leaves a state, unless the arithmetic panics. -/
inductive Step : StepRelation (Option (Ledger Input)) (Event Input) where
  | done
      {ledger : Ledger Input}
      {event : Event Input}
      {result : Except Error Unit}
      {state : State Input} :
      (perform event).outcome ledger.state = (result, state) →
      result ≠ .error .panicked →
      Step (some ledger) event (some ⟨state, record ledger event⟩)
  | panicked
      {ledger : Ledger Input}
      {event : Event Input}
      {state : State Input} :
      (perform event).outcome ledger.state = (.error .panicked, state) →
      Step (some ledger) event none

/-- The statistics are the sums of the measurements of the given entries. -/
structure Sums
    (psmeta : SchedulerMetadata)
    (ids : List CorpusId)
    (measured : CorpusId → Option Measurement) : Prop where
  execTime : psmeta.execTime = total (·.totalTime) ids measured
  cycles : psmeta.cycles = total (·.iter) ids measured
  bitmapSize : psmeta.bitmapSize = total (·.bitmapSize) ids measured
  bitmapEntries : psmeta.bitmapEntries = total (fun _ => 1) ids measured

/-- The statistics are the sums over the calibrated entries of the corpus. -/
def Exact : Option (Ledger Input) → Prop
  | none => False
  | some ledger =>
      ∃ psmeta,
        ledger.state.schedulerMetadata = some psmeta ∧
          Sums psmeta ledger.state.corpus.ids ledger.measured

/--
Only calibrated entries are replaced or removed, and the sums stay within
their types.
-/
def Measures : Option (Ledger Input) → Event Input → Prop
  | none, _ => True
  | some ledger, .replace idx _ | some ledger, .remove idx =>
      ∀ testcase, ledger.state.corpus.find idx = some testcase →
        testcase.schedulerMeta.isSome = true →
        (ledger.measured idx).isSome = true
  | some ledger, .calibrate idx measured =>
      calibrates ledger.state idx = true →
        ∀ psmeta, ledger.state.schedulerMetadata = some psmeta →
          CalibrationStage.Fits psmeta measured
  | some _, _ => True

/-- The metadata of a calibrated entry holds what was measured. -/
def Recorded
    (state : State Input)
    (id : CorpusId)
    (measured : Measurement) : Prop :=
  ∃ testcase data,
    state.corpus.find id = some testcase ∧ 0 < testcase.fuzzLevel ∧
      testcase.schedulerMeta = some data ∧
      data.cycleAndTime = (measured.totalTime, measured.iter) ∧
      data.bitmapSize = measured.bitmapSize

/-- The statistics are exact and agree with the metadata of the entries. -/
structure Balanced (ledger : Ledger Input) : Prop where
  exact : Exact (some ledger)
  recorded :
    ∀ id measured, ledger.measured id = some measured →
      Recorded ledger.state id measured

namespace Recorded

variable {state after : State Input}
variable {id : CorpusId}
variable {measured : Measurement}

theorem mem_ids (recorded : Recorded state id measured) :
    id ∈ state.corpus.ids := by
  obtain ⟨testcase, _, found, _⟩ := recorded
  exact InMemoryCorpus.mem_ids.mpr ⟨testcase, found⟩

theorem of_same_find
    (recorded : Recorded state id measured)
    (same : after.corpus.find id = state.corpus.find id) :
    Recorded after id measured := by
  obtain ⟨testcase, data, found, rest⟩ := recorded
  exact ⟨testcase, data, same.trans found, rest⟩

end Recorded

namespace Balanced

variable {ledger : Ledger Input}
variable {state : State Input}
variable {idx : CorpusId}

theorem of_same
    (balanced : Balanced ledger)
    {psmeta after : SchedulerMetadata}
    (isThere : ledger.state.schedulerMetadata = some psmeta)
    (isAfter : state.schedulerMetadata = some after)
    (sameExecTime : after.execTime = psmeta.execTime)
    (sameCycles : after.cycles = psmeta.cycles)
    (sameBitmapSize : after.bitmapSize = psmeta.bitmapSize)
    (sameBitmapEntries : after.bitmapEntries = psmeta.bitmapEntries)
    (sameTotal :
      ∀ field, total field state.corpus.ids ledger.measured =
        total field ledger.state.corpus.ids ledger.measured)
    (recorded :
      ∀ id measured, ledger.measured id = some measured →
        Recorded ledger.state id measured → Recorded state id measured) :
    Balanced ⟨state, ledger.measured⟩ where
  exact := by
    obtain ⟨_, isThereToo, sums⟩ := balanced.exact
    obtain rfl := Option.some.inj (isThere.symm.trans isThereToo)
    refine ⟨after, isAfter, ?_, ?_, ?_, ?_⟩
    · rw [sameTotal, sameExecTime, sums.execTime]
    · rw [sameTotal, sameCycles, sums.cycles]
    · rw [sameTotal, sameBitmapSize, sums.bitmapSize]
    · rw [sameTotal, sameBitmapEntries, sums.bitmapEntries]
  recorded := fun id measured isMeasured =>
    recorded id measured isMeasured (balanced.recorded id measured isMeasured)

theorem measured_of_recorded
    (balanced : Balanced ledger)
    {testcase : Testcase Input}
    (found : ledger.state.corpus.find idx = some testcase)
    (noMeta : testcase.schedulerMeta = none) :
    ledger.measured idx = none := by
  cases isMeasured : ledger.measured idx with
  | none =>
      rfl
  | some measured =>
      obtain ⟨other, data, foundOther, _, isData, _⟩ :=
        balanced.recorded idx measured isMeasured
      obtain rfl := Option.some.inj (found.symm.trans foundOther)
      rw [noMeta] at isData
      cases isData

theorem hasMeasures
    (balanced : Balanced ledger)
    {psmeta : SchedulerMetadata}
    (isThere : ledger.state.schedulerMetadata = some psmeta)
    {measured : Measurement}
    (isMeasured : ledger.measured idx = some measured)
    {testcase : Testcase Input}
    {data : SchedulerTestcaseMetaData}
    (found : ledger.state.corpus.find idx = some testcase)
    (isData : testcase.schedulerMeta = some data) :
    HasMeasures psmeta data ∧
      Sums (withoutMeasures psmeta data) ledger.state.corpus.ids
        (Function.update ledger.measured idx none) := by
  obtain ⟨_, isThereToo, sums⟩ := balanced.exact
  obtain rfl := Option.some.inj (isThere.symm.trans isThereToo)
  have recorded := balanced.recorded idx measured isMeasured
  have isLive := recorded.mem_ids
  obtain ⟨other, otherData, foundOther, _, isOtherData, cycleAndTime,
    bitmapSize⟩ := recorded
  obtain rfl := Option.some.inj (found.symm.trans foundOther)
  obtain rfl := Option.some.inj (isData.symm.trans isOtherData)
  have nodup : ledger.state.corpus.ids.Nodup :=
    (InMemoryCorpus.sorted_ids ledger.state.corpus).imp Nat.ne_of_lt
  have changes :
      ∀ field,
        total field ledger.state.corpus.ids
              (Function.update ledger.measured idx none) +
            field measured =
          total field ledger.state.corpus.ids ledger.measured := by
    intro field
    have updated :=
      @total_update field ledger.state.corpus.ids ledger.measured idx none
        nodup isLive
    rw [isMeasured] at updated
    exact updated
  have execTime := changes (·.totalTime)
  have cycles := changes (·.iter)
  have bitmap := changes (·.bitmapSize)
  have entries := changes fun _ => 1
  have sumsExecTime := sums.execTime
  have sumsCycles := sums.cycles
  have sumsBitmap := sums.bitmapSize
  have sumsEntries := sums.bitmapEntries
  have time : data.cycleAndTime.1 = measured.totalTime := by rw [cycleAndTime]
  have iter : data.cycleAndTime.2 = measured.iter := by rw [cycleAndTime]
  refine ⟨⟨by omega, by omega, by omega, by omega⟩, ⟨?_, ?_, ?_, ?_⟩⟩
  · change psmeta.execTime - data.cycleAndTime.1 = _
    omega
  · change psmeta.cycles - data.cycleAndTime.2 = _
    omega
  · change psmeta.bitmapSize - data.bitmapSize = _
    omega
  · change psmeta.bitmapEntries - 1 = _
    omega

end Balanced

theorem Sums.of_totals
    {psmeta : SchedulerMetadata}
    {ids others : List CorpusId}
    {measured : CorpusId → Option Measurement}
    (sums : Sums psmeta ids measured)
    (same : ∀ field, total field others measured = total field ids measured) :
    Sums psmeta others measured :=
  ⟨sums.execTime.trans (same _).symm, sums.cycles.trans (same _).symm,
    sums.bitmapSize.trans (same _).symm, sums.bitmapEntries.trans (same _).symm⟩

theorem nodup_ids (state : State Input) : state.corpus.ids.Nodup :=
  (InMemoryCorpus.sorted_ids state.corpus).imp Nat.ne_of_lt

variable {ledger : Ledger Input}
variable {idx : CorpusId}

/-- An event leaves a balanced ledger. -/
def Settles
    (ledger : Ledger Input)
    (event : Event Input) : Prop :=
  ∃ result state,
    (perform event).outcome ledger.state = (result, state) ∧
      result ≠ .error .panicked ∧
      Balanced ⟨state, record ledger event⟩

open Procedure

theorem settles_add
    (balanced : Balanced ledger)
    (lastHash : Nat)
    (testcase : Testcase Input) :
    Settles ledger (.add lastHash testcase) := by
  obtain ⟨psmeta, isThere, _⟩ := balanced.exact
  let added : State Input :=
    { ledger.state with corpus := (ledger.state.corpus.add testcase).2 }
  have isLive : ledger.state.corpus.nextId ∈ added.corpus.ids := by
    simp [added]
  have absent : ledger.measured ledger.state.corpus.nextId = none := by
    cases isMeasured : ledger.measured ledger.state.corpus.nextId with
    | none =>
        rfl
    | some measured =>
        exact absurd
          (InMemoryCorpus.lt_nextId (balanced.recorded _ _ isMeasured).mem_ids)
          (Nat.lt_irrefl _)
  have sameTotal :
      ∀ field,
        total field added.corpus.ids ledger.measured =
          total field ledger.state.corpus.ids ledger.measured := by
    intro field
    simp [added, total, absent]
  have sameFind :
      ∀ id measured, ledger.measured id = some measured →
        added.corpus.find id = ledger.state.corpus.find id := by
    intro id measured isMeasured
    refine InMemoryCorpus.find_add.trans (if_neg ?_)
    rintro rfl
    rw [absent] at isMeasured
    cases isMeasured
  have adds :
      (perform (.add lastHash testcase)).outcome ledger.state =
        (onAdd lastHash ledger.state.corpus.nextId).outcome added := by
    rw [perform, outcome_bind_ok outcome_addTestcase]
  rcases outcome_attachSchedulerMeta isLive lastHash with
    ⟨depth, attaches⟩ | ⟨message, fails⟩
  · refine ⟨.ok (), _, adds.trans attaches, by simp, ?_⟩
    refine balanced.of_same isThere isThere rfl rfl rfl rfl ?_ ?_
    · intro field
      rw [InMemoryCorpus.ids_modify]
      exact sameTotal field
    · intro id measured isMeasured recorded
      refine recorded.of_same_find ?_
      refine (InMemoryCorpus.find_modify.trans (if_neg ?_)).trans
        (sameFind id measured isMeasured)
      rintro rfl
      rw [absent] at isMeasured
      cases isMeasured
  · refine ⟨_, added, adds.trans fails, by simp, ?_⟩
    exact balanced.of_same isThere isThere rfl rfl rfl rfl sameTotal
      fun id measured isMeasured recorded =>
        recorded.of_same_find (sameFind id measured isMeasured)

theorem settles_next
    (balanced : Balanced ledger) :
    Settles ledger .next := by
  obtain ⟨psmeta, isThere, _⟩ := balanced.exact
  by_cases isEmpty : ledger.state.corpus.ids = []
  · refine ⟨.error (.empty "No entries in corpus"), ledger.state, ?_, by simp,
      balanced⟩
    exact outcome_bind_error (outcome_next_empty isEmpty)
  · obtain ⟨id, queueCycles, isLive, schedules⟩ :=
      outcome_next isThere isEmpty
    obtain ⟨testcase, found⟩ := InMemoryCorpus.mem_ids.mp isLive
    let scheduled : State Input :=
      { ledger.state with
        corpus := ledger.state.corpus.setCurrent (some id)
        schedulerMetadata :=
          some { psmeta with queueCycles := queueCycles } }
    have foundNow : scheduled.corpus.find id = some testcase := found
    cases isData : testcase.schedulerMeta with
    | none =>
        refine
          ⟨.error (.keyNotFound "SchedulerTestcaseMetaData not found"),
            scheduled, ?_, by simp, ?_⟩
        · refine outcome_bind_error (schedules.trans (outcome_bind_error ?_))
          unfold updateHandicap
          rw [outcome_bind_ok (outcome_getTestcase_ok foundNow), isData]
          rfl
        · exact balanced.of_same isThere rfl rfl rfl rfl rfl (fun _ => rfl)
            fun _ _ _ recorded => recorded.of_same_find rfl
    | some data =>
        have updates := outcome_updateHandicap foundNow isData
        have ends :
            (perform .next).outcome ledger.state =
              (.ok (), (updateHandicap id : Hook Input _).outcome scheduled |>.2) :=
          outcome_bind_ok
            (schedules.trans (outcome_bind_ok (updates.trans (by rw [updates]))))
        refine ⟨.ok (), _, ends, by simp, ?_⟩
        rw [updates]
        refine balanced.of_same isThere rfl rfl rfl rfl rfl ?_ ?_
        · intro field
          dsimp only
          rw [InMemoryCorpus.ids_modify]
          rfl
        · intro other measured _ recorded
          by_cases isId : other = id
          · subst isId
            obtain ⟨same, sameData, foundSame, level, isSameData, measures⟩ :=
              recorded
            obtain rfl := Option.some.inj (found.symm.trans foundSame)
            obtain rfl := Option.some.inj (isData.symm.trans isSameData)
            refine
              ⟨{ testcase with
                  schedulerMeta :=
                    some
                      { data with
                        handicap :=
                          if 4 ≤ data.handicap then data.handicap - 4
                          else data.handicap - 1 } },
                _, ?_, level, rfl, measures⟩
            dsimp only
            rw [InMemoryCorpus.find_modify, if_pos rfl, foundNow]
            rfl
          · exact recorded.of_same_find
              (InMemoryCorpus.find_modify.trans (if_neg isId))

theorem forget_unmeasured
    (isUnmeasured : ledger.measured idx = none) :
    Function.update ledger.measured idx none = ledger.measured := by
  rw [← isUnmeasured, Function.update_eq_self]

theorem Balanced.measured_of_missing
    (balanced : Balanced ledger)
    (missing : ledger.state.corpus.find idx = none) :
    ledger.measured idx = none := by
  cases isMeasured : ledger.measured idx with
  | none =>
      rfl
  | some measured =>
      exact absurd (balanced.recorded idx measured isMeasured).mem_ids
        (InMemoryCorpus.find_eq_none.mp missing)

/-- A calibrated entry that is replaced takes its measures along. -/
theorem settles_replace
    (balanced : Balanced ledger)
    (testcase : Testcase Input)
    (measures : Measures (some ledger) (.replace idx testcase)) :
    Settles ledger (.replace idx testcase) := by
  obtain ⟨psmeta, isThere, _⟩ := balanced.exact
  cases found : ledger.state.corpus.find idx with
  | none =>
      have unmeasured := balanced.measured_of_missing found
      refine ⟨_, ledger.state,
        outcome_bind_error (outcome_replaceTestcase_missing found),
        by simp [Corpus.indexNotFound], ?_⟩
      rw [record, forget_unmeasured unmeasured]
      exact balanced
  | some prev =>
      have replaces := @outcome_replaceTestcase _ _ _ testcase _ found
      let replaced : State Input :=
        { ledger.state with
          corpus := ledger.state.corpus.modify idx fun _ => testcase }
      have sameFind :
          ∀ id, id ≠ idx →
            replaced.corpus.find id = ledger.state.corpus.find id :=
        fun id different => InMemoryCorpus.find_modify.trans (if_neg different)
      cases isData : prev.schedulerMeta with
      | none =>
          have unmeasured := balanced.measured_of_recorded found isData
          refine
            ⟨.error (.keyNotFound "SchedulerTestcaseMetaData not found"),
              replaced, ?_, by simp, ?_⟩
          · refine (outcome_bind_ok replaces).trans ?_
            unfold onReplace
            rw [isData]
            rfl
          · rw [record, forget_unmeasured unmeasured]
            refine balanced.of_same isThere isThere rfl rfl rfl rfl ?_ ?_
            · intro field
              rw [InMemoryCorpus.ids_modify]
            · intro id measured isMeasured recorded
              refine recorded.of_same_find (sameFind id ?_)
              rintro rfl
              rw [unmeasured] at isMeasured
              cases isMeasured
      | some data =>
          obtain ⟨measured, isMeasured⟩ :=
            Option.isSome_iff_exists.mp
              (measures prev found (by rw [isData]; rfl))
          obtain ⟨has, sums⟩ :=
            balanced.hasMeasures isThere isMeasured found isData
          have isReplaced :
              replaced.corpus.find idx = some testcase := by
            refine InMemoryCorpus.find_modify.trans ?_
            rw [if_pos rfl, found]
            rfl
          have takesBack :=
            @outcome_takeBack _ replaced psmeta data isThere has
          refine
            ⟨.ok (), _,
              (outcome_bind_ok replaces).trans
                ((outcome_bind_ok (by rw [isData]; rfl)).trans
                  ((outcome_bind_ok takesBack).trans
                    (outcome_bind_ok (outcome_getTestcase_ok isReplaced)))),
              by simp, ?_⟩
          constructor
          · refine ⟨withoutMeasures psmeta data, rfl, ?_⟩
            rw [InMemoryCorpus.ids_modify, InMemoryCorpus.ids_modify]
            exact sums
          · intro id other isOther
            change Function.update ledger.measured idx none id = _ at isOther
            by_cases isIdx : id = idx
            · subst isIdx
              rw [Function.update_self] at isOther
              cases isOther
            · rw [Function.update_of_ne isIdx] at isOther
              refine (balanced.recorded id other isOther).of_same_find ?_
              exact (InMemoryCorpus.find_modify.trans (if_neg isIdx)).trans
                (sameFind id isIdx)

/-- A calibrated entry that is removed takes its measures along. -/
theorem settles_remove
    (balanced : Balanced ledger)
    (measures : Measures (some ledger) (.remove idx)) :
    Settles ledger (.remove idx) := by
  obtain ⟨psmeta, isThere, _⟩ := balanced.exact
  cases found : ledger.state.corpus.find idx with
  | none =>
      have unmeasured := balanced.measured_of_missing found
      refine ⟨_, ledger.state,
        outcome_bind_error (outcome_removeTestcase_missing found),
        by simp [Corpus.indexNotFound], ?_⟩
      rw [record, forget_unmeasured unmeasured]
      exact balanced
  | some prev =>
      have removes := outcome_removeTestcase found
      have isLive := InMemoryCorpus.mem_ids.mpr ⟨prev, found⟩
      let removed : State Input :=
        { ledger.state with corpus := ledger.state.corpus.removed idx }
      have sameFind :
          ∀ id, id ≠ idx →
            removed.corpus.find id = ledger.state.corpus.find id :=
        fun id different => InMemoryCorpus.find_removed.trans (if_neg different)
      have sameTotal :
          ∀ field measured, measured idx = none →
            total field removed.corpus.ids measured =
              total field ledger.state.corpus.ids measured := by
        intro field measured isUnmeasured
        have removes :=
          @total_removed field _ measured _ (nodup_ids ledger.state) isLive
        rw [isUnmeasured] at removes
        rw [InMemoryCorpus.ids_removed]
        exact removes
      cases isData : prev.schedulerMeta with
      | none =>
          have unmeasured := balanced.measured_of_recorded found isData
          refine
            ⟨.error (.keyNotFound "SchedulerTestcaseMetaData not found"),
              removed, ?_, by simp, ?_⟩
          · refine (outcome_bind_ok removes).trans ?_
            simp only [onRemove]
            rw [isData]
            rfl
          · rw [record, forget_unmeasured unmeasured]
            refine balanced.of_same isThere isThere rfl rfl rfl rfl ?_ ?_
            · exact fun field => sameTotal field _ unmeasured
            · intro id measured isMeasured recorded
              refine recorded.of_same_find (sameFind id ?_)
              rintro rfl
              rw [unmeasured] at isMeasured
              cases isMeasured
      | some data =>
          obtain ⟨measured, isMeasured⟩ :=
            Option.isSome_iff_exists.mp
              (measures prev found (by rw [isData]; rfl))
          obtain ⟨has, sums⟩ :=
            balanced.hasMeasures isThere isMeasured found isData
          have takesBack :=
            @outcome_takeBack _ removed psmeta data isThere has
          refine
            ⟨.ok (), _,
              (outcome_bind_ok removes).trans
                ((outcome_bind_ok (by rw [isData]; rfl)).trans takesBack),
              by simp, ?_⟩
          constructor
          · refine ⟨withoutMeasures psmeta data, rfl, sums.of_totals ?_⟩
            exact fun field => sameTotal field _ (Function.update_self _ _ _)
          · intro id other isOther
            change Function.update ledger.measured idx none id = _ at isOther
            by_cases isIdx : id = idx
            · subst isIdx
              rw [Function.update_self] at isOther
              cases isOther
            · rw [Function.update_of_ne isIdx] at isOther
              exact (balanced.recorded id other isOther).of_same_find
                (sameFind id isIdx)

variable {state : State Input}

theorem of_calibrates
    (isCalibrated : calibrates state idx = true) :
    ∃ testcase,
      state.corpus.find idx = some testcase ∧ testcase.fuzzLevel = 0 ∧
        testcase.schedulerMeta.isSome = true := by
  cases found : state.corpus.find idx with
  | none =>
      rw [calibrates, found] at isCalibrated
      cases isCalibrated
  | some testcase =>
      rw [calibrates, found, Option.any_some, Bool.and_eq_true,
        Bool.and_eq_true, decide_eq_true_eq] at isCalibrated
      exact ⟨testcase, rfl, isCalibrated.1, isCalibrated.2.2⟩

/-- The calibration of an entry adds its measures. -/
theorem settles_calibrate
    (balanced : Balanced ledger)
    (measured : Measurement)
    (measures : Measures (some ledger) (.calibrate idx measured)) :
    Settles ledger (.calibrate idx measured) := by
  obtain ⟨psmeta, isThere, sums⟩ := balanced.exact
  by_cases isCalibrated : calibrates ledger.state idx = true
  · obtain ⟨testcase, found, level, hasMeta⟩ := of_calibrates isCalibrated
    obtain ⟨data, isData⟩ := Option.isSome_iff_exists.mp hasMeta
    have fits := measures isCalibrated psmeta isThere
    have isLive := InMemoryCorpus.mem_ids.mpr ⟨testcase, found⟩
    have unmeasured : ledger.measured idx = none := by
      cases isMeasured : ledger.measured idx with
      | none =>
          rfl
      | some before =>
          obtain ⟨other, _, foundOther, calibrated, _⟩ :=
            balanced.recorded idx before isMeasured
          obtain rfl := Option.some.inj (found.symm.trans foundOther)
          omega
    have changes :
        ∀ field,
          total field ledger.state.corpus.ids
              (Function.update ledger.measured idx (some measured)) =
            total field ledger.state.corpus.ids ledger.measured +
              field measured := by
      intro field
      have updated :=
        @total_update field ledger.state.corpus.ids ledger.measured idx
          (some measured) (nodup_ids ledger.state) isLive
      rw [unmeasured] at updated
      exact updated
    refine
      ⟨.ok (), _,
        CalibrationStage.outcome_perform isThere found level hasMeta fits,
        by simp, ?_⟩
    rw [record, if_pos isCalibrated]
    constructor
    · refine
        ⟨CalibrationStage.withMeasures psmeta measured, rfl, ?_, ?_, ?_, ?_⟩
      · rw [InMemoryCorpus.ids_modify, changes, ← sums.execTime]
        rfl
      · rw [InMemoryCorpus.ids_modify, changes, ← sums.cycles]
        rfl
      · rw [InMemoryCorpus.ids_modify, changes, ← sums.bitmapSize]
        rfl
      · rw [InMemoryCorpus.ids_modify, changes, ← sums.bitmapEntries]
        rfl
    · intro id other isOther
      dsimp only at isOther
      by_cases isIdx : id = idx
      · subst isIdx
        rw [Function.update_self] at isOther
        cases isOther
        refine
          ⟨CalibrationStage.calibrated psmeta measured testcase,
            { data with
              cycleAndTime := (measured.totalTime, measured.iter)
              bitmapSize := measured.bitmapSize
              handicap := psmeta.queueCycles },
            ?_, Nat.succ_pos _, ?_, rfl, rfl⟩
        · refine InMemoryCorpus.find_modify.trans ?_
          rw [if_pos rfl, found]
          rfl
        · rw [CalibrationStage.calibrated, isData]
          rfl
      · rw [Function.update_of_ne isIdx] at isOther
        exact (balanced.recorded id other isOther).of_same_find
          (InMemoryCorpus.find_modify.trans (if_neg isIdx))
  · have unchanged :
        ∃ result,
          (perform (.calibrate idx measured)).outcome ledger.state =
              (result, ledger.state) ∧
            result ≠ .error .panicked := by
      rw [perform, CalibrationStage.perform]
      cases found : ledger.state.corpus.find idx with
      | none =>
          refine ⟨.error (Corpus.indexNotFound idx), outcome_bind_error ?_,
            by simp [Corpus.indexNotFound]⟩
          rw [outcome_getTestcase, InMemoryCorpus.get_eq, found]
      | some testcase =>
          refine ⟨.ok (), ?_, by simp⟩
          rw [outcome_bind_ok (outcome_getTestcase_ok found)]
          by_cases level : 0 < testcase.fuzzLevel
          · rw [if_pos level]
            rfl
          · rw [if_neg level, outcome_bind_ok outcome_get, if_neg]
            · rfl
            · intro both
              refine isCalibrated ?_
              rw [calibrates, found, Option.any_some, both]
              simpa using level
    obtain ⟨result, ends, notPanicked⟩ := unchanged
    refine ⟨result, ledger.state, ends, notPanicked, ?_⟩
    rw [record, if_neg isCalibrated]
    exact balanced

theorem settles
    (balanced : Balanced ledger)
    {event : Event Input}
    (measures : Measures (some ledger) event) :
    Settles ledger event := by
  cases event with
  | add lastHash testcase =>
      exact settles_add balanced lastHash testcase
  | replace idx testcase =>
      exact settles_replace balanced testcase measures
  | remove idx =>
      exact settles_remove balanced measures
  | calibrate idx measured =>
      exact settles_calibrate balanced measured measures
  | next =>
      exact settles_next balanced

variable {next : Option (Ledger Input)}

theorem next_of_outcome
    {event : Event Input}
    {result : Except Error Unit}
    (ends : (perform event).outcome ledger.state = (result, state))
    (taken : Step (some ledger) event next) :
    result = .error .panicked ∧ next = none ∨
      result ≠ .error .panicked ∧ next = some ⟨state, record ledger event⟩ := by
  cases taken with
  | done endsToo notPanicked =>
      cases ends.symm.trans endsToo
      exact .inr ⟨notPanicked, rfl⟩
  | panicked endsToo =>
      cases ends.symm.trans endsToo
      exact .inl ⟨rfl, rfl⟩

theorem not_exact_of_taken_back
    (balanced : Balanced ledger)
    {psmeta : SchedulerMetadata}
    (isThere : ledger.state.schedulerMetadata = some psmeta)
    {data : SchedulerTestcaseMetaData}
    (has : HasMeasures psmeta data)
    (isAfter :
      state.schedulerMetadata = some (withoutMeasures psmeta data))
    (sameTotal :
      total (fun _ => 1) state.corpus.ids ledger.measured =
        total (fun _ => 1) ledger.state.corpus.ids ledger.measured) :
    ¬Exact (some ⟨state, ledger.measured⟩) := by
  rintro ⟨after, isAfterToo, sumsAfter⟩
  obtain rfl := Option.some.inj (isAfter.symm.trans isAfterToo)
  obtain ⟨_, isThereToo, sums⟩ := balanced.exact
  obtain rfl := Option.some.inj (isThere.symm.trans isThereToo)
  have entries := has.bitmapEntries
  have before := sums.bitmapEntries
  have after := sumsAfter.bitmapEntries
  change psmeta.bitmapEntries - 1 = _ at after
  rw [sameTotal] at after
  omega

theorem measured_of_replace
    (balanced : Balanced ledger)
    {testcase : Testcase Input}
    (taken : Step (some ledger) (.replace idx testcase) next)
    (exact : Exact next) :
    Measures (some ledger) (.replace idx testcase) := by
  intro prev found hasMeta
  by_contra unmeasured
  rw [Option.not_isSome_iff_eq_none] at unmeasured
  obtain ⟨psmeta, isThere, _⟩ := balanced.exact
  obtain ⟨data, isData⟩ := Option.isSome_iff_exists.mp hasMeta
  let replaced : State Input :=
    { ledger.state with
      corpus := ledger.state.corpus.modify idx fun _ => testcase }
  have reaches :
      (perform (.replace idx testcase)).outcome ledger.state =
        (takeBack data >>= fun _ => do
          let _ ← getTestcase idx
          updateTestcase idx fun testcase =>
            { testcase with
              schedulerMeta := some (.new (data.depth + 1)) } :
          Hook Input Unit).outcome replaced := by
    rw [perform, outcome_bind_ok (outcome_replaceTestcase found), onReplace,
      isData]
    rfl
  by_cases has : HasMeasures psmeta data
  · have isReplaced : replaced.corpus.find idx = some testcase := by
      refine InMemoryCorpus.find_modify.trans ?_
      rw [if_pos rfl, found]
      rfl
    have ends :=
      reaches.trans
        ((outcome_bind_ok (@outcome_takeBack _ replaced psmeta data isThere
          has)).trans
          (outcome_bind_ok (outcome_getTestcase_ok isReplaced)))
    rcases next_of_outcome ends taken with ⟨panicked, _⟩ | ⟨_, rfl⟩
    · cases panicked
    · rw [record, forget_unmeasured unmeasured] at exact
      refine not_exact_of_taken_back balanced isThere has rfl ?_ exact
      dsimp only
      rw [InMemoryCorpus.ids_modify, InMemoryCorpus.ids_modify]
  · have ends :=
      reaches.trans
        (outcome_bind_error
          (@outcome_takeBack_panics _ replaced psmeta data isThere has))
    rcases next_of_outcome ends taken with ⟨_, rfl⟩ | ⟨notPanicked, _⟩
    · exact exact
    · exact notPanicked rfl

theorem measured_of_remove
    (balanced : Balanced ledger)
    (taken : Step (some ledger) (.remove idx) next)
    (exact : Exact next) :
    Measures (some ledger) (.remove idx) := by
  intro prev found hasMeta
  by_contra unmeasured
  rw [Option.not_isSome_iff_eq_none] at unmeasured
  obtain ⟨psmeta, isThere, _⟩ := balanced.exact
  obtain ⟨data, isData⟩ := Option.isSome_iff_exists.mp hasMeta
  let removed : State Input :=
    { ledger.state with corpus := ledger.state.corpus.removed idx }
  have reaches :
      (perform (.remove idx)).outcome ledger.state =
        (takeBack data).outcome removed := by
    rw [perform, outcome_bind_ok (outcome_removeTestcase found)]
    simp only [onRemove]
    rw [isData]
    rfl
  by_cases has : HasMeasures psmeta data
  · have ends :=
      reaches.trans (@outcome_takeBack _ removed psmeta data isThere has)
    rcases next_of_outcome ends taken with ⟨panicked, _⟩ | ⟨_, rfl⟩
    · cases panicked
    · rw [record, forget_unmeasured unmeasured] at exact
      refine not_exact_of_taken_back balanced isThere has rfl ?_ exact
      have removes :=
        @total_removed (fun _ => 1) _ ledger.measured _
          (nodup_ids ledger.state)
          (InMemoryCorpus.mem_ids.mpr ⟨prev, found⟩)
      rw [unmeasured] at removes
      dsimp only
      rw [InMemoryCorpus.ids_removed]
      exact removes
  · have ends :=
      reaches.trans
        (@outcome_takeBack_panics _ removed psmeta data isThere has)
    rcases next_of_outcome ends taken with ⟨_, rfl⟩ | ⟨notPanicked, _⟩
    · exact exact
    · exact notPanicked rfl

theorem fits_of_calibrate
    {measured : Measurement}
    (taken : Step (some ledger) (.calibrate idx measured) next)
    (exact : Exact next) :
    Measures (some ledger) (.calibrate idx measured) := by
  intro isCalibrated psmeta isThere
  by_contra exceeds
  obtain ⟨testcase, found, level, hasMeta⟩ := of_calibrates isCalibrated
  have ends :
      (perform (.calibrate idx measured)).outcome ledger.state =
        (.error .panicked, ledger.state) :=
    CalibrationStage.outcome_perform_panics isThere found level hasMeta exceeds
  rcases next_of_outcome ends taken with ⟨_, rfl⟩ | ⟨notPanicked, _⟩
  · exact exact
  · exact notPanicked rfl

/-- The ledger of a scheduler that was just made. -/
def Ledger.new : Ledger Input where
  state := { State.new with schedulerMetadata := some .new }
  measured := fun _ => none

/--
Along a run the statistics are always the sums over the calibrated entries, and
no arithmetic panics, if and only if every entry that is replaced or removed was
calibrated and the sums stay within their types.
-/
theorem statistics_exact_iff (events : List (Event Input)) :
    Run.Always Step Exact (some .new) events ↔
      Run.Everywhere Step Measures (some .new) events := by
  refine
    @Run.always_iff_everywhere_of_invariant _ _ Step Exact
      (fun state => ∃ ledger, state = some ledger ∧ Balanced ledger) Measures
      ?_ ?_ ?_ _ ?_ events
  · rintro _ ⟨ledger, rfl, balanced⟩
    exact balanced.exact
  · rintro _ event next ⟨ledger, rfl, balanced⟩ measures taken
    obtain ⟨result, state, ends, notPanicked, balancedNext⟩ :=
      settles balanced measures
    rcases next_of_outcome ends taken with ⟨panicked, _⟩ | ⟨_, rfl⟩
    · exact absurd panicked notPanicked
    · exact ⟨_, rfl, balancedNext⟩
  · rintro _ event next ⟨ledger, rfl, balanced⟩ taken exact
    cases event with
    | add lastHash testcase =>
        trivial
    | replace idx testcase =>
        exact measured_of_replace balanced taken exact
    | remove idx =>
        exact measured_of_remove balanced taken exact
    | calibrate idx measured =>
        exact fits_of_calibrate taken exact
    | next =>
        trivial
  · refine ⟨.new, rfl, ⟨.new, rfl, rfl, rfl, rfl, rfl⟩, ?_⟩
    intro id measured isMeasured
    cases isMeasured

/-- An entry that is removed before it was calibrated makes a subtraction panic. -/
theorem remove_uncalibrated_panics :
    ∃ added,
      Run Step (some .new) [.add 0 (.new 7)] (some added) ∧
        Step (some added) (.remove 0) none ∧
        ¬Exact (none : Option (Ledger Nat)) :=
  ⟨_, .single (.done rfl (by simp)), .panicked rfl, id⟩

end MeFuzz.Scheduler.PowerQueueScheduler
