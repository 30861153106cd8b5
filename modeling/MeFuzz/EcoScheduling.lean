import MeFuzz.EcoScheduler

namespace MeFuzz.Scheduler.EcoScheduler

open Corpus (CorpusId Error InMemoryCorpus)
open Procedure

/-!
# What the scheduler of EcoFuzz selects

The scheduler explores as it should while an entry beside the current one was
not fuzzed.  Before the first entry was fuzzed it exploits instead, and once all
of them were fuzzed it panics.
-/

variable {Input : Type}
variable {state : State Input}
variable {id other : CorpusId}
variable {data previous : EcoTestcaseMetadata}

/-- The `EcoTestcaseMetadata` of an entry. -/
def metadataOf
    (state : State Input)
    (id : CorpusId) : Option EcoTestcaseMetadata :=
  (state.corpus.find id).bind (·.ecoMeta)

/-- Whether an entry was fuzzed. -/
def fuzzed
    (state : State Input)
    (id : CorpusId) : Bool :=
  (metadataOf state id).any (·.wasFuzzed)

/-- An entry with the metadata that `on_add` attaches. -/
def Readable
    (state : State Input)
    (id : CorpusId) : Prop :=
  ∃ testcase,
    state.corpus.find id = some testcase ∧
      testcase.schedulerMeta.isSome = true ∧ testcase.ecoMeta.isSome = true

/-- The state after an entry got other metadata. -/
def withEntry
    (state : State Input)
    (id : CorpusId)
    (data : EcoTestcaseMetadata) : State Input :=
  { state with corpus := state.corpus.modify id (withMetadata data) }

@[simp] theorem ids_withEntry :
    (withEntry state id data).corpus.ids = state.corpus.ids :=
  InMemoryCorpus.ids_modify

@[simp] theorem count_withEntry :
    (withEntry state id data).corpus.count = state.corpus.count := by
  rw [InMemoryCorpus.count_eq, InMemoryCorpus.count_eq, ids_withEntry]

theorem Readable.metadataOf
    (readable : Readable state id) :
    ∃ data, metadataOf state id = some data := by
  obtain ⟨testcase, found, _, hasMeta⟩ := readable
  obtain ⟨data, isData⟩ := Option.isSome_iff_exists.mp hasMeta
  exact ⟨data, by rw [EcoScheduler.metadataOf, found, Option.bind_some, isData]⟩

theorem metadataOf_withEntry
    (isThere : metadataOf state id = some previous) :
    metadataOf (withEntry state id data) other =
      if other = id then some data else metadataOf state other := by
  obtain ⟨testcase, found, _⟩ := Option.bind_eq_some_iff.mp isThere
  unfold metadataOf withEntry
  dsimp only
  rw [InMemoryCorpus.find_modify]
  split
  · rename_i same
    rw [same, found]
    rfl
  · rfl

theorem readable_withEntry
    (readable : Readable state other) :
    Readable (withEntry state id data) other := by
  obtain ⟨testcase, found, hasDepth, hasMeta⟩ := readable
  unfold Readable withEntry
  dsimp only
  rw [InMemoryCorpus.find_modify]
  split
  · exact ⟨withMetadata data testcase, by rw [found]; rfl, hasDepth, rfl⟩
  · exact ⟨testcase, found, hasDepth, hasMeta⟩

theorem outcome_getMetadata
    {data : EcoMetadata}
    (isThere : state.eco = some data) :
    (getMetadata : Hook Input _).outcome state = (.ok data, state) := by
  unfold getMetadata
  rw [outcome_bind_ok outcome_get, isThere]
  rfl

@[simp] theorem outcome_setMetadata
    {data : EcoMetadata} :
    (setMetadata data : Hook Input _).outcome state =
      (.ok (), { state with eco := some data }) :=
  rfl

theorem outcome_getTestcaseMetadata
    (isThere : metadataOf state id = some data) :
    (getTestcaseMetadata id : Hook Input _).outcome state =
      (.ok data, state) := by
  obtain ⟨testcase, found, isData⟩ := Option.bind_eq_some_iff.mp isThere
  unfold getTestcaseMetadata
  rw [outcome_bind_ok (outcome_getTestcase_ok found), isData]
  rfl

@[simp] theorem outcome_setTestcaseMetadata :
    (setTestcaseMetadata id data : Hook Input _).outcome state =
      (.ok (), withEntry state id data) :=
  rfl

theorem outcome_findUnfuzzed
    (ids : List CorpusId)
    (readable : ∀ id ∈ ids, Readable state id) :
    (findUnfuzzed ids : Hook Input _).outcome state =
      (.ok (ids.find? fun id => !fuzzed state id), state) := by
  induction ids with
  | nil =>
      rfl
  | cons id rest ih =>
      obtain ⟨data, isThere⟩ := (readable id List.mem_cons_self).metadataOf
      have later := ih fun other isOther =>
        readable other (List.mem_cons_of_mem _ isOther)
      unfold findUnfuzzed
      rw [outcome_bind_ok (outcome_getTestcaseMetadata isThere),
        List.find?_cons, fuzzed, isThere, Option.any_some]
      cases data.wasFuzzed with
      | true =>
          exact later
      | false =>
          rfl

theorem outcome_anyFuzzed
    (ids : List CorpusId)
    (readable : ∀ id ∈ ids, Readable state id) :
    (anyFuzzed ids : Hook Input _).outcome state =
      (.ok (ids.any (fuzzed state)), state) := by
  induction ids with
  | nil =>
      rfl
  | cons id rest ih =>
      obtain ⟨data, isThere⟩ := (readable id List.mem_cons_self).metadataOf
      have later := ih fun other isOther =>
        readable other (List.mem_cons_of_mem _ isOther)
      unfold anyFuzzed
      rw [outcome_bind_ok (outcome_getTestcaseMetadata isThere),
        List.any_cons, fuzzed, isThere, Option.any_some]
      cases data.wasFuzzed with
      | true =>
          rfl
      | false =>
          exact later

/-- An entry that was never scheduled. -/
structure Fresh (data : EcoTestcaseMetadata) : Prop where
  mutationNum : data.mutationNum = 0
  execByMutation : data.execByMutation = 0
  state : data.state = .none
  wasFuzzed : data.wasFuzzed = false

theorem outcome_selectBest
    (ids : List CorpusId)
    (fresh :
      ∀ id ∈ ids, ∃ data, metadataOf state id = some data ∧ Fresh data)
    (isFresh : Fresh data) :
    (selectBest ids id data : Hook Input _).outcome state =
      (.ok id, state) := by
  induction ids with
  | nil =>
      rfl
  | cons first rest ih =>
      obtain ⟨entry, isThere, isFreshEntry⟩ := fresh first List.mem_cons_self
      have later := ih fun other isOther =>
        fresh other (List.mem_cons_of_mem _ isOther)
      unfold selectBest
      rw [outcome_bind_ok (outcome_getTestcaseMetadata isThere),
        isFresh.mutationNum, isFresh.execByMutation, isFreshEntry.mutationNum,
        isFreshEntry.execByMutation]
      simp only [checkedProduct, Nat.zero_mul, Nat.mul_zero]
      exact later

theorem outcome_schedule_explores
    {data : EcoMetadata}
    (isThere : state.eco = some data)
    (readable : ∀ id ∈ state.corpus.ids, Readable state id)
    (isLive : id ∈ state.corpus.ids)
    (isFuzzed : fuzzed state id = true) :
    (schedule : Hook Input _).outcome state =
      (match state.corpus.ids.find? fun id => !fuzzed state id with
        | some selection => .ok selection
        | none => .error .panicked,
        { state with eco := some { data with state := .exploration } }) := by
  have some : state.corpus.ids.any (fuzzed state) = true :=
    List.any_eq_true.mpr ⟨id, isLive, isFuzzed⟩
  unfold schedule
  rw [outcome_bind_ok outcome_get,
    outcome_bind_ok (outcome_findUnfuzzed _ readable),
    outcome_bind_ok (outcome_anyFuzzed _ readable), some, if_pos rfl,
    outcome_bind_ok (outcome_getMetadata isThere),
    outcome_bind_ok outcome_setMetadata]
  split <;> simp only [*] <;> rfl

theorem outcome_schedule_exploits
    {data : EcoMetadata}
    (isThere : state.eco = some data)
    (readable : ∀ id ∈ state.corpus.ids, Readable state id)
    (fresh : ∀ id data, metadataOf state id = some data → Fresh data)
    (isFirst : state.corpus.first = some id) :
    (schedule : Hook Input _).outcome state =
      (.ok id,
        { state with eco := some { data with state := .exploitation } }) := by
  have allFresh :
      ∀ id ∈ state.corpus.ids,
        ∃ data, metadataOf state id = some data ∧ Fresh data := by
    intro id isLive
    obtain ⟨data, isData⟩ := (readable id isLive).metadataOf
    exact ⟨data, isData, fresh id data isData⟩
  have none : state.corpus.ids.any (fuzzed state) = false := by
    rw [List.any_eq_false]
    intro id isLive
    obtain ⟨data, isData, isFresh⟩ := allFresh id isLive
    simp [fuzzed, isData, isFresh.wasFuzzed]
  obtain ⟨entry, isEntry, isFresh⟩ :=
    allFresh id (InMemoryCorpus.mem_of_first isFirst)
  obtain ⟨rest, split⟩ :=
    List.head?_eq_some_iff.mp
      ((InMemoryCorpus.first_eq state.corpus).symm.trans isFirst)
  let exploiting : State Input :=
    { state with eco := some { data with state := .exploitation } }
  have walks :
      (findUnexploited state.corpus.ids : Hook Input _).outcome exploiting =
        (.ok (some id), exploiting) := by
    rw [split, findUnexploited,
      outcome_bind_ok (@outcome_getTestcaseMetadata _ exploiting _ _ isEntry),
      if_neg (by simp [isFresh.state])]
    rfl
  unfold schedule
  rw [outcome_bind_ok outcome_get,
    outcome_bind_ok (outcome_findUnfuzzed _ readable),
    outcome_bind_ok (outcome_anyFuzzed _ readable), none,
    if_neg Bool.false_ne_true, outcome_bind_ok (outcome_getMetadata isThere),
    outcome_bind_ok outcome_setMetadata, outcome_bind_ok walks]
  exact
    (outcome_bind_ok (@outcome_getTestcaseMetadata _ exploiting _ _ isEntry)
      ).trans
      (@outcome_selectBest _ exploiting _ _ _ allFresh isFresh)

theorem outcome_schedule_empty
    {data : EcoMetadata}
    (isThere : state.eco = some data)
    (isEmpty : state.corpus.ids = []) :
    (schedule : Hook Input _).outcome state =
      (.error .panicked,
        { state with eco := some { data with state := .exploitation } }) := by
  have noFirst : state.corpus.first = none := by
    rw [InMemoryCorpus.first_eq, isEmpty]
    rfl
  unfold schedule
  rw [outcome_bind_ok outcome_get, isEmpty,
    outcome_bind_ok (outcome_findUnfuzzed [] (by simp)),
    outcome_bind_ok (outcome_anyFuzzed [] (by simp)),
    if_neg (by simp), outcome_bind_ok (outcome_getMetadata isThere),
    outcome_bind_ok outcome_setMetadata, noFirst]
  rfl

/-- What happens to the scheduler. -/
inductive Event (Input : Type) where
  | add (lastHash : Nat) (testcase : Testcase Input)
  | execute
  | evaluate (observed : Option Nat)
  | score (idx : CorpusId)
  | next

/-- An entry is added to the corpus, an input is executed or a hook is called. -/
def perform : Event Input → Hook Input Unit
  | .add lastHash testcase => do
      let idx ← addTestcase testcase
      onAdd lastHash idx
  | .execute =>
      modify fun state => { state with executions := state.executions + 1 }
  | .evaluate observed => do
      let _ ← onEvaluation observed
  | .score idx => do
      let _ ← compute idx
  | .next => do
      let _ ← next

/-- Each event leaves a state, unless it panics. -/
inductive Step : StepRelation (State Input) (Event Input) where
  | done
      {state after : State Input}
      {event : Event Input}
      {result : Except Error Unit} :
      (perform event).outcome state = (result, after) →
      result ≠ .error .panicked →
      Step state event after

/-- What the metadata of the state and of the entries agree on. -/
structure Consistent
    (state : State Input)
    (data : EcoMetadata) : Prop where
  isThere : state.eco = some data
  executions : data.lastExecutions ≤ state.executions
  corpusCount : data.lastCorpusCount ≤ state.corpus.count
  readable : ∀ id ∈ state.corpus.ids, Readable state id
  current :
    ∀ id, state.corpus.current = some id →
      ∃ previous,
        metadataOf state id = some previous ∧
          data.lastMutationNum ≤ previous.mutationNum
  fresh :
    state.corpus.current = none →
      data.state = .none ∧
        ∀ id previous, metadataOf state id = some previous → Fresh previous

/-- The tables of a state agree. -/
def IsConsistent (state : State Input) : Prop :=
  ∃ data, Consistent state data

theorem mem_of_metadataOf
    (isThere : metadataOf state id = some previous) :
    id ∈ state.corpus.ids := by
  obtain ⟨testcase, found, _⟩ := Option.bind_eq_some_iff.mp isThere
  exact InMemoryCorpus.mem_ids.mpr ⟨testcase, found⟩

variable {stats : EcoMetadata}

theorem Consistent.withEntry
    (consistent : Consistent state stats)
    (isThere : metadataOf state id = some previous)
    (notSmaller : previous.mutationNum ≤ data.mutationNum)
    (staysFresh :
      state.corpus.current = none → Fresh previous → Fresh data) :
    Consistent (withEntry state id data) stats := by
  constructor
  · exact consistent.isThere
  · exact consistent.executions
  · rw [count_withEntry]
    exact consistent.corpusCount
  · intro other isLive
    rw [ids_withEntry] at isLive
    exact readable_withEntry (consistent.readable other isLive)
  · intro current isCurrent
    obtain ⟨before, isBefore, notBelow⟩ := consistent.current current isCurrent
    rw [metadataOf_withEntry isThere]
    split
    · rename_i same
      subst same
      obtain rfl := Option.some.inj (isBefore.symm.trans isThere)
      exact ⟨data, rfl, notBelow.trans notSmaller⟩
    · exact ⟨before, isBefore, notBelow⟩
  · intro noCurrent
    obtain ⟨noState, allFresh⟩ := consistent.fresh noCurrent
    refine ⟨noState, ?_⟩
    intro other entry isEntry
    rw [metadataOf_withEntry isThere] at isEntry
    split at isEntry
    · cases isEntry
      exact staysFresh noCurrent (allFresh id previous isThere)
    · exact allFresh other entry isEntry

/-- Unless it panics, an event leaves tables that agree. -/
def Keeps
    (state : State Input)
    (event : Event Input) : Prop :=
  ∃ result after,
    (perform event).outcome state = (result, after) ∧
      (result ≠ .error .panicked → IsConsistent after)

/-- What `on_add` attaches to a testcase. -/
def attached
    (lastHash depth : Nat)
    (testcase : Testcase Input) : Testcase Input :=
  { testcase with
    schedulerMeta := some (.withNFuzzEntry (depth + 1) lastHash)
    ecoMeta := some .default }

theorem outcome_onAdd
    {stats : EcoMetadata}
    {testcase : Testcase Input}
    (isThere : state.eco = some stats)
    (executions : stats.lastExecutions ≤ state.executions)
    (parent :
      ∀ id, state.corpus.current = some id →
        ∃ parent,
          state.corpus.find id = some parent ∧
            parent.schedulerMeta.isSome = true)
    (found : state.corpus.find id = some testcase)
    (lastHash : Nat) :
    ∃ depth corpus,
      (onAdd lastHash id).outcome state =
          (.ok (),
            { state with
              corpus := corpus
              eco :=
                some
                  { stats with
                    lastFindIteration :=
                      state.executions - stats.lastExecutions + 1 } }) ∧
        corpus.ids = state.corpus.ids ∧
        corpus.current = state.corpus.current ∧
        corpus.find id = some (attached lastHash depth testcase) ∧
        ∀ other, other ≠ id → corpus.find other = state.corpus.find other := by
  have isLive := InMemoryCorpus.mem_ids.mpr ⟨testcase, found⟩
  obtain ⟨depth, attaches⟩ :=
    outcome_attachSchedulerMeta_ok parent isLive lastHash
  let withDepth : InMemoryCorpus (Testcase Input) :=
    state.corpus.modify id fun testcase =>
      { testcase with
        schedulerMeta := some (.withNFuzzEntry (depth + 1) lastHash) }
  let middle : State Input := { state with corpus := withDepth }
  have isMiddle :
      middle.corpus.find id =
        some
          { testcase with
            schedulerMeta := some (.withNFuzzEntry (depth + 1) lastHash) } := by
    refine InMemoryCorpus.find_modify.trans ?_
    rw [if_pos rfl, found]
    rfl
  refine ⟨depth, withDepth.modify id (withMetadata .default), ?_, ?_, rfl, ?_,
    ?_⟩
  · unfold onAdd
    rw [outcome_bind_ok attaches,
      outcome_bind_ok (@outcome_getTestcase_ok _ middle _ _ isMiddle),
      outcome_bind_ok outcome_setTestcaseMetadata, outcome_bind_ok outcome_get,
      outcome_bind_ok
        (@outcome_getMetadata _ (withEntry middle _ _) _ isThere)]
    exact outcome_bind_ok (outcome_checkedSub executions)
  · exact InMemoryCorpus.ids_modify.trans InMemoryCorpus.ids_modify
  · refine InMemoryCorpus.find_modify.trans ?_
    rw [if_pos rfl]
    exact congrArg (Option.map _) isMiddle
  · intro other different
    refine InMemoryCorpus.find_modify.trans ?_
    rw [if_neg different]
    exact InMemoryCorpus.find_modify.trans (if_neg different)

theorem keeps_add
    (isConsistent : IsConsistent state)
    (lastHash : Nat)
    (testcase : Testcase Input) :
    Keeps state (.add lastHash testcase) := by
  obtain ⟨data, consistent⟩ := isConsistent
  let added : State Input :=
    { state with corpus := (state.corpus.add testcase).2 }
  have others :
      ∀ id ∈ state.corpus.ids, added.corpus.find id = state.corpus.find id :=
    fun id isLive =>
      InMemoryCorpus.find_add.trans
        (if_neg (InMemoryCorpus.lt_nextId isLive).ne)
  have parent :
      ∀ id, added.corpus.current = some id →
        ∃ parent,
          added.corpus.find id = some parent ∧
            parent.schedulerMeta.isSome = true := by
    intro id isCurrent
    obtain ⟨previous, isThere, _⟩ := consistent.current id isCurrent
    have isLive := mem_of_metadataOf isThere
    obtain ⟨parent, found, hasDepth, _⟩ := consistent.readable id isLive
    exact ⟨parent, (others id isLive).trans found, hasDepth⟩
  have isNew : added.corpus.find state.corpus.nextId = some testcase :=
    InMemoryCorpus.find_add.trans (if_pos rfl)
  obtain ⟨depth, corpus, ends, sameIds, sameCurrent, isAttached, sameOthers⟩ :=
    @outcome_onAdd _ added _ data testcase consistent.isThere
      consistent.executions parent isNew lastHash
  have isAfter :
      ∀ id testcase, corpus.find id = some testcase →
        id = state.corpus.nextId ∧ testcase.ecoMeta = some .default ∨
          state.corpus.find id = some testcase := by
    intro id entry isEntry
    by_cases same : id = state.corpus.nextId
    · rw [same, isAttached] at isEntry
      cases isEntry
      exact .inl ⟨same, rfl⟩
    · rw [sameOthers id same] at isEntry
      exact .inr
        ((InMemoryCorpus.find_add.trans (if_neg same)).symm.trans isEntry)
  have isKept :
      ∀ id ∈ state.corpus.ids, corpus.find id = state.corpus.find id := by
    intro id isLive
    have same := (InMemoryCorpus.lt_nextId isLive).ne
    exact (sameOthers id same).trans (others id isLive)
  refine
    ⟨.ok (), _, (outcome_bind_ok outcome_addTestcase).trans ends, fun _ =>
      ⟨_, rfl, consistent.executions, ?_, ?_, ?_, ?_⟩⟩
  · refine consistent.corpusCount.trans ?_
    dsimp only
    rw [InMemoryCorpus.count_eq, InMemoryCorpus.count_eq, sameIds]
    simp [added]
  · intro id isLive
    dsimp only at isLive
    rw [sameIds, InMemoryCorpus.ids_add, List.mem_append,
      List.mem_singleton] at isLive
    rcases isLive with isOld | rfl
    · obtain ⟨entry, found, hasMeta⟩ := consistent.readable id isOld
      exact ⟨entry, (isKept id isOld).trans found, hasMeta⟩
    · exact ⟨_, isAttached, rfl, rfl⟩
  · intro id isCurrent
    obtain ⟨previous, isThere, notBelow⟩ :=
      consistent.current id (sameCurrent.symm.trans isCurrent)
    refine ⟨previous, ?_, notBelow⟩
    rw [metadataOf] at isThere ⊢
    rw [← isThere, ← isKept id (mem_of_metadataOf isThere)]
  · intro noCurrent
    obtain ⟨noState, allFresh⟩ :=
      consistent.fresh (sameCurrent.symm.trans noCurrent)
    refine ⟨noState, ?_⟩
    intro id previous isThere
    obtain ⟨entry, isEntry, isData⟩ := Option.bind_eq_some_iff.mp isThere
    rcases isAfter id entry isEntry with ⟨_, isDefault⟩ | isOld
    · cases isDefault.symm.trans isData
      exact ⟨rfl, rfl, rfl, rfl⟩
    · exact allFresh id previous
        (Option.bind_eq_some_iff.mpr ⟨entry, isOld, isData⟩)

theorem keeps_execute
    (isConsistent : IsConsistent state) :
    Keeps state .execute := by
  obtain ⟨data, consistent⟩ := isConsistent
  refine ⟨.ok (), _, rfl, fun _ => ⟨data, consistent.isThere, ?_,
    consistent.corpusCount, consistent.readable, consistent.current,
    consistent.fresh⟩⟩
  exact consistent.executions.trans (Nat.le_succ _)

theorem keeps_evaluate
    (isConsistent : IsConsistent state)
    (observed : Option Nat) :
    Keeps state (.evaluate observed) := by
  obtain ⟨stats, consistent⟩ := isConsistent
  have evaluates :
      ∃ result after,
        (onEvaluation observed).outcome state = (result, after) ∧
          Consistent after stats := by
    unfold onEvaluation
    rcases outcome_countRun state observed with
      ⟨hash, psmeta, counts⟩ | ⟨message, fails⟩
    · let counted : State Input :=
        { state with schedulerMetadata := some psmeta }
      have isCounted : Consistent counted stats :=
        ⟨consistent.isThere, consistent.executions, consistent.corpusCount,
          consistent.readable, consistent.current, consistent.fresh⟩
      rw [outcome_bind_ok counts, outcome_bind_ok outcome_get]
      cases isCurrent : state.corpus.current with
      | none =>
          exact ⟨_, _, rfl, isCounted⟩
      | some id =>
          obtain ⟨previous, isThere, _⟩ := isCounted.current id isCurrent
          let mutated := { previous with mutationNum := previous.mutationNum + 1 }
          have isMutated : Consistent (withEntry counted id mutated) stats := by
            refine isCounted.withEntry isThere (Nat.le_succ _) ?_
            intro noCurrent
            cases isCurrent.symm.trans noCurrent
          obtain ⟨testcase, found, hasDepth, _⟩ :=
            readable_withEntry
              (isCounted.readable id (mem_of_metadataOf isThere))
          obtain ⟨entry, isEntry⟩ := Option.isSome_iff_exists.mp hasDepth
          dsimp only
          rw [outcome_bind_ok
              (@outcome_getTestcaseMetadata _ counted _ _ isThere),
            outcome_bind_ok outcome_setTestcaseMetadata,
            outcome_bind_ok (outcome_getTestcase_ok found),
            outcome_bind_ok (outcome_orKeyNotFound isEntry)]
          by_cases isHash : entry.nFuzzEntry = hash
          · let missed :=
              { mutated with execByMutation := mutated.execByMutation + 1 }
            refine ⟨.ok hash,
              withEntry (withEntry counted id mutated) id missed, ?_, ?_⟩
            · rw [if_pos isHash]
              rfl
            · have isThereNow :
                  metadataOf (withEntry counted id mutated) id = some mutated := by
                rw [metadataOf_withEntry isThere, if_pos rfl]
              refine isMutated.withEntry isThereNow le_rfl ?_
              intro noCurrent
              cases isCurrent.symm.trans noCurrent
          · refine ⟨.ok hash, withEntry counted id mutated, ?_, isMutated⟩
            rw [if_neg isHash]
            rfl
    · exact ⟨_, _, outcome_bind_error fails, consistent⟩
  obtain ⟨result, after, ends, isAfter⟩ := evaluates
  cases result with
  | ok hash =>
      exact ⟨_, _, outcome_bind_ok ends, fun _ => ⟨stats, isAfter⟩⟩
  | error error =>
      exact ⟨_, _, outcome_bind_error ends, fun _ => ⟨stats, isAfter⟩⟩

theorem keeps_score
    (isConsistent : IsConsistent state)
    (idx : CorpusId) :
    Keeps state (.score idx) := by
  obtain ⟨stats, consistent⟩ := isConsistent
  have computes :
      ∃ result after,
        (compute idx).outcome state = (result, after) ∧
          Consistent after stats := by
    unfold compute
    cases found : state.corpus.find idx with
    | none =>
        refine ⟨.error (Corpus.indexNotFound idx), state,
          outcome_bind_error ?_, consistent⟩
        rw [outcome_getTestcase, InMemoryCorpus.get_eq, found]
    | some testcase =>
        have isLive := InMemoryCorpus.mem_ids.mpr ⟨testcase, found⟩
        obtain ⟨entry, isThere⟩ := (consistent.readable idx isLive).metadataOf
        have isEntry : testcase.ecoMeta = some entry := by
          rwa [metadataOf, found, Option.bind_some] at isThere
        rw [outcome_bind_ok (outcome_getTestcase_ok found),
          outcome_bind_ok outcome_get]
        by_cases noRuns : state.executions = 0
        · rw [if_pos noRuns]
          exact ⟨.error .panicked, state, outcome_bind_error rfl, consistent⟩
        · rw [if_neg noRuns]
          let cost := state.corpus.count / state.executions
          let averageCost := if cost = 0 then 1024 else cost
          have divides :
              (liftM (orPanic (some cost)) : Hook Input _).outcome state =
                (.ok cost, state) :=
            rfl
          rw [outcome_bind_ok divides,
            outcome_bind_ok (outcome_getMetadata consistent.isThere),
            outcome_bind_ok (outcome_orKeyNotFound isEntry)]
          refine ⟨.ok (scored stats entry averageCost).computedScore,
            withEntry state idx (scored stats entry averageCost), rfl,
            consistent.withEntry isThere le_rfl ?_⟩
          intro noCurrent isFresh
          refine ⟨isFresh.mutationNum, isFresh.execByMutation, ?_,
            isFresh.wasFuzzed⟩
          have noState := (consistent.fresh noCurrent).1
          simp [scored, noState, isFresh.state]
  obtain ⟨result, after, ends, isAfter⟩ := computes
  cases result with
  | ok score =>
      exact ⟨_, _, outcome_bind_ok ends, fun _ => ⟨stats, isAfter⟩⟩
  | error error =>
      exact ⟨_, _, outcome_bind_error ends, fun _ => ⟨stats, isAfter⟩⟩

theorem outcome_noteSelection
    (isThere : state.eco = some stats)
    (isSelected : metadataOf state id = some data) :
    (noteSelection id : Hook Input _).outcome state =
      (.ok (),
        { state with
          corpus := state.corpus.setCurrent (some id)
          eco :=
            some
              { stats with
                lastMutationNum := data.mutationNum
                lastCorpusCount := state.corpus.count
                lastExecutions := state.executions } }) := by
  let selected : State Input :=
    { state with corpus := state.corpus.setCurrent (some id) }
  unfold noteSelection
  rw [outcome_bind_ok outcome_setCurrent,
    outcome_bind_ok (@outcome_getTestcaseMetadata _ selected _ _ isSelected),
    outcome_bind_ok outcome_get,
    outcome_bind_ok (@outcome_getMetadata _ selected _ isThere)]
  rfl

theorem outcome_handlePrevious
    (consistent : Consistent state stats)
    (isCurrent : state.corpus.current = some id) :
    ∃ previous data,
      metadataOf state id = some previous ∧ data.wasFuzzed = true ∧
        data.mutationNum = previous.mutationNum ∧
        (handlePrevious id).outcome state =
          (.ok (),
            { withEntry state id data with
              eco :=
                some
                  (withRegret stats state.corpus.count
                    previous.computedScore) }) := by
  obtain ⟨previous, isThere, notBelow⟩ := consistent.current id isCurrent
  let marked : EcoTestcaseMetadata :=
    { previous with
      wasFuzzed := true
      lastFound := state.corpus.count - stats.lastCorpusCount
      lastEnergy := previous.mutationNum - stats.lastMutationNum }
  refine ⟨previous, marked, isThere, rfl, rfl, ?_⟩
  unfold handlePrevious
  rw [outcome_bind_ok outcome_get,
    outcome_bind_ok (outcome_getMetadata consistent.isThere),
    outcome_bind_ok (outcome_getTestcaseMetadata isThere),
    outcome_bind_ok (outcome_checkedSub consistent.corpusCount),
    outcome_bind_ok (outcome_checkedSub notBelow)]
  rfl

/-- What `next` leaves when it selects an entry. -/
structure Selects
    (state : State Input)
    (id : CorpusId)
    (mode : EcoState)
    (isFuzzed : CorpusId → Bool)
    (after : State Input) : Prop where
  returns : next.outcome state = (.ok id, after)
  ids : after.corpus.ids = state.corpus.ids
  isFuzzed : ∀ other, fuzzed after other = isFuzzed other
  consistent : ∃ data, Consistent after data ∧ data.state = mode

theorem selects_of_scheduled
    {prepared scheduled : State Input}
    (prepares : finishCurrent.outcome state = (.ok (), prepared))
    (schedules : schedule.outcome prepared = (.ok id, scheduled))
    (isThere : scheduled.eco = some stats)
    (sameIds : scheduled.corpus.ids = state.corpus.ids)
    (readable : ∀ id ∈ scheduled.corpus.ids, Readable scheduled id)
    (isLive : id ∈ scheduled.corpus.ids) :
    ∃ after, Selects state id stats.state (fuzzed scheduled) after := by
  obtain ⟨data, isSelected⟩ := (readable id isLive).metadataOf
  let noted : EcoMetadata :=
    { stats with
      lastMutationNum := data.mutationNum
      lastCorpusCount := scheduled.corpus.count
      lastExecutions := scheduled.executions }
  refine
    ⟨{ scheduled with
        corpus := scheduled.corpus.setCurrent (some id)
        eco := some noted },
      ?_, sameIds, fun _ => rfl, noted,
      ⟨rfl, Nat.le_refl _, Nat.le_refl _, readable, ?_, ?_⟩, rfl⟩
  · unfold next
    rw [outcome_bind_ok prepares, outcome_bind_ok schedules,
      outcome_bind_ok (outcome_noteSelection isThere isSelected)]
    rfl
  · intro current isCurrent
    cases isCurrent
    exact ⟨data, isSelected, Nat.le_refl _⟩
  · intro noCurrent
    cases noCurrent

/-- The state of the scheduler after its first iteration has begun. -/
def started
    (state : State Input)
    (stats : EcoMetadata) : EcoMetadata :=
  { stats with
    initialCorpusCount :=
      some (stats.initialCorpusCount.getD state.corpus.count) }

theorem outcome_finishCurrent_first
    (isThere : state.eco = some stats)
    (noCurrent : state.corpus.current = none) :
    finishCurrent.outcome state =
      (.ok (), { state with eco := some (started state stats) }) := by
  unfold finishCurrent firstIteration
  rw [outcome_bind_ok outcome_get, noCurrent]
  dsimp only
  rw [outcome_bind_ok outcome_get,
    outcome_bind_ok (outcome_getMetadata isThere)]
  rfl

/-- The first call of `next` exploits the first entry. -/
theorem selects_first
    (consistent : Consistent state stats)
    (noCurrent : state.corpus.current = none)
    (isFirst : state.corpus.first = some id) :
    ∃ after, Selects state id .exploitation (fuzzed state) after := by
  obtain ⟨_, fresh⟩ := consistent.fresh noCurrent
  let prepared : State Input :=
    { state with eco := some (started state stats) }
  exact
    selects_of_scheduled
      (outcome_finishCurrent_first consistent.isThere noCurrent)
      (@outcome_schedule_exploits _ prepared id (started state stats) rfl
        consistent.readable fresh isFirst)
      rfl rfl consistent.readable (InMemoryCorpus.mem_of_first isFirst)

/-- The first entry that was not fuzzed, when the current one has been. -/
def nextUnfuzzed
    (state : State Input)
    (current : CorpusId) : Option CorpusId :=
  state.corpus.ids.find? fun other => !(other == current || fuzzed state other)

theorem next_of_current
    {current : CorpusId}
    (consistent : Consistent state stats)
    (isCurrent : state.corpus.current = some current) :
    match nextUnfuzzed state current with
    | some id =>
        ∃ after,
          Selects state id .exploration
            (fun other => other == current || fuzzed state other) after
    | none => ∃ after, next.outcome state = (.error .panicked, after) := by
  obtain ⟨previous, data, isThere, isMarked, _, prepares⟩ :=
    outcome_handlePrevious consistent isCurrent
  let marked := withEntry state current data
  let rated := withRegret stats state.corpus.count previous.computedScore
  let prepared : State Input := { marked with eco := some rated }
  have isFuzzed :
      ∀ other,
        fuzzed prepared other = (other == current || fuzzed state other) := by
    intro other
    change fuzzed marked other = _
    rw [fuzzed, metadataOf_withEntry isThere]
    by_cases same : other = current
    · simp [same, isMarked]
    · simp [same, fuzzed]
  have readable : ∀ id ∈ prepared.corpus.ids, Readable prepared id := by
    intro id isLive
    exact @readable_withEntry _ state current id data
      (consistent.readable id (ids_withEntry.subst isLive))
  have sameIds : prepared.corpus.ids = state.corpus.ids := ids_withEntry
  have isLive : current ∈ prepared.corpus.ids :=
    sameIds ▸ mem_of_metadataOf isThere
  have schedules :=
    @outcome_schedule_explores _ prepared current rated rfl readable isLive
      (by rw [isFuzzed]; simp)
  have sameSearch :
      (prepared.corpus.ids.find? fun id => !fuzzed prepared id) =
        nextUnfuzzed state current := by
    rw [sameIds, nextUnfuzzed]
    congr 1
    funext other
    rw [isFuzzed]
  rw [sameSearch] at schedules
  have prepares : finishCurrent.outcome state = (.ok (), prepared) := by
    unfold finishCurrent
    rw [outcome_bind_ok outcome_get, isCurrent]
    exact prepares
  cases search : nextUnfuzzed state current with
  | some id =>
      rw [search] at schedules
      have isSelected : id ∈ prepared.corpus.ids :=
        sameIds ▸ List.mem_of_find?_eq_some search
      obtain ⟨after, selects⟩ :=
        selects_of_scheduled prepares schedules rfl sameIds readable isSelected
      exact ⟨after, selects.returns, selects.ids,
        fun other => (selects.isFuzzed other).trans (isFuzzed other),
        selects.consistent⟩
  | none =>
      rw [search] at schedules
      refine ⟨{ prepared with eco := some { rated with state := .exploration } },
        ?_⟩
      unfold next
      rw [outcome_bind_ok prepares]
      exact outcome_bind_error schedules

/-- Without entries and without a current one, `next` panics. -/
theorem next_of_empty
    (consistent : Consistent state stats)
    (noCurrent : state.corpus.current = none)
    (isEmpty : state.corpus.ids = []) :
    ∃ after, next.outcome state = (.error .panicked, after) := by
  let prepared : State Input :=
    { state with eco := some (started state stats) }
  refine
    ⟨{ prepared with
        eco := some { started state stats with state := .exploitation } },
      ?_⟩
  unfold next
  rw [outcome_bind_ok
    (outcome_finishCurrent_first consistent.isThere noCurrent)]
  exact outcome_bind_error (@outcome_schedule_empty _ prepared _ rfl isEmpty)

theorem keeps_next
    (isConsistent : IsConsistent state) :
    Keeps state .next := by
  obtain ⟨stats, consistent⟩ := isConsistent
  have keepsSelection :
      ∀ {id mode isFuzzed after},
        Selects state id mode isFuzzed after → Keeps state .next := by
    intro id mode isFuzzed after selects
    obtain ⟨data, isAfter, _⟩ := selects.consistent
    exact ⟨.ok (), after, outcome_bind_ok selects.returns, fun _ =>
      ⟨data, isAfter⟩⟩
  have keepsPanic :
      (∃ after, next.outcome state = (.error .panicked, after)) →
        Keeps state .next := by
    rintro ⟨after, panics⟩
    exact ⟨_, after, outcome_bind_error panics, fun notPanicked =>
      absurd rfl notPanicked⟩
  cases isCurrent : state.corpus.current with
  | none =>
      by_cases isEmpty : state.corpus.ids = []
      · exact keepsPanic (next_of_empty consistent isCurrent isEmpty)
      · obtain ⟨first, isFirst⟩ := InMemoryCorpus.exists_first isEmpty
        obtain ⟨after, selects⟩ := selects_first consistent isCurrent isFirst
        exact keepsSelection selects
  | some current =>
      have reached := next_of_current consistent isCurrent
      split at reached
      · obtain ⟨after, selects⟩ := reached
        exact keepsSelection selects
      · exact keepsPanic reached

theorem keeps
    (isConsistent : IsConsistent state)
    (event : Event Input) :
    Keeps state event := by
  cases event with
  | add lastHash testcase =>
      exact keeps_add isConsistent lastHash testcase
  | execute =>
      exact keeps_execute isConsistent
  | evaluate observed =>
      exact keeps_evaluate isConsistent observed
  | score idx =>
      exact keeps_score isConsistent idx
  | next =>
      exact keeps_next isConsistent

theorem isConsistent_step
    {after : State Input}
    {event : Event Input}
    (isConsistent : IsConsistent state)
    (taken : Step state event after) :
    IsConsistent after := by
  obtain ⟨result, reached, ends, isReached⟩ := keeps isConsistent event
  cases taken with
  | done endsToo notPanicked =>
      cases ends.symm.trans endsToo
      exact isReached notPanicked

/-- The tables of every state that is reached agree. -/
theorem isConsistent_run
    {events : List (Event Input)}
    (run : Run Step (new .new) events state) :
    IsConsistent state := by
  refine run.invariant (fun isConsistent taken =>
    isConsistent_step isConsistent taken) ⟨.default, rfl, le_rfl, le_rfl, ?_, ?_,
      ?_⟩
  · intro id isLive
    cases isLive
  · intro id isCurrent
    cases isCurrent
  · intro _
    refine ⟨rfl, ?_⟩
    intro id previous isThere
    cases isThere

/-- The scheduler state is `Exploration`. -/
def IsExploring (state : State Input) : Prop :=
  ∃ data, state.eco = some data ∧ data.state = .exploration

/-- Some entry has not been fuzzed yet. -/
def HasUnfuzzed (state : State Input) : Prop :=
  ∃ id ∈ state.corpus.ids, fuzzed state id = false

/--
`next` returns a live entry, and explores exactly while there are entries that
were not fuzzed, of which it returns the first.
-/
def Schedules (state : State Input) : Prop :=
  ∃ id after,
    next.outcome state = (.ok id, after) ∧ id ∈ after.corpus.ids ∧
      (IsExploring after ↔ HasUnfuzzed after) ∧
      (HasUnfuzzed after →
        after.corpus.ids.find? (fun other => !fuzzed after other) = some id)

/--
Of the states that are reached, `next` schedules as it should in those where an
entry beside the current one was not fuzzed, and in no others.
-/
theorem schedules_unfuzzed_iff
    {events : List (Event Input)}
    (run : Run Step (new .new) events state)
    (notEmpty : state.corpus.ids ≠ []) :
    Schedules state ↔
      ∃ current,
        state.corpus.current = some current ∧
          ∃ other ∈ state.corpus.ids,
            other ≠ current ∧ fuzzed state other = false := by
  obtain ⟨stats, consistent⟩ := isConsistent_run run
  cases isCurrent : state.corpus.current with
  | none =>
      obtain ⟨first, isFirst⟩ := InMemoryCorpus.exists_first notEmpty
      obtain ⟨after, selects⟩ := selects_first consistent isCurrent isFirst
      obtain ⟨data, isAfter, isExploiting⟩ := selects.consistent
      refine iff_of_false ?_ (by simp)
      rintro ⟨id, reached, returns, isLive, explores, _⟩
      cases returns.symm.trans selects.returns
      have unfuzzed : HasUnfuzzed after := by
        refine ⟨first, isLive, ?_⟩
        rw [selects.isFuzzed, fuzzed]
        cases isThere : metadataOf state first with
        | none =>
            rfl
        | some previous =>
            exact
              ((consistent.fresh isCurrent).2 first previous isThere).wasFuzzed
      obtain ⟨other, isOther, isExploring⟩ := explores.mpr unfuzzed
      obtain rfl := Option.some.inj (isAfter.isThere.symm.trans isOther)
      cases isExploiting.symm.trans isExploring
  | some current =>
      have reached := next_of_current consistent isCurrent
      have search :
          (∃ other ∈ state.corpus.ids,
              other ≠ current ∧ fuzzed state other = false) ↔
            (nextUnfuzzed state current).isSome = true := by
        rw [nextUnfuzzed, List.find?_isSome]
        simp
      simp only [Option.some.injEq, exists_eq_left']
      rw [search]
      cases found : nextUnfuzzed state current with
      | none =>
          rw [found] at reached
          obtain ⟨after, panics⟩ := reached
          refine iff_of_false ?_ (by simp)
          rintro ⟨id, other, returns, _⟩
          cases returns.symm.trans panics
      | some id =>
          rw [found] at reached
          obtain ⟨after, selects⟩ := reached
          obtain ⟨data, isAfter, isExploring⟩ := selects.consistent
          have isSearch :
              after.corpus.ids.find? (fun other => !fuzzed after other) =
                some id := by
            rw [selects.ids, ← found, nextUnfuzzed]
            congr 1
            funext other
            rw [selects.isFuzzed]
          have isLive := List.mem_of_find?_eq_some isSearch
          have isUnfuzzed := List.find?_some isSearch
          refine iff_of_true ⟨id, after, selects.returns, isLive,
            iff_of_true ⟨data, isAfter.isThere, isExploring⟩ ⟨id, isLive, ?_⟩,
            fun _ => isSearch⟩ rfl
          simpa using isUnfuzzed

/-- A second entry is explored after the first one was fuzzed. -/
theorem schedules_second :
    ∃ state : State Nat,
      Run Step (new .new) [.add 0 (.new 7), .add 0 (.new 8), .next] state ∧
        Schedules state := by
  have reached :
      (replay perform (new (.new : State Nat))
          [.add 0 (.new 7), .add 0 (.new 8), .next]).any fun state =>
        decide (state.corpus.current = some 0 ∧ state.corpus.ids = [0, 1]) &&
          !fuzzed state 1 := by
    decide +kernel
  obtain ⟨state, replays, isAfter⟩ := (Option.any_eq_true _ _).mp reached
  simp only [Bool.and_eq_true, Bool.not_eq_true', decide_eq_true_eq] at isAfter
  obtain ⟨⟨current, ids⟩, unfuzzed⟩ := isAfter
  have run :
      Run Step (new .new) [.add 0 (.new 7), .add 0 (.new 8), .next] state :=
    run_of_replay (fun returned => .done returned (by simp)) replays
  exact ⟨state, run,
    (schedules_unfuzzed_iff run (by simp [ids])).mpr
      ⟨0, current, 1, by simp [ids], by decide, unfuzzed⟩⟩

/-- With a single entry the second call of `next` panics. -/
theorem single_entry_panics :
    ∃ state : State Nat,
      Run Step (new .new) [.add 0 (.new 7), .next] state ∧
        state.corpus.ids ≠ [] ∧ ¬Schedules state := by
  obtain ⟨state, run, notEmpty, after, panics⟩ :
      ∃ state : State Nat,
        Run Step (new .new) [.add 0 (.new 7), .next] state ∧
          state.corpus.ids ≠ [] ∧
          ∃ after, next.outcome state = (.error .panicked, after) :=
    ⟨_, .cons (.done rfl (by simp)) (.single (.done rfl (by simp))), by decide,
      _, rfl⟩
  refine ⟨state, run, notEmpty, ?_⟩
  rintro ⟨id, other, returns, _⟩
  cases returns.symm.trans panics

end MeFuzz.Scheduler.EcoScheduler
