import MeFuzz.CurrentEntry

namespace MeFuzz.Scheduler

open Corpus (CorpusId Error InMemoryCorpus)
open Procedure

/-!
# The schedulers keep the current entry

Each of the schedulers is lawful: what it reads of the current entry is there as
long as that entry is, and what it schedules is an entry of the corpus.
-/

variable {Input : Type}
variable {state after : State Input}
variable {idx : CorpusId}
variable {testcase : Testcase Input}

theorem CurrentAlive.of_same
    (alive : CurrentAlive state)
    (ids : ∀ id ∈ state.corpus.ids, id ∈ after.corpus.ids)
    (current : after.corpus.current = state.corpus.current) :
    CurrentAlive after := by
  intro id isCurrent
  rw [current] at isCurrent
  exact ids id (alive id isCurrent)

/-- The state after a testcase was added to its corpus. -/
def added
    (state : State Input)
    (testcase : Testcase Input) : State Input :=
  { state with corpus := (state.corpus.add testcase).2 }

/-- The state after a testcase was replaced in its corpus. -/
def replaced
    (state : State Input)
    (idx : CorpusId)
    (testcase : Testcase Input) : State Input :=
  { state with corpus := state.corpus.modify idx fun _ => testcase }

/-- The state after a testcase was removed from its corpus. -/
def removed
    (state : State Input)
    (idx : CorpusId) : State Input :=
  { state with corpus := state.corpus.removed idx }

theorem CurrentAlive.added
    (alive : CurrentAlive state) :
    CurrentAlive (added state testcase) :=
  alive.of_same
    (fun _ isLive => InMemoryCorpus.ids_add ▸ List.mem_append_left _ isLive)
    rfl

theorem CurrentAlive.replaced
    (alive : CurrentAlive state) :
    CurrentAlive (replaced state idx testcase) :=
  alive.of_same (fun _ isLive => InMemoryCorpus.ids_modify.symm ▸ isLive) rfl

/-- A property of every entry. -/
def Entries
    (state : State Input)
    (Property : Testcase Input → Prop) : Prop :=
  ∀ id testcase, state.corpus.find id = some testcase → Property testcase

/-- A property of every entry beside one. -/
def Others
    (state : State Input)
    (idx : CorpusId)
    (Property : Testcase Input → Prop) : Prop :=
  ∀ id testcase, id ≠ idx → state.corpus.find id = some testcase →
    Property testcase

section

variable {Property : Testcase Input → Prop}

theorem others_added
    (entries : Entries state Property) :
    Others (added state testcase) state.corpus.nextId Property := by
  intro id other different found
  refine entries id other ?_
  rwa [added, InMemoryCorpus.find_add, if_neg different] at found

theorem others_replaced
    (entries : Entries state Property) :
    Others (replaced state idx testcase) idx Property := by
  intro id other different found
  refine entries id other ?_
  rwa [replaced, InMemoryCorpus.find_modify, if_neg different] at found

theorem entries_removed
    (entries : Entries state Property) :
    Entries (removed state idx) Property := by
  intro id other found
  rw [removed, InMemoryCorpus.find_removed] at found
  split at found
  · cases found
  · exact entries id other found

theorem Others.modify
    {change : Testcase Input → Testcase Input}
    (others : Others state idx Property)
    (established : ∀ testcase, Property (change testcase)) :
    Entries { state with corpus := state.corpus.modify idx change }
      Property := by
  intro id other found
  rw [InMemoryCorpus.find_modify] at found
  split at found
  · obtain ⟨previous, _, rfl⟩ := Option.map_eq_some_iff.mp found
    exact established previous
  · rename_i different
    exact others id other different found

theorem Entries.modify
    {change : Testcase Input → Testcase Input}
    (entries : Entries state Property)
    (kept : ∀ testcase, Property testcase → Property (change testcase)) :
    Entries { state with corpus := state.corpus.modify idx change }
      Property := by
  intro id other found
  rw [InMemoryCorpus.find_modify] at found
  split at found
  · obtain ⟨previous, isPrevious, rfl⟩ := Option.map_eq_some_iff.mp found
    exact kept previous (entries id previous isPrevious)
  · exact entries id other found

theorem Entries.current
    (entries : Entries state Property)
    (alive : CurrentAlive state) :
    ∀ id, state.corpus.current = some id →
      ∃ testcase, state.corpus.find id = some testcase ∧ Property testcase := by
  intro id isCurrent
  obtain ⟨testcase, found⟩ := InMemoryCorpus.mem_ids.mp (alive id isCurrent)
  exact ⟨testcase, found, entries id testcase found⟩

theorem current_added
    (entries : Entries state Property)
    (alive : CurrentAlive state) :
    ∀ id, (added state testcase).corpus.current = some id →
      ∃ parent,
        (added state testcase).corpus.find id = some parent ∧
          Property parent := by
  intro id isCurrent
  obtain ⟨parent, found, hasProperty⟩ := entries.current alive id isCurrent
  refine ⟨parent, ?_, hasProperty⟩
  have isLive := InMemoryCorpus.lt_nextId (alive id isCurrent)
  rw [added, InMemoryCorpus.find_add, if_neg (Nat.ne_of_lt isLive), found]

end

theorem nextId_mem_added :
    state.corpus.nextId ∈ (added state testcase).corpus.ids := by
  simp [added]

theorem mem_replaced
    {prev : Testcase Input}
    (found : state.corpus.find idx = some prev) :
    idx ∈ (replaced state idx testcase).corpus.ids := by
  rw [replaced, InMemoryCorpus.ids_modify]
  exact InMemoryCorpus.mem_ids.mpr ⟨prev, found⟩

/-- The entry carries the metadata of the power schedulers. -/
def HasDepth (testcase : Testcase Input) : Prop :=
  testcase.schedulerMeta.isSome = true

theorem Undisturbed.hasDepth
    (undisturbed : Undisturbed state after)
    (entries : Entries state HasDepth) :
    Entries after HasDepth := by
  intro id testcase found
  have isLive : id ∈ after.corpus.ids := InMemoryCorpus.mem_ids.mpr ⟨_, found⟩
  rw [undisturbed.ids] at isLive
  obtain ⟨entry, isEntry⟩ := InMemoryCorpus.mem_ids.mp isLive
  obtain ⟨changed, isChanged, keepsDepth, _⟩ :=
    undisturbed.entries id entry isEntry
  cases found.symm.trans isChanged
  exact keepsDepth (entries id entry isEntry)

theorem current_replaced
    (entries : Entries state HasDepth)
    (alive : CurrentAlive state)
    (keeps : state.corpus.current = some idx → HasDepth testcase) :
    ∀ id, (replaced state idx testcase).corpus.current = some id →
      ∃ parent,
        (replaced state idx testcase).corpus.find id = some parent ∧
          HasDepth parent := by
  intro id isCurrent
  obtain ⟨parent, found, hasDepth⟩ := entries.current alive id isCurrent
  rw [replaced, InMemoryCorpus.find_modify]
  split
  · rename_i same
    subst same
    rw [found]
    exact ⟨testcase, rfl, keeps isCurrent⟩
  · exact ⟨parent, found, hasDepth⟩

/-- A testcase that is put in the place of the current entry is its own parent. -/
theorem attach_replaced_missing
    (isCurrent : state.corpus.current = some idx)
    (isLive : idx ∈ state.corpus.ids)
    (noDepth : ¬HasDepth testcase)
    (lastHash : Nat) :
    (attachSchedulerMeta lastHash idx : Hook Input _).outcome
        (replaced state idx testcase) =
      (.error missingMeta, replaced state idx testcase) := by
  obtain ⟨prev, found⟩ := InMemoryCorpus.mem_ids.mp isLive
  have isThere :
      (replaced state idx testcase).corpus.find idx = some testcase := by
    rw [replaced, InMemoryCorpus.find_modify, if_pos rfl, found]
    rfl
  have isCurrent : (replaced state idx testcase).corpus.current = some idx :=
    isCurrent
  have noMeta : testcase.schedulerMeta = none :=
    Option.not_isSome_iff_eq_none.mp noDepth
  refine outcome_bind_error ?_
  unfold parentDepth
  rw [outcome_bind_ok outcome_get, isCurrent]
  dsimp only
  rw [outcome_bind_ok (outcome_getTestcase_ok isThere), noMeta]
  rfl

/--
A scheduler that tells a replaced entry like an added one bears the replacement of
the current entry by a testcase with metadata.
-/
theorem replacesWell_iff
    {Outside : Type}
    {hooks : Hooks Input Outside}
    {Excused : Error → Prop}
    {lastHash : Outside → Nat}
    (entries : Entries state HasDepth)
    (alive : CurrentAlive state)
    (missing :
      ∀ outside idx testcase,
        idx ∈ state.corpus.ids →
          (attachSchedulerMeta (lastHash outside) idx : Hook Input _).outcome
              (replaced state idx testcase) =
            (.error missingMeta, replaced state idx testcase) →
          (hooks.perform (.replace outside idx testcase)).outcome state =
            (.error missingMeta, replaced state idx testcase))
    (others :
      ∀ outside idx testcase error after,
        idx ∈ state.corpus.ids →
          (hooks.perform (.replace outside idx testcase)).outcome state =
              (.error error, after) →
            IsKeyNotFound error →
              Excused error ∨
                ∃ message,
                  (attachSchedulerMeta (lastHash outside) idx :
                      Hook Input _).outcome (replaced state idx testcase) =
                    (.error (.keyNotFound message),
                      replaced state idx testcase))
    (event : Hooks.Event Input Outside) :
    ReplacesWell hooks Excused state event ↔ BringsMeta Excused state event := by
  cases event with
  | replace outside idx testcase =>
      constructor
      · intro well isCurrent
        have isLive := alive idx isCurrent
        refine or_iff_not_imp_left.mpr fun noDepth => ?_
        have isMissing :=
          missing outside idx testcase isLive
            (attach_replaced_missing isCurrent isLive noDepth _)
        exact well isLive _ _ isMissing trivial
      · intro brings isLive error after fails isKey
        rcases others outside idx testcase error after isLive fails isKey with
          isExcused | ⟨message, isMissing⟩
        · exact isExcused
        · obtain ⟨prev, found⟩ := InMemoryCorpus.mem_ids.mp isLive
          by_cases keeps : state.corpus.current = some idx → HasDepth testcase
          · obtain ⟨depth, attaches⟩ :=
              @outcome_attachSchedulerMeta_ok _ (replaced state idx testcase) _
                (current_replaced entries alive keeps) (mem_replaced found)
                (lastHash outside)
            cases isMissing.symm.trans attaches
          · obtain ⟨isCurrent, noDepth⟩ := Classical.not_imp.mp keeps
            have isMeta :=
              missing outside idx testcase isLive
                (attach_replaced_missing isCurrent isLive noDepth _)
            cases isMeta.symm.trans fails
            exact (brings isCurrent).resolve_left noDepth
  | _ =>
      exact Iff.rfl

theorem QueueScheduler.lawful :
    Lawful (QueueScheduler.hooks : Hooks Input Unit) (fun _ => True)
      (fun _ => False) (fun _ _ => True) where
  onAdd outside testcase :=
    Hooks.satisfies_add fun state holds =>
      .pure fun _ isAdded => isAdded ▸ ⟨trivial, holds.2.added⟩
  onReplace outside idx testcase :=
    Hooks.satisfies_replace
      (fun state prev holds _ =>
        .pure fun _ isReplaced => isReplaced ▸ ⟨trivial, holds.2.replaced⟩)
      fun _ _ => trivial
  onRemove outside idx ids current :=
    Hooks.satisfies_remove
      (fun state prev holds _ =>
        .pure fun _ isRemoved =>
          isRemoved ▸
            ⟨trivial, holds.2.1 ▸ InMemoryCorpus.ids_removed, holds.2.2⟩)
      fun _ _ => trivial
  next outside := by
    refine Hooks.satisfies_next (.of_outcome ?_)
    intro state _
    by_cases isEmpty : state.corpus.ids = []
    · exact .inr
        ⟨_, _, QueueScheduler.outcome_next_empty isEmpty, fun isKey => isKey⟩
    · obtain ⟨id, follows⟩ := QueueScheduler.exists_following isEmpty
      have isLive := QueueScheduler.mem_of_following follows
      refine .inl ⟨id, _, QueueScheduler.outcome_next follows, trivial, ?_⟩
      rintro current isCurrent
      cases isCurrent
      exact isLive
  replaces state event _ _ := by
    refine iff_of_true ?_ trivial
    cases event with
    | replace outside idx testcase =>
        intro isLive error after fails
        obtain ⟨prev, found⟩ := InMemoryCorpus.mem_ids.mp isLive
        rw [Hooks.outcome_replace found] at fails
        cases fails
    | _ =>
        exact trivial
  elsewhere _ _ _ _ := trivial

namespace PowerQueueScheduler

/-- The statistics are there, and every entry carries its metadata. -/
structure Ready (state : State Input) : Prop where
  psmeta : state.schedulerMetadata.isSome = true
  entries : Entries state HasDepth

theorem outcome_takeBack_cases
    (hasPsmeta : state.schedulerMetadata.isSome = true)
    (prevMeta : SchedulerTestcaseMetaData) :
    (∃ psmeta,
        (takeBack prevMeta : Hook Input _).outcome state =
          (.ok (), { state with schedulerMetadata := some psmeta })) ∨
      (takeBack prevMeta : Hook Input _).outcome state =
        (.error .panicked, state) := by
  obtain ⟨psmeta, isThere⟩ := Option.isSome_iff_exists.mp hasPsmeta
  by_cases has : HasMeasures psmeta prevMeta
  · exact .inl ⟨_, outcome_takeBack isThere has⟩
  · exact .inr (outcome_takeBack_panics isThere has)

theorem satisfies_onAdd
    (lastHash : Nat)
    (testcase : Testcase Input) :
    Satisfies (fun state => Ready state ∧ CurrentAlive state)
      (hooks.perform (.add lastHash testcase))
      (fun _ state => Ready state ∧ CurrentAlive state)
      (fun error _ => IsKeyNotFound error → False) := by
  refine Hooks.satisfies_add fun state holds => .of_outcome ?_
  rintro _ rfl
  obtain ⟨ready, alive⟩ := holds
  obtain ⟨depth, attaches⟩ :=
    @outcome_attachSchedulerMeta_ok _ (added state testcase) _
      (current_added ready.entries alive) nextId_mem_added lastHash
  refine .inl ⟨(), _, attaches, ⟨ready.psmeta, ?_⟩, ?_⟩
  · exact (others_added ready.entries).modify fun _ => rfl
  · exact alive.added.of_same
      (fun _ isLive => InMemoryCorpus.ids_modify.symm ▸ isLive) rfl

theorem outcome_onReplace_cases
    {prev : Testcase Input}
    (ready : Ready state)
    (found : state.corpus.find idx = some prev) :
    (∃ psmeta data,
        (onReplace idx prev).outcome (replaced state idx testcase) =
          (.ok (),
            { replaced state idx testcase with
              schedulerMetadata := some psmeta
              corpus :=
                (replaced state idx testcase).corpus.modify idx fun testcase =>
                  { testcase with schedulerMeta := some data } })) ∨
      (onReplace idx prev).outcome (replaced state idx testcase) =
        (.error .panicked, replaced state idx testcase) := by
  obtain ⟨prevMeta, isPrevMeta⟩ :=
    Option.isSome_iff_exists.mp (ready.entries idx prev found)
  obtain ⟨entry, isEntry⟩ :=
    InMemoryCorpus.mem_ids.mp (@mem_replaced _ state idx testcase prev found)
  unfold onReplace
  rw [outcome_bind_ok (outcome_orKeyNotFound isPrevMeta)]
  rcases
      @outcome_takeBack_cases _ (replaced state idx testcase) ready.psmeta
        prevMeta with
    ⟨psmeta, takes⟩ | panics
  · rw [outcome_bind_ok takes,
      outcome_bind_ok
        (@outcome_getTestcase_ok _
          { replaced state idx testcase with schedulerMetadata := some psmeta }
          _ _ isEntry)]
    exact .inl ⟨psmeta, _, outcome_updateTestcase⟩
  · rw [outcome_bind_error panics]
    exact .inr rfl

theorem satisfies_onReplace
    (lastHash : Nat)
    (idx : CorpusId)
    (testcase : Testcase Input) :
    Satisfies (fun state => Ready state ∧ CurrentAlive state)
      (hooks.perform (.replace lastHash idx testcase))
      (fun _ state => Ready state ∧ CurrentAlive state)
      (fun _ _ => True) := by
  refine Hooks.satisfies_replace (fun state prev holds found =>
    .of_outcome ?_) fun _ _ => trivial
  rintro _ rfl
  obtain ⟨ready, alive⟩ := holds
  rcases @outcome_onReplace_cases _ _ _ testcase _ ready found with
    ⟨psmeta, data, ends⟩ | panics
  · refine .inl ⟨(), _, ends, ⟨rfl, ?_⟩, ?_⟩
    · exact (others_replaced ready.entries).modify fun _ => rfl
    · exact alive.replaced.of_same
        (fun _ isLive => InMemoryCorpus.ids_modify.symm ▸ isLive) rfl
  · exact .inr ⟨_, _, panics, trivial⟩

theorem satisfies_onRemove
    (lastHash : Nat)
    (idx : CorpusId)
    (ids : List CorpusId)
    (current : Option CorpusId) :
    Satisfies
      (fun state : State Input =>
        Ready state ∧ state.corpus.ids = ids ∧ state.corpus.current = current)
      (hooks.perform (.remove lastHash idx))
      (fun _ state =>
        Ready state ∧ (state.corpus.ids = ids.filter fun id => id ≠ idx) ∧
          state.corpus.current = current)
      (fun _ _ => True) := by
  refine Hooks.satisfies_remove (fun state prev holds found =>
    .of_outcome ?_) fun _ _ => trivial
  rintro _ rfl
  obtain ⟨ready, rfl, rfl⟩ := holds
  obtain ⟨prevMeta, isPrevMeta⟩ :=
    Option.isSome_iff_exists.mp (ready.entries idx prev found)
  change
    (∃ value next,
        (onRemove (some prev)).outcome (removed state idx) = _ ∧ _) ∨
      ∃ failure next,
        (onRemove (some prev)).outcome (removed state idx) = _ ∧ _
  unfold onRemove
  dsimp only
  rw [outcome_bind_ok (outcome_orKeyNotFound isPrevMeta)]
  rcases
      @outcome_takeBack_cases _ (removed state idx) ready.psmeta prevMeta with
    ⟨psmeta, takes⟩ | panics
  · exact .inl ⟨(), _, takes, ⟨rfl, entries_removed ready.entries⟩,
      InMemoryCorpus.ids_removed, rfl⟩
  · exact .inr ⟨_, _, panics, trivial⟩

theorem satisfies_next
    (lastHash : Nat) :
    Satisfies (fun state : State Input => Ready state ∧ CurrentAlive state)
      (hooks.perform (.next lastHash))
      (fun _ state => Ready state ∧ CurrentAlive state)
      (fun error _ => ¬IsKeyNotFound error) := by
  refine Hooks.satisfies_next (.of_outcome ?_)
  rintro state ⟨ready, _⟩
  change
    (∃ value after, next.outcome state = _ ∧ _) ∨
      ∃ failure after, next.outcome state = _ ∧ _
  obtain ⟨psmeta, isThere⟩ := Option.isSome_iff_exists.mp ready.psmeta
  by_cases isEmpty : state.corpus.ids = []
  · rw [outcome_next_empty isEmpty]
    exact .inr ⟨_, _, rfl, fun isKey => isKey⟩
  · obtain ⟨id, queueCycles, isLive, schedules⟩ :=
      outcome_next isThere isEmpty
    obtain ⟨entry, isEntry⟩ := InMemoryCorpus.mem_ids.mp isLive
    obtain ⟨data, isData⟩ :=
      Option.isSome_iff_exists.mp (ready.entries id entry isEntry)
    rw [schedules,
      outcome_bind_ok
        (@outcome_updateHandicap _
          { state with
            corpus := state.corpus.setCurrent (some id)
            schedulerMetadata :=
              some { psmeta with queueCycles := queueCycles } }
          _ _ _ isEntry isData)]
    refine .inl ⟨id, _, rfl, ⟨rfl, ?_⟩, ?_⟩
    · exact
        @Entries.modify _
          { state with corpus := state.corpus.setCurrent (some id) } _ _ _
          ready.entries fun _ _ => rfl
    · intro current isCurrent
      cases isCurrent
      exact InMemoryCorpus.ids_modify.symm ▸ isLive

theorem lawful :
    Lawful (hooks : Hooks Input Nat) Ready (fun _ => False)
      (fun _ _ => True) where
  onAdd := satisfies_onAdd
  onReplace := satisfies_onReplace
  onRemove := satisfies_onRemove
  next := satisfies_next
  replaces state event ready _ := by
    refine iff_of_true ?_ trivial
    cases event with
    | replace lastHash idx testcase =>
        intro isLive error after fails isKey
        obtain ⟨prev, found⟩ := InMemoryCorpus.mem_ids.mp isLive
        rw [Hooks.outcome_replace found] at fails
        rcases @outcome_onReplace_cases _ _ _ testcase _ ready found with
          ⟨psmeta, data, ends⟩ | panics
        · cases ends.symm.trans fails
        · cases panics.symm.trans fails
          exact isKey
    | _ =>
        exact trivial
  elsewhere state after ready undisturbed := by
    refine ⟨undisturbed.schedulerMetadata ready.psmeta, ?_⟩
    exact undisturbed.hasDepth ready.entries

end PowerQueueScheduler

namespace WeightedScheduler

variable {compute : Score Input}

/-- The score of an entry fails although its metadata is there. -/
def ScoreError
    (compute : Score Input)
    (error : Error) : Prop :=
  ∃ testcase state,
    HasDepth testcase ∧ state.schedulerMetadata.isSome = true ∧
      compute testcase state = .error error

theorem Ready.hasDepth
    (ready : Ready state) :
    Entries state HasDepth := by
  intro id testcase found
  obtain ⟨entry, isEntry, hasMeta⟩ :=
    ready.entries id (InMemoryCorpus.mem_ids.mpr ⟨_, found⟩)
  cases found.symm.trans isEntry
  exact hasMeta

theorem currentAlive_of_onAdd
    {lastHash : Nat}
    (hasTables : state.weighted.isSome = true)
    (isLive : idx ∈ state.corpus.ids)
    (alive : CurrentAlive state)
    (returned : (onAdd compute lastHash idx).outcome state = (.ok (), after)) :
    CurrentAlive after := by
  obtain ⟨wsmeta, isThere⟩ := Option.isSome_iff_exists.mp hasTables
  rcases @outcome_onAdd _ state compute wsmeta idx isThere isLive lastHash with
    ⟨data, tables, _, ends⟩ | ⟨message, _, ends⟩ | ⟨_, error, _, ends⟩
  · cases ends.symm.trans returned
    exact alive.of_same
      (fun _ isLive => InMemoryCorpus.ids_modify.symm ▸ isLive) rfl
  · cases ends.symm.trans returned
  · cases ends.symm.trans returned

theorem satisfies_onAdd
    (outside : Outside)
    (testcase : Testcase Input) :
    Satisfies (fun state => Ready state ∧ CurrentAlive state)
      ((hooks compute).perform (.add outside testcase))
      (fun _ state => Ready state ∧ CurrentAlive state)
      (fun error _ => IsKeyNotFound error → ScoreError compute error) := by
  refine Hooks.satisfies_add fun state holds => .of_outcome ?_
  rintro _ rfl
  obtain ⟨ready, alive⟩ := holds
  obtain ⟨wsmeta, isThere, _⟩ := ready.tables
  rcases
      @outcome_onAdd _ (added state testcase) compute wsmeta _ isThere
        nextId_mem_added outside.lastHash with
    ⟨data, tables, _, ends⟩ | ⟨message, fails, _⟩ |
    ⟨data, error, ⟨id, entry, isEntry, scoreFails⟩, ends⟩
  · refine .inl ⟨(), _, ends, ?_, ?_⟩
    · exact
        @ready_step _ compute state _ (.add outside.lastHash testcase) ready
          (.done ((outcome_bind_ok outcome_addTestcase).trans ends))
    · exact
        @currentAlive_of_onAdd _ (added state testcase) _ _ _ _ ready.hasTables
          nextId_mem_added alive.added ends
  · obtain ⟨depth, attaches⟩ :=
      @outcome_attachSchedulerMeta_ok _ (added state testcase) _
        (current_added ready.hasDepth alive) nextId_mem_added outside.lastHash
    cases fails.symm.trans attaches
  · have hasDepth :
        Entries (attached (added state testcase) state.corpus.nextId data)
          HasDepth :=
      (others_added ready.hasDepth).modify fun _ => rfl
    exact .inr
      ⟨error, _, ends, fun _ =>
        ⟨entry, attached (added state testcase) state.corpus.nextId data,
          hasDepth id entry isEntry, ready.psmeta, scoreFails⟩⟩

theorem satisfies_onReplace
    (outside : Outside)
    (idx : CorpusId)
    (testcase : Testcase Input) :
    Satisfies (fun state => Ready state ∧ CurrentAlive state)
      ((hooks compute).perform (.replace outside idx testcase))
      (fun _ state => Ready state ∧ CurrentAlive state)
      (fun _ _ => True) := by
  refine Hooks.satisfies_replace (fun state prev holds found =>
    .of_outcome ?_) fun _ _ => trivial
  rintro _ rfl
  obtain ⟨ready, alive⟩ := holds
  cases ends :
      (onAdd compute outside.lastHash idx).outcome
        (replaced state idx testcase) with
  | mk result reached =>
      cases result with
      | ok value =>
          refine .inl ⟨value, reached, ends, ?_, ?_⟩
          · exact
              @ready_step _ compute state _
                (.replace outside.lastHash idx testcase) ready
                (.done
                  ((outcome_bind_ok (outcome_replaceTestcase found)).trans
                    ends))
          · exact
              @currentAlive_of_onAdd _ (replaced state idx testcase) _ _ _ _
                ready.hasTables (mem_replaced found) alive.replaced ends
      | error error =>
          exact .inr ⟨error, reached, ends, trivial⟩

theorem satisfies_onRemove
    (outside : Outside)
    (idx : CorpusId)
    (ids : List CorpusId)
    (current : Option CorpusId) :
    Satisfies
      (fun state : State Input =>
        Ready state ∧ state.corpus.ids = ids ∧ state.corpus.current = current)
      ((hooks compute).perform (.remove outside idx))
      (fun _ state =>
        Ready state ∧ (state.corpus.ids = ids.filter fun id => id ≠ idx) ∧
          state.corpus.current = current)
      (fun _ _ => True) := by
  refine Hooks.satisfies_remove (fun state prev holds _ =>
    .of_outcome ?_) fun _ _ => trivial
  rintro _ rfl
  obtain ⟨ready, rfl, rfl⟩ := holds
  obtain ⟨wsmeta, isThere, _⟩ := ready.tables
  rcases
      @outcome_createAliasTable _ (removed state idx) compute wsmeta isThere
      with
    ⟨tables, _, ends⟩ | ⟨error, _, ends⟩
  · exact .inl ⟨(), _, ends, ready_of_onRemove ready ends,
      InMemoryCorpus.ids_removed, rfl⟩
  · exact .inr ⟨error, _, ends, trivial⟩

theorem satisfies_next
    (outside : Outside) :
    Satisfies (fun state : State Input => Ready state ∧ CurrentAlive state)
      ((hooks compute).perform (.next outside))
      (fun _ state => Ready state ∧ CurrentAlive state)
      (fun error _ => ¬IsKeyNotFound error) := by
  refine Hooks.satisfies_next (.of_outcome ?_)
  rintro state ⟨ready, _⟩
  rcases outcome_next_cases ready outside.nth outside.drawn with
    ⟨id, reached, ends, isReady, isCurrent, isLive⟩ |
    ⟨error, reached, ends, notKey⟩
  · refine .inl ⟨id, reached, ends, isReady, ?_⟩
    intro current isOther
    cases isCurrent.symm.trans isOther
    exact isLive
  · refine .inr ⟨error, reached, ends, ?_⟩
    cases error with
    | keyNotFound message =>
        exact absurd rfl (notKey message)
    | _ =>
        exact fun isKey => isKey

theorem replaces_iff
    (ready : Ready state)
    (alive : CurrentAlive state)
    (event : Hooks.Event Input Outside) :
    ReplacesWell (hooks compute) (ScoreError compute) state event ↔
      BringsMeta (ScoreError compute) state event := by
  refine
    @replacesWell_iff _ _ _ _ _ Outside.lastHash ready.hasDepth alive ?_ ?_ event
  · intro outside idx testcase isLive fails
    obtain ⟨prev, found⟩ := InMemoryCorpus.mem_ids.mp isLive
    exact (Hooks.outcome_replace found).trans (outcome_bind_error fails)
  · intro outside idx testcase error after isLive fails _
    obtain ⟨prev, found⟩ := InMemoryCorpus.mem_ids.mp isLive
    obtain ⟨wsmeta, isThere, _⟩ := ready.tables
    have ends := (Hooks.outcome_replace found).symm.trans fails
    rcases
        @outcome_onAdd _ (replaced state idx testcase) compute wsmeta _ isThere
          (mem_replaced found) outside.lastHash with
      ⟨data, tables, _, adds⟩ | ⟨message, isMissing, _⟩ |
      ⟨data, failure, ⟨id, entry, isEntry, scoreFails⟩, adds⟩
    · cases adds.symm.trans ends
    · exact .inr ⟨message, isMissing⟩
    · cases adds.symm.trans ends
      have hasDepth :
          Entries (attached (replaced state idx testcase) idx data) HasDepth :=
        (others_replaced ready.hasDepth).modify fun _ => rfl
      exact .inl
        ⟨entry, attached (replaced state idx testcase) idx data,
          hasDepth id entry isEntry, ready.psmeta, scoreFails⟩

theorem lawful :
    Lawful (hooks compute) Ready (ScoreError compute)
      (BringsMeta (ScoreError compute)) where
  onAdd := satisfies_onAdd
  onReplace := satisfies_onReplace
  onRemove := satisfies_onRemove
  next := satisfies_next
  replaces _ event ready alive := replaces_iff ready alive event
  elsewhere state after ready undisturbed := by
    obtain ⟨wsmeta, isThere, complete⟩ := ready.tables
    refine ⟨undisturbed.schedulerMetadata ready.psmeta,
      ⟨wsmeta, undisturbed.weighted.trans isThere, ?_⟩, ?_⟩
    · rwa [undisturbed.ids]
    · intro id isLive
      obtain ⟨testcase, found⟩ := InMemoryCorpus.mem_ids.mp isLive
      exact ⟨testcase, found,
        undisturbed.hasDepth ready.hasDepth id testcase found⟩

end WeightedScheduler

namespace EcoScheduler

/-- The entry carries the metadata that `on_add` attaches. -/
def HasBoth (testcase : Testcase Input) : Prop :=
  HasDepth testcase ∧ testcase.ecoMeta.isSome = true

/-- The metadata of the state and of every entry is there. -/
structure Ready (state : State Input) : Prop where
  eco : state.eco.isSome = true
  entries : Entries state HasBoth

/-- The scheduler is ready, with given ids and a given current entry. -/
structure Held
    (ids : List CorpusId)
    (current : Option CorpusId)
    (state : State Input) : Prop where
  ready : Ready state
  ids : state.corpus.ids = ids
  current : state.corpus.current = current

/-- The procedure does not miss a key, and changes neither ids nor current. -/
def Steady
    {Value : Type}
    (ids : List CorpusId)
    (current : Option CorpusId)
    (hook : Hook Input Value)
    (Returns : Value → Prop) : Prop :=
  Preserves (Held ids current) hook Returns fun error => ¬IsKeyNotFound error

section

variable {ids : List CorpusId}
variable {current : Option CorpusId}

theorem steady_orPanic
    {Value : Type}
    (found : Option Value) :
    Steady ids current (liftM (orPanic found) : Hook Input Value)
      fun value => found = some value := by
  refine .lift ?_ ?_
  · intro value isValue
    cases found with
    | some other =>
        cases isValue
        rfl
    | none =>
        cases isValue
  · intro error isError
    cases found with
    | some other =>
        cases isError
    | none =>
        cases isError
        exact fun isKey => isKey

theorem steady_checkedSub
    (first second : Nat) :
    Steady ids current (liftM (checkedSub first second) : Hook Input Nat)
      fun _ => True := by
  refine .lift (fun _ _ => trivial) ?_
  intro error isError
  rw [checkedSub] at isError
  split at isError
  · cases isError
  · cases isError
    exact fun isKey => isKey

theorem steady_checkedProduct
    (first second third : Nat) :
    Steady ids current
      (liftM (checkedProduct first second third) : Hook Input Nat)
      fun _ => True := by
  refine .lift (fun _ _ => trivial) ?_
  intro error isError
  rw [checkedProduct] at isError
  split at isError
  · cases isError
  · cases isError
    exact fun isKey => isKey

theorem steady_getMetadata :
    Steady ids current (getMetadata : Hook Input _) fun _ => True := by
  refine .bind .get fun state held => ?_
  obtain ⟨data, isThere⟩ := Option.isSome_iff_exists.mp held.ready.eco
  rw [isThere]
  exact .lift (fun _ _ => trivial) fun _ isError => nomatch isError

theorem steady_setMetadata
    (data : EcoMetadata) :
    Steady ids current (setMetadata data : Hook Input _) fun _ => True :=
  .modify fun _ held =>
    ⟨⟨rfl, held.ready.entries⟩, held.ids, held.current⟩

variable {id : CorpusId}

theorem steady_getTestcase
    (isLive : id ∈ ids) :
    Steady ids current (getTestcase id : Hook Input _) HasBoth := by
  refine .bind .get fun state held => ?_
  have isThere : id ∈ state.corpus.ids := held.ids.symm ▸ isLive
  obtain ⟨testcase, found⟩ := InMemoryCorpus.mem_ids.mp isThere
  rw [InMemoryCorpus.get_eq, found]
  refine .lift ?_ fun _ isError => nomatch isError
  intro value isValue
  cases isValue
  exact held.ready.entries id testcase found

theorem steady_getTestcaseMetadata
    (isLive : id ∈ ids) :
    Steady ids current (getTestcaseMetadata id : Hook Input _)
      fun _ => True := by
  refine .bind (steady_getTestcase isLive) fun testcase hasBoth => ?_
  obtain ⟨data, isData⟩ := Option.isSome_iff_exists.mp hasBoth.2
  rw [isData]
  exact .lift (fun _ _ => trivial) fun _ isError => nomatch isError

theorem steady_setTestcaseMetadata
    (id : CorpusId)
    (data : EcoTestcaseMetadata) :
    Steady ids current (setTestcaseMetadata id data : Hook Input _)
      fun _ => True :=
  .modify fun _ held =>
    ⟨⟨held.ready.eco, held.ready.entries.modify fun _ hasBoth =>
        ⟨hasBoth.1, rfl⟩⟩,
      InMemoryCorpus.ids_modify.trans held.ids, held.current⟩

variable {searched : List CorpusId}

theorem steady_findUnfuzzed
    (live : ∀ id ∈ searched, id ∈ ids) :
    Steady ids current (findUnfuzzed searched : Hook Input _)
      fun found => ∀ id, found = some id → id ∈ ids := by
  induction searched with
  | nil =>
      exact .pure fun _ isFound => nomatch isFound
  | cons id rest ih =>
      have isLive := live id List.mem_cons_self
      refine .bind (steady_getTestcaseMetadata isLive) fun data _ => ?_
      split
      · exact ih fun other isOther =>
          live other (List.mem_cons_of_mem _ isOther)
      · refine .pure ?_
        rintro _ ⟨⟩
        exact isLive

theorem steady_anyFuzzed
    (live : ∀ id ∈ searched, id ∈ ids) :
    Steady ids current (anyFuzzed searched : Hook Input _)
      fun _ => True := by
  induction searched with
  | nil =>
      exact .pure trivial
  | cons id rest ih =>
      refine .bind (steady_getTestcaseMetadata (live id List.mem_cons_self))
        fun data _ => ?_
      split
      · exact .pure trivial
      · exact ih fun other isOther =>
          live other (List.mem_cons_of_mem _ isOther)

theorem steady_findUnexploited
    (live : ∀ id ∈ searched, id ∈ ids) :
    Steady ids current (findUnexploited searched : Hook Input _)
      fun found => ∀ id, found = some id → id ∈ ids := by
  induction searched with
  | nil =>
      exact .pure fun _ isFound => nomatch isFound
  | cons id rest ih =>
      have isLive := live id List.mem_cons_self
      refine .bind (steady_getTestcaseMetadata isLive) fun data _ => ?_
      split
      · exact ih fun other isOther =>
          live other (List.mem_cons_of_mem _ isOther)
      · refine .pure ?_
        rintro _ ⟨⟩
        exact isLive

theorem steady_resetStates
    {reset : List CorpusId}
    (live : ∀ id ∈ reset, id ∈ ids) :
    Steady ids current (resetStates reset : Hook Input _) fun _ => True := by
  induction reset with
  | nil =>
      exact .pure trivial
  | cons id rest ih =>
      refine .bind (steady_getTestcaseMetadata (live id List.mem_cons_self))
        fun data _ => ?_
      refine .bind (steady_setTestcaseMetadata id _) fun _ _ => ?_
      exact ih fun other isOther =>
        live other (List.mem_cons_of_mem _ isOther)

theorem steady_selectBest
    (live : ∀ id ∈ searched, id ∈ ids)
    {selection : CorpusId}
    (isLive : selection ∈ ids)
    (selectionMeta : EcoTestcaseMetadata) :
    Steady ids current
      (selectBest searched selection selectionMeta : Hook Input _)
      fun id => id ∈ ids := by
  induction searched generalizing selection selectionMeta with
  | nil =>
      exact .pure isLive
  | cons id rest ih =>
      have later := fun other isOther =>
        live other (List.mem_cons_of_mem _ isOther)
      have isHead := live id List.mem_cons_self
      refine .bind (steady_getTestcaseMetadata isHead) fun data _ => ?_
      refine .bind (steady_checkedProduct _ _ _) fun own _ => ?_
      refine .bind (steady_checkedProduct _ _ _) fun selected _ => ?_
      split
      · exact ih later isHead data
      · exact ih later isLive selectionMeta

theorem steady_exploit
    {cur : Option CorpusId}
    (isLive : ∀ id, cur = some id → id ∈ ids) :
    Steady ids current
      (do
        let selection ← orPanic cur
        let selectionMeta ← getTestcaseMetadata selection
        selectBest ids selection selectionMeta : Hook Input CorpusId)
      fun id => id ∈ ids := by
  refine .bind (steady_orPanic cur) fun id isCur => ?_
  refine .bind (steady_getTestcaseMetadata (isLive id isCur)) fun data _ => ?_
  exact steady_selectBest (fun _ isLive => isLive) (isLive id isCur) data

theorem steady_schedule :
    Steady ids current (schedule : Hook Input _) fun id => id ∈ ids := by
  refine .bind .get fun state held => ?_
  rw [held.ids]
  refine .bind (steady_findUnfuzzed fun _ isLive => isLive)
    fun selection isUnfuzzed => ?_
  refine .bind (steady_anyFuzzed fun _ isLive => isLive) fun isFuzzed _ => ?_
  split
  · refine .bind steady_getMetadata fun data _ => ?_
    refine .bind (steady_setMetadata _) fun _ _ => ?_
    exact (steady_orPanic selection).weaken isUnfuzzed
  · refine .bind steady_getMetadata fun data _ => ?_
    refine .bind (steady_setMetadata _) fun _ _ => ?_
    rw [InMemoryCorpus.first_eq, held.ids]
    refine .bind (steady_findUnexploited fun _ isLive => isLive)
      fun found isLive => ?_
    cases found with
    | some id =>
        exact steady_exploit isLive
    | none =>
        refine .bind (steady_resetStates fun _ isLive => isLive) fun _ _ => ?_
        exact steady_exploit fun _ isFirst => List.mem_of_head? isFirst

theorem steady_handlePrevious
    (isLive : id ∈ ids) :
    Steady ids current (handlePrevious id : Hook Input _) fun _ => True := by
  refine .bind .get fun state held => ?_
  refine .bind steady_getMetadata fun data _ => ?_
  refine .bind (steady_getTestcaseMetadata isLive) fun previous _ => ?_
  refine .bind (steady_checkedSub _ _) fun lastFound _ => ?_
  refine .bind (steady_checkedSub _ _) fun lastEnergy _ => ?_
  refine .bind (steady_setTestcaseMetadata id _) fun _ _ => ?_
  exact steady_setMetadata _

theorem steady_finishCurrent
    (isLive : ∀ id, current = some id → id ∈ ids) :
    Steady ids current (finishCurrent : Hook Input _) fun _ => True := by
  refine .bind .get fun state held => ?_
  rw [held.current]
  cases current with
  | some id =>
      exact steady_handlePrevious (isLive id rfl)
  | none =>
      refine .bind .get fun state _ => ?_
      refine .bind steady_getMetadata fun data _ => ?_
      exact steady_setMetadata _

theorem satisfies_noteSelection
    (isLive : id ∈ ids) :
    Satisfies (Held ids current) (noteSelection id : Hook Input _)
      (fun _ => Held ids (some id)) fun error _ => ¬IsKeyNotFound error := by
  refine
    @Satisfies.bind _ _ _ _ _ _ _ (fun _ => Held ids (some id)) _ _ ?_
      fun _ => ?_
  · exact fun state held => ⟨⟨held.ready.eco, held.ready.entries⟩, held.ids, rfl⟩
  · refine
      @Satisfies.weaken _ _ _ _ _ _ _ _ _ _
        (?_ : Steady ids (some id) _ fun _ => True) (fun _ held => held)
        (fun _ _ reached => reached.2) fun _ _ fails => fails
    refine .bind (steady_getTestcaseMetadata isLive) fun selected _ => ?_
    refine .bind .get fun state _ => ?_
    refine .bind steady_getMetadata fun data _ => ?_
    exact steady_setMetadata _

end

/-- An entry gets its metadata, unless its parent is missed. -/
theorem satisfies_attach
    (hasEco : state.eco.isSome = true)
    (others : Others state idx HasBoth)
    (isLive : idx ∈ state.corpus.ids)
    (lastHash : Nat) :
    Satisfies (· = state) (onAdd lastHash idx)
      (fun _ => Held state.corpus.ids state.corpus.current)
      (fun error _ =>
        IsKeyNotFound error →
          ∃ message,
            (attachSchedulerMeta lastHash idx : Hook Input _).outcome state =
              (.error (.keyNotFound message), state)) := by
  rcases outcome_attachSchedulerMeta isLive lastHash with
    ⟨depth, attaches⟩ | ⟨message, fails⟩
  · refine .bind_ok attaches ?_
    let middle : State Input :=
      { state with
        corpus :=
          state.corpus.modify idx fun testcase =>
            { testcase with
              schedulerMeta := some (.withNFuzzEntry (depth + 1) lastHash) } }
    have isThere : idx ∈ middle.corpus.ids :=
      InMemoryCorpus.ids_modify.symm ▸ isLive
    obtain ⟨entry, found⟩ := InMemoryCorpus.mem_ids.mp isThere
    refine .bind_ok (@outcome_getTestcase_ok _ middle _ _ found) ?_
    refine .bind_ok (@outcome_setTestcaseMetadata _ middle idx _) ?_
    have held :
        Held state.corpus.ids state.corpus.current
          (withEntry middle idx .default) := by
      refine ⟨⟨hasEco, ?_⟩,
        InMemoryCorpus.ids_modify.trans InMemoryCorpus.ids_modify, rfl⟩
      intro id other isOther
      rw [withEntry, InMemoryCorpus.find_modify] at isOther
      split at isOther
      · rename_i same
        subst same
        rw [found] at isOther
        cases isOther
        refine ⟨?_, rfl⟩
        rw [InMemoryCorpus.find_modify, if_pos rfl] at found
        obtain ⟨previous, _, rfl⟩ := Option.map_eq_some_iff.mp found
        rfl
      · rename_i different
        rw [InMemoryCorpus.find_modify, if_neg different] at isOther
        exact others id other different isOther
    have rest :
        Steady state.corpus.ids state.corpus.current
          (do
            let state ← get
            let data ← getMetadata
            let sinceLast ←
              checkedSub state.executions data.lastExecutions
            setMetadata { data with lastFindIteration := sinceLast + 1 } :
            Hook Input Unit)
          fun _ => True := by
      refine .bind .get fun state _ => ?_
      refine .bind steady_getMetadata fun data _ => ?_
      refine .bind (steady_checkedSub _ _) fun sinceLast _ => ?_
      exact steady_setMetadata _
    exact Satisfies.weaken rest (fun _ same => same ▸ held)
      (fun _ _ reached => reached.2) fun _ _ fails isKey => absurd isKey fails
  · exact .bind_error fails fun _ => ⟨message, fails⟩

theorem Held.alive
    {ids : List CorpusId}
    {current : Option CorpusId}
    (held : Held ids current state)
    (isLive : ∀ id, current = some id → id ∈ ids) :
    CurrentAlive state := by
  intro id isCurrent
  rw [held.ids]
  exact isLive id (held.current.symm.trans isCurrent)

theorem satisfies_onAdd
    (lastHash : Nat)
    (testcase : Testcase Input) :
    Satisfies (fun state => Ready state ∧ CurrentAlive state)
      (hooks.perform (.add lastHash testcase))
      (fun _ state => Ready state ∧ CurrentAlive state)
      (fun error _ => IsKeyNotFound error → False) := by
  refine Hooks.satisfies_add fun state holds => ?_
  obtain ⟨ready, alive⟩ := holds
  have hasDepth : Entries state HasDepth := fun id testcase found =>
    (ready.entries id testcase found).1
  refine
    (@satisfies_attach _ (added state testcase) _ ready.eco
        (others_added ready.entries) nextId_mem_added lastHash).weaken
      (fun _ isAdded => isAdded)
      (fun _ _ held => ⟨held.ready, held.alive alive.added⟩) ?_
  intro error _ fails isKey
  obtain ⟨message, isMissing⟩ := fails isKey
  obtain ⟨depth, attaches⟩ :=
    @outcome_attachSchedulerMeta_ok _ (added state testcase) _
      (current_added hasDepth alive) nextId_mem_added lastHash
  cases isMissing.symm.trans attaches

theorem satisfies_onReplace
    (lastHash : Nat)
    (idx : CorpusId)
    (testcase : Testcase Input) :
    Satisfies (fun state => Ready state ∧ CurrentAlive state)
      (hooks.perform (.replace lastHash idx testcase))
      (fun _ state => Ready state ∧ CurrentAlive state)
      (fun _ _ => True) := by
  refine Hooks.satisfies_replace (fun state prev holds found => ?_)
    fun _ _ => trivial
  obtain ⟨ready, alive⟩ := holds
  exact
    (@satisfies_attach _ (replaced state idx testcase) _ ready.eco
        (others_replaced ready.entries) (mem_replaced found) lastHash).weaken
      (fun _ isReplaced => isReplaced)
      (fun _ _ held => ⟨held.ready, held.alive alive.replaced⟩)
      fun _ _ _ => trivial

theorem satisfies_next
    (lastHash : Nat) :
    Satisfies (fun state : State Input => Ready state ∧ CurrentAlive state)
      (hooks.perform (.next lastHash))
      (fun _ state => Ready state ∧ CurrentAlive state)
      (fun error _ => ¬IsKeyNotFound error) := by
  refine Hooks.satisfies_next ?_
  rintro state ⟨ready, alive⟩
  suffices
      Satisfies (Held state.corpus.ids state.corpus.current)
        (next : Hook Input _) (fun _ state => Ready state ∧ CurrentAlive state)
        (fun error _ => ¬IsKeyNotFound error) from
    this state ⟨ready, rfl, rfl⟩
  refine
    @Satisfies.bind _ _ _ _ _ _ _
      (fun _ => Held state.corpus.ids state.corpus.current) _ _
      (Satisfies.weaken (steady_finishCurrent alive) (fun _ held => held)
        (fun _ _ reached => reached.2) fun _ _ fails => fails) fun _ => ?_
  refine .bind steady_schedule fun id => ?_
  rintro middle ⟨isLive, held⟩
  suffices
      Satisfies (Held state.corpus.ids state.corpus.current)
        (do
          noteSelection id
          pure id : Hook Input _)
        (fun _ state => Ready state ∧ CurrentAlive state)
        (fun error _ => ¬IsKeyNotFound error) from
    this middle held
  refine .bind (satisfies_noteSelection isLive) fun _ => .pure ?_
  intro after heldAfter
  refine ⟨heldAfter.ready, heldAfter.alive ?_⟩
  rintro _ ⟨⟩
  exact isLive

theorem replaces_iff
    (ready : Ready state)
    (alive : CurrentAlive state)
    (event : Hooks.Event Input Nat) :
    ReplacesWell hooks (fun _ => False) state event ↔
      BringsMeta (fun _ => False) state event := by
  have hasDepth : Entries state HasDepth := fun id testcase found =>
    (ready.entries id testcase found).1
  refine @replacesWell_iff _ _ _ _ _ id hasDepth alive ?_ ?_ event
  · intro lastHash idx testcase isLive fails
    obtain ⟨prev, found⟩ := InMemoryCorpus.mem_ids.mp isLive
    exact (Hooks.outcome_replace found).trans (outcome_bind_error fails)
  · intro lastHash idx testcase error after isLive fails isKey
    obtain ⟨prev, found⟩ := InMemoryCorpus.mem_ids.mp isLive
    have isAttach :=
      @satisfies_attach _ (replaced state idx testcase) _ ready.eco
        (others_replaced ready.entries) (mem_replaced found) lastHash
    have ends := (Hooks.outcome_replace found).symm.trans fails
    exact .inr (isAttach.of_error rfl ends isKey)

theorem lawful :
    Lawful (hooks : Hooks Input Nat) Ready (fun _ => False)
      (BringsMeta fun _ => False) where
  onAdd := satisfies_onAdd
  onReplace := satisfies_onReplace
  onRemove lastHash idx ids current :=
    Hooks.satisfies_remove
      (fun state prev holds _ =>
        .pure fun _ isRemoved =>
          isRemoved ▸
            ⟨⟨holds.1.eco, entries_removed holds.1.entries⟩,
              holds.2.1 ▸ InMemoryCorpus.ids_removed, holds.2.2⟩)
      fun _ _ => trivial
  next := satisfies_next
  replaces _ event ready alive := replaces_iff ready alive event
  elsewhere state after ready undisturbed := by
    refine ⟨undisturbed.eco ready.eco, ?_⟩
    intro id testcase found
    have isLive : id ∈ after.corpus.ids :=
      InMemoryCorpus.mem_ids.mpr ⟨_, found⟩
    rw [undisturbed.ids] at isLive
    obtain ⟨entry, isEntry⟩ := InMemoryCorpus.mem_ids.mp isLive
    obtain ⟨changed, isChanged, keepsDepth, keepsEco⟩ :=
      undisturbed.entries id entry isEntry
    cases found.symm.trans isChanged
    have hasBoth := ready.entries id entry isEntry
    exact ⟨keepsDepth hasBoth.1, keepsEco hasBoth.2⟩

end EcoScheduler

theorem currentAlive_new : CurrentAlive (.new : State Input) := by
  intro id isCurrent
  cases isCurrent

theorem entries_new
    {Property : Testcase Input → Prop} :
    Entries (.new : State Input) Property := by
  intro id testcase found
  cases found

/--
With each of the schedulers, the current entry is alive in every state of a run, and
no call fails because the parent is not found, if and only if the run never removes
the current entry and, with those that tell a replaced entry like an added one, only
replaces it by a testcase with metadata.
-/
theorem current_alive_iff
    (compute : Score Input) :
    (∀ events,
        (Run.Always (QueueScheduler.hooks.Step Undisturbed)
              (HoldsCurrent QueueScheduler.hooks fun _ => False)
              (.new : State Input) events ∧
            Run.Throughout (QueueScheduler.hooks.Step Undisturbed)
              (ReplacesWell QueueScheduler.hooks fun _ => False) .new events) ↔
          Run.Everywhere (QueueScheduler.hooks.Step Undisturbed) LeavesCurrent
            .new events) ∧
      (∀ events,
        (Run.Always (PowerQueueScheduler.hooks.Step Undisturbed)
              (HoldsCurrent PowerQueueScheduler.hooks fun _ => False)
              (PowerQueueScheduler.new (.new : State Input)) events ∧
            Run.Throughout (PowerQueueScheduler.hooks.Step Undisturbed)
              (ReplacesWell PowerQueueScheduler.hooks fun _ => False)
              (PowerQueueScheduler.new .new) events) ↔
          Run.Everywhere (PowerQueueScheduler.hooks.Step Undisturbed)
            LeavesCurrent (PowerQueueScheduler.new .new) events) ∧
      (∀ events,
        (Run.Always ((WeightedScheduler.hooks compute).Step Undisturbed)
              (HoldsCurrent (WeightedScheduler.hooks compute)
                (WeightedScheduler.ScoreError compute))
              (WeightedScheduler.new .new) events ∧
            Run.Throughout ((WeightedScheduler.hooks compute).Step Undisturbed)
              (ReplacesWell (WeightedScheduler.hooks compute)
                (WeightedScheduler.ScoreError compute))
              (WeightedScheduler.new .new) events) ↔
          Run.Everywhere ((WeightedScheduler.hooks compute).Step Undisturbed)
              LeavesCurrent (WeightedScheduler.new .new) events ∧
            Run.Throughout ((WeightedScheduler.hooks compute).Step Undisturbed)
              (BringsMeta (WeightedScheduler.ScoreError compute))
              (WeightedScheduler.new .new) events) ∧
      ∀ events,
        (Run.Always (EcoScheduler.hooks.Step Undisturbed)
              (HoldsCurrent EcoScheduler.hooks fun _ => False)
              (EcoScheduler.new (.new : State Input)) events ∧
            Run.Throughout (EcoScheduler.hooks.Step Undisturbed)
              (ReplacesWell EcoScheduler.hooks fun _ => False)
              (EcoScheduler.new .new) events) ↔
          Run.Everywhere (EcoScheduler.hooks.Step Undisturbed) LeavesCurrent
              (EcoScheduler.new .new) events ∧
            Run.Throughout (EcoScheduler.hooks.Step Undisturbed)
              (BringsMeta fun _ => False) (EcoScheduler.new .new) events := by
  refine ⟨fun events => ?_, fun events => ?_, ?_, ?_⟩
  · refine
      (QueueScheduler.lawful.always_iff ⟨trivial, currentAlive_new⟩ events).trans
        (and_iff_left ?_)
    exact fun _ _ _ _ _ => trivial
  · have ready :
        PowerQueueScheduler.Ready
          (PowerQueueScheduler.new (.new : State Input)) :=
      ⟨rfl, entries_new⟩
    refine
      (PowerQueueScheduler.lawful.always_iff ⟨ready, currentAlive_new⟩
        events).trans (and_iff_left ?_)
    exact fun _ _ _ _ _ => trivial
  · exact WeightedScheduler.lawful.always_iff
      ⟨@WeightedScheduler.ready_run _ compute _ _ (.nil _), currentAlive_new⟩
  · exact EcoScheduler.lawful.always_iff
      ⟨⟨rfl, entries_new⟩, currentAlive_new⟩

/--
After the current entry was removed, the next one cannot be added; and it cannot be
replaced by a testcase without metadata.
-/
theorem removed_current_is_read :
    (∃ state : State Nat,
      Run (EcoScheduler.hooks.Step Undisturbed) (EcoScheduler.new .new)
          [.add 0 (.new 7), .next 0, .remove 0 0] state ∧
        ¬HoldsCurrent EcoScheduler.hooks (fun _ => False) state) ∧
      ∃ state : State Nat,
        Run (EcoScheduler.hooks.Step Undisturbed) (EcoScheduler.new .new)
            [.add 0 (.new 7), .next 0] state ∧
          ¬ReplacesWell EcoScheduler.hooks (fun _ => False) state
            (.replace 0 0 (.new 8)) := by
  have reached :
      (replay EcoScheduler.hooks.perform (EcoScheduler.new (.new : State Nat))
          [.add 0 (.new 7), .next 0, .remove 0 0]).any fun state =>
        decide (((EcoScheduler.hooks.perform (.add 0 (.new 8))).outcome
          state).1 = .error (.keyNotFound "Index 0 not found")) := by
    decide +kernel
  have replacing :
      (replay EcoScheduler.hooks.perform (EcoScheduler.new (.new : State Nat))
          [.add 0 (.new 7), .next 0]).any fun state =>
        decide (0 ∈ state.corpus.ids ∧
          ((EcoScheduler.hooks.perform (.replace 0 0 (.new 8))).outcome
            state).1 = .error missingMeta) := by
    decide +kernel
  constructor
  · obtain ⟨state, replays, fails⟩ := (Option.any_eq_true _ _).mp reached
    refine ⟨state, run_of_replay Hooks.Step.done replays, ?_⟩
    intro holds
    exact holds.onAdd 0 (.new 8) _ _
      (Prod.ext (of_decide_eq_true fails) rfl) trivial
  · obtain ⟨state, replays, fails⟩ := (Option.any_eq_true _ _).mp replacing
    obtain ⟨isLive, fails⟩ := of_decide_eq_true fails
    refine ⟨state, run_of_replay Hooks.Step.done replays, ?_⟩
    intro well
    exact well isLive _ _ (Prod.ext fails rfl) trivial

end MeFuzz.Scheduler
