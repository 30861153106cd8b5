import MeFuzz.WeightedScheduler

namespace MeFuzz.Scheduler.WeightedScheduler

open Corpus (CorpusId Error InMemoryCorpus)
open Procedure

/-!
# What the weighted scheduler draws

While the hooks of the scheduler keep its tables complete, `next` draws a live
entry.  Only the upper end of the draws misses an entry that has no alias.
-/

variable {Input : Type}
variable {compute : Score Input}
variable {state after : State Input}

/-- What happens to the scheduler. -/
inductive Event (Input : Type) where
  | add (lastHash : Nat) (testcase : Testcase Input)
  | replace (lastHash : Nat) (idx : CorpusId) (testcase : Testcase Input)
  | remove (idx : CorpusId)
  | next (nth drawn : Nat)

/-- The corpus is changed and the hook of the scheduler is told. -/
def perform (compute : Score Input) : Event Input → Hook Input Unit
  | .add lastHash testcase => do
      let idx ← addTestcase testcase
      onAdd compute lastHash idx
  | .replace lastHash idx testcase => do
      let _ ← replaceTestcase idx testcase
      onReplace compute lastHash idx
  | .remove idx => do
      let _ ← removeTestcase idx
      onRemove compute
  | .next nth drawn => do
      let _ ← next nth drawn

/-- Each call that returns is a step. -/
inductive Step (compute : Score Input) :
    StepRelation (State Input) (Event Input) where
  | done
      {state after : State Input}
      {event : Event Input} :
      (perform compute event).outcome state = (.ok (), after) →
      Step compute state event after

theorem ready_of_onAdd
    {idx : CorpusId}
    {lastHash : Nat}
    (hasPsmeta : state.schedulerMetadata.isSome = true)
    (hasTables : state.weighted.isSome = true)
    (isLive : idx ∈ state.corpus.ids)
    (others :
      ∀ id ∈ state.corpus.ids, id ≠ idx →
        ∃ testcase,
          state.corpus.find id = some testcase ∧
            testcase.schedulerMeta.isSome = true)
    (returned : (onAdd compute lastHash idx).outcome state = (.ok (), after)) :
    Ready after := by
  obtain ⟨wsmeta, isThere⟩ := Option.isSome_iff_exists.mp hasTables
  obtain ⟨testcase, found⟩ := InMemoryCorpus.mem_ids.mp isLive
  rcases @outcome_onAdd _ state compute wsmeta idx isThere isLive lastHash with
    ⟨data, tables, complete, ends⟩ | ⟨message, _, ends⟩ | ⟨_, error, _, ends⟩
  · cases ends.symm.trans returned
    have sameIds : (attached state idx data).corpus.ids = state.corpus.ids :=
      InMemoryCorpus.ids_modify
    refine ⟨hasPsmeta, ⟨_, rfl, ?_⟩, ?_⟩
    · dsimp only
      rwa [sameIds]
    · intro id isId
      dsimp only at isId
      rw [sameIds] at isId
      by_cases same : id = idx
      · subst same
        refine ⟨{ testcase with schedulerMeta := some data }, ?_, rfl⟩
        refine InMemoryCorpus.find_modify.trans ?_
        rw [if_pos rfl, found]
        rfl
      · obtain ⟨entry, isEntry, hasMeta⟩ := others id isId same
        refine ⟨entry, ?_, hasMeta⟩
        exact InMemoryCorpus.find_modify.trans ((if_neg same).trans isEntry)
  · cases ends.symm.trans returned
  · cases ends.symm.trans returned

theorem Ready.hasTables (ready : Ready state) : state.weighted.isSome = true := by
  obtain ⟨wsmeta, isThere, _⟩ := ready.tables
  rw [isThere]
  rfl

theorem ready_of_onRemove
    {idx : CorpusId}
    (ready : Ready state)
    (returned :
      (onRemove compute).outcome
          { state with corpus := state.corpus.removed idx } =
        (.ok (), after)) :
    Ready after := by
  obtain ⟨wsmeta, isThere, _⟩ := ready.tables
  let removed : State Input :=
    { state with corpus := state.corpus.removed idx }
  rcases @outcome_createAliasTable _ removed compute wsmeta isThere with
    ⟨tables, complete, ends⟩ | ⟨error, _, ends⟩
  · cases ends.symm.trans returned
    refine ⟨ready.psmeta, ⟨_, rfl, complete⟩, ?_⟩
    intro id isId
    change id ∈ (state.corpus.removed idx).ids at isId
    rw [InMemoryCorpus.ids_removed, List.mem_filter, decide_eq_true_eq] at isId
    obtain ⟨entry, found, hasMeta⟩ := ready.entries id isId.1
    refine ⟨entry, ?_, hasMeta⟩
    exact InMemoryCorpus.find_removed.trans ((if_neg isId.2).trans found)
  · cases ends.symm.trans returned

theorem ready_step
    {event : Event Input}
    (ready : Ready state)
    (taken : Step compute state event after) :
    Ready after := by
  cases taken with
  | done returned =>
      cases event with
      | add lastHash testcase =>
          rw [perform, outcome_bind_ok outcome_addTestcase] at returned
          refine
            @ready_of_onAdd _ compute
              { state with corpus := (state.corpus.add testcase).2 } after _ _
              ready.psmeta ready.hasTables ?_ ?_ returned
          · simp
          · intro id isId different
            dsimp only at isId ⊢
            rw [InMemoryCorpus.ids_add, List.mem_append,
              List.mem_singleton] at isId
            obtain ⟨entry, found, hasMeta⟩ :=
              ready.entries id (isId.resolve_right different)
            refine ⟨entry, ?_, hasMeta⟩
            rw [InMemoryCorpus.find_add, if_neg different, found]
      | replace lastHash idx testcase =>
          rw [perform] at returned
          cases found : state.corpus.find idx with
          | none =>
              rw [outcome_bind_error (outcome_replaceTestcase_missing found)]
                at returned
              cases returned
          | some prev =>
              rw [outcome_bind_ok (outcome_replaceTestcase found)] at returned
              refine
                @ready_of_onAdd _ compute
                  { state with
                    corpus := state.corpus.modify idx fun _ => testcase }
                  after _ _ ready.psmeta ready.hasTables ?_ ?_ returned
              · rw [InMemoryCorpus.ids_modify]
                exact InMemoryCorpus.mem_ids.mpr ⟨prev, found⟩
              · intro id isId different
                dsimp only at isId ⊢
                rw [InMemoryCorpus.ids_modify] at isId
                obtain ⟨entry, isEntry, hasMeta⟩ := ready.entries id isId
                refine ⟨entry, ?_, hasMeta⟩
                rw [InMemoryCorpus.find_modify, if_neg different, isEntry]
      | remove idx =>
          rw [perform] at returned
          cases found : state.corpus.find idx with
          | none =>
              rw [outcome_bind_error (outcome_removeTestcase_missing found)]
                at returned
              cases returned
          | some prev =>
              rw [outcome_bind_ok (outcome_removeTestcase found)] at returned
              exact ready_of_onRemove ready returned
      | next nth drawn =>
          rw [perform] at returned
          rcases outcome_next_cases ready nth drawn with
            ⟨idx, reached, ends, isReady, _⟩ | ⟨error, reached, ends, _⟩
          · rw [outcome_bind_ok ends] at returned
            cases returned
            exact isReady
          · rw [outcome_bind_error ends] at returned
            cases returned

theorem ready_run
    {events : List (Event Input)}
    (run : Run (Step compute) (new .new) events state) :
    Ready state := by
  refine run.invariant (fun ready taken => ready_step ready taken)
    ⟨rfl, ⟨.new, rfl, ?_⟩, ?_⟩
  · intro id isLive
    cases isLive
  · intro id isLive
    cases isLive

/-- `next` returns the id of a live entry. -/
def Schedules
    (state : State Input)
    (nth drawn : Nat) : Prop :=
  ∃ id after,
    (next nth drawn).outcome state = (.ok id, after) ∧ id ∈ after.corpus.ids

/-- The entry that is picked has no alias. -/
def PicksWithoutAlias
    (state : State Input)
    (nth : Nat) : Prop :=
  ∃ wsmeta s,
    state.weighted = some wsmeta ∧ state.corpus.nth nth = some s ∧
      wsmeta.aliasTable s = none

/--
Whatever the generator draws, `next` schedules a live entry, except where the
entry that is picked has no alias and the upper end is drawn.
-/
theorem schedules_iff
    {events : List (Event Input)}
    (run : Run (Step compute) (new .new) events state)
    (notEmpty : state.corpus.ids ≠ [])
    {draws rest left : List Nat}
    {nth drawn : Nat}
    (picks : Rand.below state.corpus.count draws = some (nth, rest))
    (drawsEnd : Rand.between 0 1000000000 rest = some (drawn, left)) :
    Schedules state nth drawn ↔
      ¬(drawn = 1000000000 ∧ PicksWithoutAlias state nth) := by
  have ready := ready_run run
  obtain ⟨wsmeta, isThere, complete⟩ := ready.tables
  have notAbove := Rand.between_le (Nat.zero_le _) drawsEnd
  have positive : 0 < state.corpus.count :=
    Nat.pos_of_ne_zero (mt InMemoryCorpus.count_eq_zero.mp notEmpty)
  have isBelow := Rand.below_lt positive picks
  rw [InMemoryCorpus.count_eq] at isBelow
  have isPicked :
      state.corpus.nth nth = some (state.corpus.ids.get ⟨nth, isBelow⟩) := by
    rw [InMemoryCorpus.nth_eq]
    exact List.getElem?_eq_getElem isBelow
  have isLive := List.get_mem state.corpus.ids ⟨nth, isBelow⟩
  generalize state.corpus.ids.get ⟨nth, isBelow⟩ = s at isPicked isLive
  have noAlias_iff : PicksWithoutAlias state nth ↔ wsmeta.aliasTable s = none := by
    constructor
    · rintro ⟨other, id, isOther, isId, noAlias⟩
      obtain rfl := Option.some.inj (isThere.symm.trans isOther)
      obtain rfl := Option.some.inj (isPicked.symm.trans isId)
      exact noAlias
    · exact fun noAlias => ⟨wsmeta, s, isThere, isPicked, noAlias⟩
  rw [noAlias_iff]
  rcases choose_cases complete isLive notAbove with
    ⟨isEnd, chooses⟩ | ⟨notEnd, idx, isIdx, chooses⟩
  · refine iff_of_false ?_ (not_not.mpr isEnd)
    obtain ⟨after, panics⟩ := outcome_next_panics isThere isPicked chooses
    rintro ⟨id, other, returns, _⟩
    cases returns.symm.trans panics
  · refine iff_of_true ?_ notEnd
    obtain ⟨psmeta, data, returns⟩ :=
      outcome_next ready isThere isPicked chooses isIdx
    refine ⟨idx, _, returns, ?_⟩
    dsimp only
    rw [InMemoryCorpus.ids_modify]
    exact isIdx

/-- Every entry scores the same before it is calibrated. -/
def uncalibrated : Score Nat :=
  fun _ _ => .ok 1.0

/-- A draw that picks the second of two entries schedules one. -/
theorem schedules_second_of_two :
    ∃ state,
      Run (Step uncalibrated) (new .new) [.add 0 (.new 7), .add 0 (.new 8)] state ∧
        state.corpus.ids = [0, 1] ∧
        Rand.below state.corpus.count [1, 5] = some (1, [5]) ∧
        Schedules state 1 5 := by
  have reached :
      (replay (perform uncalibrated) (new .new) [.add 0 (.new 7), .add 0 (.new 8)]).any
        fun state => decide (state.corpus.ids = [0, 1]) := by
    decide +kernel
  obtain ⟨state, replays, ids⟩ := (Option.any_eq_true _ _).mp reached
  have isIds := of_decide_eq_true ids
  have run : Run (Step uncalibrated) (new .new) [.add 0 (.new 7), .add 0 (.new 8)] state :=
    run_of_replay Step.done replays
  have picks : Rand.below state.corpus.count [1, 5] = some (1, [5]) := by
    rw [InMemoryCorpus.count_eq, isIds]
    decide +kernel
  have drawsEnd : Rand.between 0 1000000000 [5] = some (5, []) := by
    decide +kernel
  exact ⟨state, run, isIds, picks,
    (schedules_iff run (by simp [isIds]) picks drawsEnd).mpr (by simp)⟩

/-- The upper end misses the only entry, which has no alias. -/
theorem upper_end_panics :
    ∃ state draws rest,
      Run (Step uncalibrated) (new .new) [.add 0 (.new 7)] state ∧
        state.corpus.ids ≠ [] ∧
        Rand.below state.corpus.count draws = some (0, rest) ∧
        Rand.between 0 1000000000 rest = some (1000000000, []) ∧
        ¬Schedules state 0 1000000000 := by
  have reached :
      (replay (perform uncalibrated) (new .new) [.add 0 (.new 7)]).any
        fun state =>
          decide (state.corpus.ids = [0]) &&
            decide (((next 0 1000000000).outcome state).1 =
              .error .panicked) := by
    decide +kernel
  obtain ⟨state, replays, isAfter⟩ := (Option.any_eq_true _ _).mp reached
  rw [Bool.and_eq_true, decide_eq_true_eq, decide_eq_true_eq] at isAfter
  obtain ⟨isIds, panics⟩ := isAfter
  have count : state.corpus.count = 1 := by
    rw [InMemoryCorpus.count_eq, isIds]
    rfl
  refine ⟨state, [1000000000], [1000000000], run_of_replay Step.done replays,
    by simp [isIds], by rw [count]; rfl, by decide +kernel, ?_⟩
  rintro ⟨id, after, returns, _⟩
  rw [returns] at panics
  cases panics

end MeFuzz.Scheduler.WeightedScheduler
