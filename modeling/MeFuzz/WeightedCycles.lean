import MeFuzz.WeightedScheduling

namespace MeFuzz.Scheduler.WeightedScheduler

open Corpus (CorpusId Error InMemoryCorpus)
open Procedure

/-!
# Cycles of the weighted scheduler

The counter of runs is reset where it has reached the number of entries, and a cycle of
the queue is counted where it is above that.  With a corpus of constant size it never
is, so no cycle is counted however often all entries have had their run.
-/

variable {Input : Type}
variable {state after : State Input}
variable {n runs cycles calls completed : Nat}

/-- The size of the corpus, the run counter, and the cycle counter. -/
structure Counted (n runs cycles : Nat) (state : State Input) : Prop where
  size : state.corpus.count = n
  runs : state.weighted.map WeightedScheduleMetadata.runsInCurrentCycle = some runs
  cycles : state.schedulerMetadata.map SchedulerMetadata.queueCycles = some cycles

/-- The cycle counter after a call. -/
def cyclesAfter (n runs cycles : Nat) : Nat :=
  if n < runs then cycles + 1 else cycles

theorem updateDepth_counts (runsBefore : Nat) :
    Satisfies (Counted n runs cycles : State Input → Prop)
      (updateDepth runsBefore n)
      (fun _ => Counted n runs (cyclesAfter n runsBefore cycles))
      fun _ _ => False := by
  intro state counted
  unfold updateDepth cyclesAfter
  by_cases isOver : n < runsBefore
  · rw [if_pos isOver, if_pos isOver]
    obtain ⟨psmeta, isThere, isCycles⟩ := Option.map_eq_some_iff.mp counted.cycles
    rw [outcome_bind_ok (outcome_getSchedulerMetadata isThere)]
    exact ⟨counted.size, counted.runs, congrArg (fun c => some (c + 1)) isCycles⟩
  · rw [if_neg isOver, if_neg isOver]
    exact counted

theorem updateHandicap_counts (idx : CorpusId) :
    Satisfies (Counted n runs cycles : State Input → Prop) (updateHandicap idx)
      (fun _ => Counted n runs cycles) fun _ _ => True := by
  intro state counted
  cases found : state.corpus.find idx with
  | none =>
      unfold updateHandicap
      rw [outcome_bind_error
        (outcome_getTestcase.trans (by rw [InMemoryCorpus.get_eq, found]))]
      trivial
  | some testcase =>
      cases isData : testcase.schedulerMeta with
      | none =>
          unfold updateHandicap
          rw [outcome_bind_ok (outcome_getTestcase_ok found), isData]
          trivial
      | some data =>
          rw [outcome_updateHandicap found isData]
          refine ⟨?_, counted.runs, counted.cycles⟩
          rw [InMemoryCorpus.count_eq, InMemoryCorpus.ids_modify, ← InMemoryCorpus.count_eq]
          exact counted.size

theorem next_counts (nth drawn : Nat) :
    Satisfies (Counted n runs cycles : State Input → Prop) (next nth drawn)
      (fun _ after =>
        0 < n ∧ Counted n (runsAfter runs n) (cyclesAfter n runs cycles) after)
      fun _ _ => True := by
  intro state counted
  unfold next
  rw [outcome_bind_ok outcome_get]
  dsimp only
  by_cases isEmpty : state.corpus.count = 0
  · rw [if_pos isEmpty]
    trivial
  rw [if_neg isEmpty]
  have notEmpty : 0 < n := Nat.pos_of_ne_zero (counted.size ▸ isEmpty)
  cases picks : state.corpus.nth nth with
  | none =>
      trivial
  | some s =>
      obtain ⟨wsmeta, isThere, isRuns⟩ := Option.map_eq_some_iff.mp counted.runs
      rw [outcome_bind_ok (outcome_orPanic rfl),
        outcome_bind_ok (outcome_getMetadata isThere),
        outcome_bind_ok outcome_setMetadata]
      cases chooses : choose wsmeta s drawn with
      | none =>
          trivial
      | some idx =>
          rw [outcome_bind_ok (outcome_orPanic rfl), isRuns, counted.size]
          refine
            (((updateDepth_counts runs).weaken (fun _ counted => counted)
              (fun _ _ counted => counted) fun _ _ => False.elim).bind fun _ => ?_) _
              ⟨counted.size, rfl, counted.cycles⟩
          intro middle scheduled
          rw [outcome_bind_ok outcome_setCurrent]
          refine
            ((updateHandicap_counts idx).bind fun _ => ?_) _
              ⟨scheduled.size, scheduled.runs, scheduled.cycles⟩
          exact fun _ counted => ⟨notEmpty, counted⟩

/--
Calls of `next` on a corpus of `n` entries, from new metadata, and how often the run
counter has been brought to `n` by them.
-/
inductive Selections (n : Nat) : Nat → Nat → State Input → Prop where
  | start
      {state : State Input}
      (counted : Counted n 0 0 state) :
      Selections n 0 0 state
  | selected
      {calls completed : Nat}
      {state after : State Input}
      {nth drawn : Nat}
      {idx : CorpusId}
      (before : Selections n calls completed state)
      (returned : (next nth drawn).outcome state = (.ok idx, after)) :
      Selections n (calls + 1)
        (if after.weighted.map WeightedScheduleMetadata.runsInCurrentCycle = some n then
          completed + 1
        else completed)
        after

/--
A round takes one call more than there are entries: the last one resets the counter.
After `runs` calls of the round that follows `rounds` whole ones, the counter is `runs`.
-/
structure InRound (n calls completed rounds runs : Nat) : Prop where
  entries : 0 < n
  isCalls : calls = rounds * (n + 1) + runs
  notAbove : runs ≤ n
  isCompleted : completed = if runs = n then rounds + 1 else rounds

theorem InRound.next
    {rounds : Nat}
    (inRound : InRound n calls completed rounds runs) :
    ∃ rounds,
      InRound n (calls + 1)
        (if runsAfter runs n = n then completed + 1 else completed)
        rounds (runsAfter runs n) := by
  obtain ⟨entries, isCalls, notAbove, isCompleted⟩ := inRound
  unfold runsAfter
  rcases notAbove.lt_or_eq with below | rfl
  · rw [if_neg below.ne] at isCompleted
    rw [if_neg (Nat.not_le.mpr below)]
    exact ⟨rounds, entries, by omega, below, by rw [isCompleted]⟩
  · rw [if_pos rfl] at isCompleted
    rw [if_pos (le_refl runs), if_neg entries.ne]
    refine ⟨rounds + 1, entries, ?_, Nat.zero_le _, ?_⟩
    · rw [isCalls, Nat.succ_mul]
      omega
    · rw [isCompleted, if_neg entries.ne]

theorem Selections.counted (selections : Selections n calls completed state) :
    ∃ runs,
      Counted n runs 0 state ∧
        (calls = 0 ∧ completed = 0 ∧ runs = 0 ∨
          ∃ rounds, InRound n calls completed rounds runs) := by
  induction selections with
  | start counted =>
      exact ⟨0, counted, .inl ⟨rfl, rfl, rfl⟩⟩
  | @selected calls completed _ _ _ _ _ before returned ih =>
      obtain ⟨runs, counted, progress⟩ := ih
      obtain ⟨entries, countedAfter⟩ := (next_counts _ _).of_ok counted returned
      have inRound : ∃ rounds, InRound n calls completed rounds runs := by
        rcases progress with ⟨rfl, rfl, rfl⟩ | inRound
        · refine ⟨0, entries, by rw [Nat.zero_mul], Nat.zero_le n, ?_⟩
          rw [if_neg entries.ne]
        · exact inRound
      obtain ⟨rounds, inRound⟩ := inRound
      have notAbove : ¬n < runs := Nat.not_lt.mpr inRound.notAbove
      unfold cyclesAfter at countedAfter
      rw [if_neg notAbove] at countedAfter
      refine ⟨runsAfter runs n, countedAfter, .inr ?_⟩
      simp only [countedAfter.runs, Option.some.injEq]
      exact inRound.next

theorem InRound.completed_eq_zero
    {rounds : Nat}
    (inRound : InRound n calls completed rounds runs) :
    completed = 0 ↔ calls = 0 ∨ calls < n := by
  obtain ⟨entries, isCalls, notAbove, isCompleted⟩ := inRound
  cases rounds with
  | zero =>
      rw [Nat.zero_mul, Nat.zero_add] at isCalls
      split at isCompleted <;> omega
  | succ rounds =>
      rw [Nat.succ_mul] at isCalls
      split at isCompleted <;> omega

/-- The cycle counter is the number of rounds exactly while none has been completed. -/
theorem queue_cycles_count_rounds_iff (selections : Selections n calls completed state) :
    state.schedulerMetadata.map SchedulerMetadata.queueCycles = some completed ↔
      calls = 0 ∨ calls < n := by
  obtain ⟨runs, counted, progress⟩ := selections.counted
  rw [counted.cycles, Option.some.injEq, eq_comm]
  rcases progress with ⟨rfl, rfl, -⟩ | ⟨rounds, inRound⟩
  · exact iff_of_true rfl (.inl rfl)
  · exact inRound.completed_eq_zero

theorem Selections.of_ok
    {nth drawn : Nat}
    {idx : CorpusId}
    (selections : Selections n calls completed state)
    (isOk : ((next nth drawn).outcome state).1 = .ok idx) :
    Selections n (calls + 1)
      (if ((next nth drawn).outcome state).2.weighted.map
            WeightedScheduleMetadata.runsInCurrentCycle =
          some n then
        completed + 1
      else completed)
      ((next nth drawn).outcome state).2 :=
  selections.selected (Prod.ext isOk rfl)

/-- The scheduler was told of one entry. -/
def oneEntry : State Nat :=
  ((perform uncalibrated (.add 0 (.new 7))).outcome (new .new)).2

/-- The scheduler was told of two entries. -/
def twoEntries : State Nat :=
  ((perform uncalibrated (.add 0 (.new 8))).outcome oneEntry).2

/-- A draw that keeps the first entry is a selection. -/
theorem queue_cycles_count_rounds_iff_two_entries :
    ∃ state : State Nat,
      Selections 2 1 0 state ∧
        state.schedulerMetadata.map SchedulerMetadata.queueCycles = some 0 := by
  have start : Selections 2 0 0 twoEntries :=
    .start ⟨by decide +kernel, by decide +kernel, by decide +kernel⟩
  have isOk : ((next 0 5).outcome twoEntries).1 = .ok 0 := by decide +kernel
  have selection := start.of_ok isOk
  rw [if_neg (by decide +kernel)] at selection
  exact ⟨_, selection, (queue_cycles_count_rounds_iff selection).mpr (.inr one_lt_two)⟩

/-- The only entry has had its run, which completes a round that is not counted. -/
theorem round_is_not_counted :
    ∃ state : State Nat,
      Selections 1 1 1 state ∧
        state.schedulerMetadata.map SchedulerMetadata.queueCycles = some 0 := by
  have start : Selections 1 0 0 oneEntry :=
    .start ⟨by decide +kernel, by decide +kernel, by decide +kernel⟩
  have isOk : ((next 0 5).outcome oneEntry).1 = .ok 0 := by decide +kernel
  have selection := start.of_ok isOk
  rw [if_pos (by decide +kernel)] at selection
  obtain ⟨_, counted, -⟩ := selection.counted
  exact ⟨_, selection, counted.cycles⟩

end MeFuzz.Scheduler.WeightedScheduler
