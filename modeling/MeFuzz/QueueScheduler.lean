import MeFuzz.TransitionRun
import MeFuzz.SchedulerState

namespace MeFuzz.Scheduler

open Corpus (CorpusId Error InMemoryCorpus)

/-!
# The queue scheduler

The scheduler walks the corpus in the order of the ids and starts over at its
end.  Its place in the queue is the current entry alone.  While the current
entry is not removed, an entry is not scheduled a second time before every other
one was scheduled.
-/

variable {Input : Type}

namespace QueueScheduler

/-- `QueueScheduler::next`. -/
def next : Hook Input CorpusId := do
  let state ← get
  if state.corpus.count = 0 then throw (.empty "No entries in corpus")
  else
    let id ←
      match state.corpus.current.bind state.corpus.next with
      | some id => pure id
      | none => orPanic state.corpus.first
    setCurrent (some id)
    pure id

/-- The entry after the current one, or the first where there is none. -/
def following (corpus : InMemoryCorpus (Testcase Input)) : Option CorpusId :=
  (corpus.current.bind corpus.next).or corpus.first

variable {state : State Input}

theorem outcome_next
    {id : CorpusId}
    (follows : following state.corpus = some id) :
    next.outcome state =
      (.ok id,
        { state with corpus := state.corpus.setCurrent (some id) }) := by
  have notEmpty : state.corpus.count ≠ 0 := by
    intro isEmpty
    have noIds := InMemoryCorpus.count_eq_zero.mp isEmpty
    have noNext : state.corpus.current.bind state.corpus.next = none := by
      cases state.corpus.current with
      | none =>
          rfl
      | some current =>
          exact InMemoryCorpus.next_of_absent (by simp [noIds])
    rw [following, noNext, InMemoryCorpus.first_eq, noIds] at follows
    cases follows
  rw [next, Procedure.outcome_bind_ok Procedure.outcome_get, if_neg notEmpty]
  cases stays : state.corpus.current.bind state.corpus.next with
  | some after =>
      rw [following, stays] at follows
      cases follows
      rfl
  | none =>
      rw [following, stays, Option.none_or] at follows
      simp only [follows]
      rfl

theorem outcome_next_empty
    (isEmpty : state.corpus.ids = []) :
    next.outcome state = (.error (.empty "No entries in corpus"), state) := by
  have count := InMemoryCorpus.count_eq_zero.mpr isEmpty
  rw [next, Procedure.outcome_bind_ok Procedure.outcome_get, if_pos count]
  rfl

theorem exists_following
    (notEmpty : state.corpus.ids ≠ []) :
    ∃ id, following state.corpus = some id := by
  cases stays : state.corpus.current.bind state.corpus.next with
  | some id =>
      exact ⟨id, by rw [following, stays, Option.some_or]⟩
  | none =>
      obtain ⟨first, isFirst⟩ := InMemoryCorpus.exists_first notEmpty
      exact ⟨first, by rw [following, stays, Option.none_or, isFirst]⟩

theorem following_cases
    {corpus : InMemoryCorpus (Testcase Input)}
    {current id : CorpusId}
    (isCurrent : corpus.current = some current)
    (isLive : current ∈ corpus.ids)
    (follows : following corpus = some id) :
    (id ∈ corpus.ids ∧ current < id ∧
        ∀ other ∈ corpus.ids, other ≤ current ∨ id ≤ other) ∨
      (id ∈ corpus.ids ∧ (∀ other ∈ corpus.ids, other ≤ current) ∧
        ∀ other ∈ corpus.ids, id ≤ other) := by
  obtain ⟨earlier, later, split⟩ := List.append_of_mem isLive
  have sorted := InMemoryCorpus.sorted_ids corpus
  rw [split, List.pairwise_append, List.pairwise_cons] at sorted
  obtain ⟨_, ⟨isBelow, sortedLater⟩, across⟩ := sorted
  have isNext := InMemoryCorpus.next_eq split
  rw [following, isCurrent, Option.bind_some, isNext] at follows
  cases later with
  | cons after rest =>
      left
      cases follows
      refine ⟨by simp [split], isBelow id List.mem_cons_self, ?_⟩
      intro other isOther
      rw [split, List.mem_append, List.mem_cons, List.mem_cons] at isOther
      rcases isOther with isEarlier | rfl | rfl | isLater
      · exact .inl (across other isEarlier current List.mem_cons_self).le
      · exact .inl (Nat.le_refl _)
      · exact .inr (Nat.le_refl _)
      · exact .inr ((List.pairwise_cons.mp sortedLater).1 other isLater).le
  | nil =>
      right
      rw [List.head?_nil, Option.none_or, InMemoryCorpus.first_eq] at follows
      have sortedIds := InMemoryCorpus.sorted_ids corpus
      have isHead := follows
      obtain ⟨rest, isCons⟩ := List.head?_eq_some_iff.mp isHead
      refine ⟨by simp [isCons], ?_, ?_⟩
      · intro other isOther
        rw [split, List.mem_append, List.mem_singleton] at isOther
        rcases isOther with isEarlier | rfl
        · exact (across other isEarlier current List.mem_cons_self).le
        · exact Nat.le_refl _
      · intro other isOther
        rw [isCons] at isOther sortedIds
        cases isOther with
        | head =>
            exact Nat.le_refl _
        | tail _ isLater =>
            exact ((List.pairwise_cons.mp sortedIds).1 other isLater).le

/-- What happens to a queue. -/
inductive Event (Input : Type) where
  | added (testcase : Testcase Input)
  | removed (id : CorpusId)
  | returned (id : CorpusId)

/-- Entries are added and removed while the scheduler is asked for the next. -/
inductive Step : StepRelation (State Input) (Event Input) where
  | add
      (state : State Input)
      (testcase : Testcase Input) :
      Step state (.added testcase)
        { state with corpus := (state.corpus.add testcase).2 }
  | remove
      {state : State Input}
      {id : CorpusId}
      {testcase : Testcase Input}
      {corpus : InMemoryCorpus (Testcase Input)} :
      state.corpus.remove id = .ok (testcase, corpus) →
      Step state (.removed id) { state with corpus := corpus }
  | next
      {state after : State Input}
      {id : CorpusId} :
      next.outcome state = (.ok id, after) →
      Step state (.returned id) after

/-- The current entry is not removed. -/
def KeepsCurrent
    (state : State Input) : Event Input → Prop
  | .removed id => state.corpus.current ≠ some id
  | _ => True

variable {after : State Input}

/-- What a call of `next` does. -/
theorem following_of_next
    {id : CorpusId}
    (returned : next.outcome state = (.ok id, after)) :
    following state.corpus = some id ∧
      after = { state with corpus := state.corpus.setCurrent (some id) } := by
  cases isEmpty : state.corpus.ids with
  | nil =>
      rw [outcome_next_empty isEmpty] at returned
      cases returned
  | cons first rest =>
      obtain ⟨follower, follows⟩ :=
        @exists_following Input state (by simp [isEmpty])
      rw [outcome_next follows] at returned
      cases returned
      exact ⟨follows, rfl⟩

/--
How far the queue is since an entry `id` was scheduled, for another entry
`other`.  Before the queue starts over, the entries from `id` to the current one
were scheduled; after that also those up to the current one.
-/
def Progress
    (id other : CorpusId)
    (seen : List (Event Input))
    (state : State Input) : Prop :=
  ∃ current,
    state.corpus.current = some current ∧ current ∈ state.corpus.ids ∧
      (id ≤ current ∧
          (id < other → other ≤ current → .returned other ∈ seen) ∨
        current < id ∧
          (id < other ∨ other ≤ current → .returned other ∈ seen))

variable {id other : CorpusId}
variable {seen : List (Event Input)}

variable {event : Event Input}

/-- Each event that does not schedule `id` keeps track of the progress. -/
theorem Progress.step
    (progress : Progress id other seen state)
    (isLive : id ∈ state.corpus.ids)
    (isOtherLive : other ∈ state.corpus.ids)
    (notAgain : event ≠ .returned id)
    (taken : Step.guarded KeepsCurrent state event after) :
    Progress id other (seen ++ [event]) after := by
  obtain ⟨current, isCurrent, isCurrentLive, reached⟩ := progress
  obtain ⟨keepsCurrent, taken⟩ := taken
  have later :
      id ≤ current ∧
          (id < other → other ≤ current → .returned other ∈ seen ++ [event]) ∨
        current < id ∧
          (id < other ∨ other ≤ current →
            .returned other ∈ seen ++ [event]) := by
    refine reached.imp ?_ ?_
    · exact fun ⟨above, wasSeen⟩ =>
        ⟨above, fun isAbove isBelow =>
          List.mem_append_left _ (wasSeen isAbove isBelow)⟩
    · exact fun ⟨below, wasSeen⟩ =>
        ⟨below, fun isPassed => List.mem_append_left _ (wasSeen isPassed)⟩
  cases taken with
  | add _ testcase =>
      exact ⟨current, isCurrent, by simp [isCurrentLive], later⟩
  | @remove _ removedId testcase corpus removes =>
      rw [InMemoryCorpus.remove_eq] at removes
      split at removes
      · cases removes
        refine ⟨current, isCurrent, ?_, later⟩
        have different : current ≠ removedId := by
          rintro rfl
          exact keepsCurrent isCurrent
        simp [isCurrentLive, different]
      · cases removes
  | @next _ _ nextId returned =>
      obtain ⟨follows, rfl⟩ := following_of_next returned
      have different : nextId ≠ id := fun same => notAgain (same ▸ rfl)
      have seenNow :
          other = nextId → .returned other ∈ seen ++ [.returned nextId] := by
        rintro rfl
        simp
      rcases following_cases isCurrent isCurrentLive follows with
        ⟨isNextLive, isAfter, gap⟩ | ⟨isNextLive, isLast, isFirst⟩
      · refine ⟨nextId, rfl, isNextLive, ?_⟩
        rcases later with ⟨above, wasSeen⟩ | ⟨below, wasSeen⟩
        · refine .inl ⟨above.trans isAfter.le, ?_⟩
          intro isAbove isBelow
          rcases gap other isOtherLive with passed | notYet
          · exact wasSeen isAbove passed
          · exact seenNow (Nat.le_antisymm isBelow notYet)
        · have notPast : nextId ≤ id :=
            (gap id isLive).resolve_left (Nat.not_le_of_lt below)
          refine .inr ⟨lt_of_le_of_ne notPast different, ?_⟩
          rintro (isAbove | isBelow)
          · exact wasSeen (.inl isAbove)
          · rcases gap other isOtherLive with passed | notYet
            · exact wasSeen (.inr passed)
            · exact seenNow (Nat.le_antisymm isBelow notYet)
      · refine ⟨nextId, rfl, isNextLive, .inr ?_⟩
        rcases later with ⟨above, wasSeen⟩ | ⟨below, wasSeen⟩
        · refine ⟨lt_of_le_of_ne (isFirst id isLive) different, ?_⟩
          rintro (isAbove | isBelow)
          · exact wasSeen isAbove (isLast other isOtherLive)
          · exact seenNow
              (Nat.le_antisymm isBelow (isFirst other isOtherLive))
        · exact absurd (isLast id isLive) (Nat.not_le_of_lt below)

/-- When `id` is scheduled again, every other entry was scheduled. -/
theorem Progress.again
    (progress : Progress id other seen state)
    (isOtherLive : other ∈ state.corpus.ids)
    (taken : Step state (.returned id) after) :
    other = id ∨ .returned other ∈ seen := by
  obtain ⟨current, isCurrent, isCurrentLive, reached⟩ := progress
  by_cases isId : other = id
  · exact .inl isId
  right
  cases taken with
  | next returned =>
      obtain ⟨follows, rfl⟩ := following_of_next returned
      rcases following_cases isCurrent isCurrentLive follows with
        ⟨_, isAfter, gap⟩ | ⟨_, isLast, isFirst⟩
      · rcases reached with ⟨above, _⟩ | ⟨_, wasSeen⟩
        · exact absurd isAfter (Nat.not_lt_of_le above)
        · refine wasSeen ?_
          rcases gap other isOtherLive with passed | notYet
          · exact .inr passed
          · exact .inl (lt_of_le_of_ne notYet (Ne.symm isId))
      · rcases reached with ⟨_, wasSeen⟩ | ⟨below, _⟩
        · exact wasSeen
            (lt_of_le_of_ne (isFirst other isOtherLive) (Ne.symm isId))
            (isLast other isOtherLive)
        · exact absurd (isFirst current isCurrentLive) (Nat.not_le_of_lt below)

theorem mem_of_following
    {corpus : InMemoryCorpus (Testcase Input)}
    (follows : following corpus = some id) :
    id ∈ corpus.ids := by
  rw [following, Option.or_eq_some_iff] at follows
  rcases follows with isNext | ⟨_, isFirst⟩
  · obtain ⟨current, _, isNext⟩ := Option.bind_eq_some_iff.mp isNext
    exact InMemoryCorpus.mem_of_next isNext
  · exact InMemoryCorpus.mem_of_first isFirst

theorem nextId_step
    (taken : Step state event after) :
    state.corpus.nextId ≤ after.corpus.nextId := by
  cases taken with
  | add _ testcase =>
      exact Nat.le_succ _
  | remove removes =>
      rw [InMemoryCorpus.remove_eq] at removes
      split at removes
      · cases removes
        exact Nat.le_refl _
      · cases removes
  | next returned =>
      obtain ⟨_, rfl⟩ := following_of_next returned
      exact Nat.le_refl _

theorem gone_step
    (gone : id ∉ state.corpus.ids ∧ id < state.corpus.nextId)
    (taken : Step state event after) :
    id ∉ after.corpus.ids ∧ id < after.corpus.nextId := by
  obtain ⟨absent, given⟩ := gone
  cases taken with
  | add _ testcase =>
      refine ⟨?_, given.trans (Nat.lt_succ_self _)⟩
      simp [absent, Nat.ne_of_lt given]
  | remove removes =>
      rw [InMemoryCorpus.remove_eq] at removes
      split at removes
      · cases removes
        exact ⟨by simp [absent], given⟩
      · cases removes
  | next returned =>
      obtain ⟨_, rfl⟩ := following_of_next returned
      exact ⟨absent, given⟩

/--
While no current entry is removed, every entry that is there from one time that
`id` is scheduled to the next is scheduled in between.
-/
theorem queue_fair
    {before start final : State Input}
    (first : Step before (.returned id) start)
    {interval : List (Event Input)}
    (run :
      Run (Step.guarded KeepsCurrent) start (interval ++ [.returned id]) final)
    (consecutive : .returned id ∉ interval)
    (alive :
      Run.Always (Step.guarded KeepsCurrent)
        (fun state => other ∈ state.corpus.ids) start interval) :
    other = id ∨ .returned other ∈ interval := by
  obtain ⟨last, intervalRun, _, again⟩ := run.of_snoc
  have initially :
      id ∈ start.corpus.ids ∧ Progress id other [] start := by
    cases first with
    | next returned =>
        obtain ⟨follows, rfl⟩ := following_of_next returned
        have isLive := mem_of_following follows
        refine ⟨isLive, id, rfl, isLive, .inl ⟨Nat.le_refl _, ?_⟩⟩
        exact fun isAbove isBelow => absurd isBelow (Nat.not_le_of_lt isAbove)
  have reached :
      id ∈ last.corpus.ids ∧ Progress id other interval last ∨
        id ∉ last.corpus.ids ∧ id < last.corpus.nextId := by
    refine
      @Run.history _ _ _
        (fun seen state =>
          id ∈ state.corpus.ids ∧ Progress id other seen state ∨
            id ∉ state.corpus.ids ∧ id < state.corpus.nextId)
        _ _ _ intervalRun (.inl initially) ?_
    intro seen state event after isPrefix seenRun progress taken
    have isOtherLive :=
      alive seen state ((List.prefix_append _ _).trans isPrefix) seenRun
    have notAgain : event ≠ .returned id := by
      rintro rfl
      exact consecutive (isPrefix.subset (by simp))
    rcases progress with ⟨isLive, progress⟩ | gone
    · by_cases stays : id ∈ after.corpus.ids
      · exact .inl
          ⟨stays, progress.step isLive isOtherLive notAgain taken⟩
      · have given := InMemoryCorpus.lt_nextId isLive
        refine .inr ⟨stays, given.trans_le ?_⟩
        exact nextId_step taken.2
    · exact .inr (gone_step gone taken.2)
  have isOtherLive := alive interval last (List.prefix_refl _) intervalRun
  rcases reached with ⟨_, progress⟩ | ⟨gone, _⟩
  · exact progress.again isOtherLive again
  · cases again with
    | next returned =>
        exact absurd (mem_of_following (following_of_next returned).1) gone

theorem live_until_removed
    {labels : List (Event Input)}
    (isLive : id ∈ state.corpus.ids)
    (notRemoved : .removed id ∉ labels) :
    Run.Always Step (fun state => id ∈ state.corpus.ids) state labels := by
  intro earlier after isPrefix run
  have stays : .removed id ∉ earlier := fun isRemoved =>
    notRemoved (isPrefix.subset isRemoved)
  clear isPrefix
  induction run with
  | nil _ =>
      exact isLive
  | cons taken _ ih =>
      refine ih ?_ fun isLater =>
        stays (List.mem_cons_of_mem _ isLater)
      cases taken with
      | add _ testcase =>
          simp [isLive]
      | @remove _ removedId testcase corpus removes =>
          rw [InMemoryCorpus.remove_eq] at removes
          split at removes
          · cases removes
            have different : id ≠ removedId := by
              rintro rfl
              exact stays List.mem_cons_self
            simp [isLive, different]
          · cases removes
      | next returned =>
          obtain ⟨_, rfl⟩ := following_of_next returned
          exact isLive

/-- A queue of testcases without metadata. -/
def queueOf (inputs : List Nat) : State Nat :=
  { (State.new : State Nat) with
    corpus :=
      inputs.foldl (fun corpus input => (corpus.add (.new input)).2) .new }

/-- Two entries take turns. -/
theorem queue_fair_two_entries :
    ∃ start final,
      Step (queueOf [7, 8]) (.returned 0) start ∧
        Run (Step.guarded KeepsCurrent) start ([.returned 1] ++ [.returned 0])
          final ∧
        (1 = 0 ∨ (.returned 1 : Event Nat) ∈ [.returned 1]) := by
  let start : State Nat :=
    { queueOf [7, 8] with
      corpus := (queueOf [7, 8]).corpus.setCurrent (some 0) }
  have first : Step (queueOf [7, 8]) (.returned 0) start := .next rfl
  obtain ⟨final, run⟩ :
      ∃ final,
        Run (Step.guarded KeepsCurrent) start ([.returned 1] ++ [.returned 0])
          final :=
    ⟨_, .cons ⟨trivial, .next rfl⟩ (.cons ⟨trivial, .next rfl⟩ (.nil _))⟩
  refine ⟨start, final, first, run, queue_fair first run (by simp) ?_⟩
  intro earlier after isPrefix earlierRun
  exact live_until_removed (by decide) (by simp) earlier after isPrefix
    earlierRun.unguarded

/--
When the current entry is removed the queue starts over, and the entry behind it
misses its turn.
-/
theorem removed_current_starves :
    ∃ start last final,
      Step (queueOf [7, 8, 9]) (.returned 0) start ∧
        Run Step start [.returned 1, .removed 1] last ∧
        Step last (.returned 0) final ∧
        Run.Always Step (fun state => 2 ∈ state.corpus.ids) start
          [.returned 1, .removed 1] ∧
        ¬(2 = 0 ∨ (.returned 2 : Event Nat) ∈ [.returned 1, .removed 1]) := by
  refine ⟨_, _, _, .next rfl, .cons (.next rfl) (.cons (.remove rfl) (.nil _)),
    .next rfl, live_until_removed ?_ (by simp), by simp⟩
  decide

end QueueScheduler

end MeFuzz.Scheduler
