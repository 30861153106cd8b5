import MeFuzz.QueueScheduler

namespace MeFuzz.Scheduler

open Corpus (CorpusId Error InMemoryCorpus)
open Procedure

/-!
# The tuneable scheduler

The scheduler walks the corpus like a queue, unless the next entry has been set.
Where there is no current entry, it takes the first entry for the current one.
-/

variable {Input Value : Type}

/-- `TuneableSchedulerMetadata`. -/
structure TuneableSchedulerMetadata where
  next : Option CorpusId
  deriving Repr, DecidableEq

/-- The state of the fuzzer with the metadata of the scheduler. -/
structure TunedState (Input : Type) where
  state : State Input
  tuneable : Option TuneableSchedulerMetadata

namespace TuneableScheduler

abbrev Call (Input Value : Type) :=
  Procedure Error (TunedState Input) Value

/-- `TuneableScheduler::new`, as far as it changes the state. -/
def new (state : TunedState Input) : TunedState Input :=
  { state with tuneable := some (state.tuneable.getD ⟨none⟩) }

/-- `metadata_mut`, with what is done to the metadata. -/
def metadataMut
    (change : TuneableSchedulerMetadata → TuneableSchedulerMetadata) :
    Call Input Unit := do
  let metadata ← orPanic (← get).tuneable
  modify fun tuned => { tuned with tuneable := some (change metadata) }

/-- `set_next`. -/
def setNext (next : CorpusId) : Call Input Unit :=
  metadataMut fun metadata => { metadata with next := some next }

/-- `get_next`. -/
def getNext : Call Input (Option CorpusId) := do
  let metadata ← orPanic (← get).tuneable
  pure metadata.next

/-- `reset`. -/
def reset : Call Input Unit :=
  metadataMut fun metadata => { metadata with next := none }

/-- `get_current`. -/
def getCurrent : Call Input CorpusId := do
  let corpus := (← get).state.corpus
  match corpus.current with
  | some current => pure current
  | none => orPanic corpus.first

/-- The entry that is next in the queue. -/
def nextInQueue : Call Input CorpusId := do
  let corpus := (← get).state.corpus
  match corpus.next (← getCurrent) with
  | some next => pure next
  | none => orPanic corpus.first

/-- `next`. -/
def next : Call Input CorpusId := do
  if (← get).state.corpus.count = 0 then throw (.empty "No entries in corpus")
  else
    let id ←
      match ← getNext with
      | some next => pure next
      | none => nextInQueue
    modify fun tuned =>
      { tuned with
        state := { tuned.state with corpus := tuned.state.corpus.setCurrent (some id) } }
    pure id

/-- No next entry is set. -/
def Untuned (tuned : TunedState Input) : Prop :=
  tuned.tuneable = some ⟨none⟩

/-- What follows, if the first entry stands in for a current one. -/
def following (corpus : InMemoryCorpus (Testcase Input)) : Option CorpusId :=
  ((corpus.current.or corpus.first).bind corpus.next).or corpus.first

variable {tuned : TunedState Input}

theorem outcome_getNext
    (untuned : Untuned tuned) :
    getNext.outcome tuned = (.ok none, tuned) := by
  unfold getNext
  rw [outcome_bind_ok outcome_get, untuned]
  rfl

theorem outcome_reset
    (untuned : Untuned tuned) :
    reset.outcome tuned = (.ok (), tuned) := by
  obtain ⟨state, tuneable⟩ := tuned
  have none : tuneable = some ⟨none⟩ := untuned
  rw [none]
  rfl

theorem outcome_getCurrent
    {first : CorpusId}
    (isFirst : tuned.state.corpus.first = some first) :
    getCurrent.outcome tuned = (.ok (tuned.state.corpus.current.getD first), tuned) := by
  unfold getCurrent
  rw [outcome_bind_ok outcome_get]
  simp only
  rw [isFirst]
  cases tuned.state.corpus.current with
  | some current =>
      rfl
  | none =>
      rfl

theorem outcome_nextInQueue
    {first id : CorpusId}
    (isFirst : tuned.state.corpus.first = some first)
    (follows : following tuned.state.corpus = some id) :
    nextInQueue.outcome tuned = (.ok id, tuned) := by
  have standsIn :
      tuned.state.corpus.current.or (some first) =
        some (tuned.state.corpus.current.getD first) := by
    cases tuned.state.corpus.current with
    | some current =>
        rfl
    | none =>
        rfl
  rw [following, isFirst, standsIn, Option.bind_some] at follows
  unfold nextInQueue
  rw [outcome_bind_ok outcome_get, outcome_bind_ok (outcome_getCurrent isFirst), isFirst]
  cases isNext : tuned.state.corpus.next (tuned.state.corpus.current.getD first) with
  | some after =>
      rw [isNext, Option.some_or] at follows
      cases follows
      rfl
  | none =>
      rw [isNext, Option.none_or] at follows
      cases follows
      rfl

theorem outcome_next
    (untuned : Untuned tuned)
    {first id : CorpusId}
    (isFirst : tuned.state.corpus.first = some first)
    (follows : following tuned.state.corpus = some id) :
    next.outcome tuned =
      (.ok id,
        { tuned with
          state :=
            { tuned.state with corpus := tuned.state.corpus.setCurrent (some id) } }) := by
  have notEmpty : tuned.state.corpus.count ≠ 0 := by
    intro isEmpty
    have noIds := InMemoryCorpus.count_eq_zero.mp isEmpty
    rw [InMemoryCorpus.first_eq, noIds] at isFirst
    cases isFirst
  unfold next
  rw [outcome_bind_ok outcome_get, if_neg notEmpty, outcome_bind_ok (outcome_getNext untuned)]
  simp only
  rw [outcome_bind_ok (outcome_nextInQueue isFirst follows), outcome_bind_ok (outcome_modify _)]
  rfl

theorem outcome_next_empty
    (isEmpty : tuned.state.corpus.ids = []) :
    next.outcome tuned = (.error (.empty "No entries in corpus"), tuned) := by
  unfold next
  rw [outcome_bind_ok outcome_get, if_pos (InMemoryCorpus.count_eq_zero.mpr isEmpty)]
  rfl

theorem following_eq_iff
    (corpus : InMemoryCorpus (Testcase Input)) :
    following corpus = QueueScheduler.following corpus ↔
      (corpus.current = none → corpus.count ≤ 1) := by
  unfold following QueueScheduler.following
  cases isCurrent : corpus.current with
  | some current =>
      refine iff_of_true rfl ?_
      exact fun impossible => nomatch impossible
  | none =>
      rw [Option.none_or, Option.bind_none, Option.none_or, InMemoryCorpus.first_eq,
        InMemoryCorpus.count_eq, imp_iff_right rfl]
      cases split : corpus.ids with
      | nil =>
          exact iff_of_true rfl (Nat.zero_le 1)
      | cons first rest =>
          have isNext : corpus.next first = rest.head? :=
            @InMemoryCorpus.next_eq _ corpus _ [] rest split
          rw [List.head?_cons, Option.bind_some, isNext]
          cases rest with
          | nil =>
              exact iff_of_true rfl (Nat.le_refl 1)
          | cons second later =>
              have sorted := InMemoryCorpus.sorted_ids corpus
              rw [split, List.pairwise_cons] at sorted
              have above : first < second := sorted.1 second List.mem_cons_self
              refine iff_of_false (fun same => ?_) (fun short => ?_)
              · rw [List.head?_cons, Option.some_or, Option.some.injEq] at same
                exact Nat.ne_of_gt above same
              · simp only [List.length_cons] at short
                omega

/-- Both schedulers, each with a state of its own, and what they have answered. -/
structure Sides (Input : Type) where
  tuned : TunedState Input
  queue : State Input
  tunedAnswer : Option (Except Error CorpusId)
  queueAnswer : Option (Except Error CorpusId)

/--
What happens to both sides: a change of the state, such as an addition or a removal, by
whoever makes it, or a call.
-/
inductive Event (Input : Type) where
  | change (hook : Hook Input Unit)
  | reset
  | next

def after (sides : Sides Input) : Event Input → Sides Input
  | .change hook =>
      { tuned := { sides.tuned with state := (hook.outcome sides.tuned.state).2 }
        queue := (hook.outcome sides.queue).2
        tunedAnswer := none
        queueAnswer := none }
  | .reset =>
      { sides with
        tuned := (reset.outcome sides.tuned).2
        tunedAnswer := none
        queueAnswer := none }
  | .next =>
      { tuned := (next.outcome sides.tuned).2
        queue := (QueueScheduler.next.outcome sides.queue).2
        tunedAnswer := some (next.outcome sides.tuned).1
        queueAnswer := some (QueueScheduler.next.outcome sides.queue).1 }

def Step : StepRelation (Sides Input) (Event Input) :=
  fun sides event later => later = after sides event

/-- The answers are the same, and so are the states, with their current entries. -/
structure Agree (sides : Sides Input) : Prop where
  state : sides.tuned.state = sides.queue
  answer : sides.tunedAnswer = sides.queueAnswer

/-- So they are, and nothing has been tuned. -/
structure InStep (sides : Sides Input) : Prop extends Agree sides where
  untuned : Untuned sides.tuned

/-- A call with no current entry finds one entry at most. -/
def StartsAlike (sides : Sides Input) : Event Input → Prop
  | .change _ => True
  | .reset => True
  | .next => sides.queue.corpus.current = none → sides.queue.corpus.count ≤ 1

variable {sides : Sides Input}

theorem agree_next_iff
    (untuned : Untuned sides.tuned)
    (agree : Agree sides) :
    Untuned (after sides .next).tuned ∧
      (Agree (after sides .next) ↔ StartsAlike sides .next) := by
  by_cases isEmpty : sides.queue.corpus.ids = []
  · have tunedOutcome :
        next.outcome sides.tuned = (.error (.empty "No entries in corpus"), sides.tuned) :=
      outcome_next_empty (agree.state ▸ isEmpty)
    have queueOutcome := QueueScheduler.outcome_next_empty isEmpty
    have fewest : sides.queue.corpus.count ≤ 1 := by
      rw [InMemoryCorpus.count_eq, isEmpty]
      exact Nat.zero_le 1
    unfold after
    rw [tunedOutcome, queueOutcome]
    exact ⟨untuned, iff_of_true ⟨agree.state, rfl⟩ fun _ => fewest⟩
  · obtain ⟨first, isFirst⟩ := InMemoryCorpus.exists_first isEmpty
    obtain ⟨inQueue, queueFollows⟩ := QueueScheduler.exists_following isEmpty
    obtain ⟨inTuned, tunedFollows⟩ :
        ∃ inTuned, following sides.queue.corpus = some inTuned := by
      unfold following
      rw [isFirst]
      cases (sides.queue.corpus.current.or (some first)).bind sides.queue.corpus.next with
      | some after =>
          exact ⟨after, rfl⟩
      | none =>
          exact ⟨first, rfl⟩
    rw [← agree.state] at isFirst tunedFollows
    have tunedOutcome := outcome_next untuned isFirst tunedFollows
    rw [agree.state] at tunedFollows
    have queueOutcome := QueueScheduler.outcome_next queueFollows
    have sameEntry := following_eq_iff sides.queue.corpus
    rw [tunedFollows, queueFollows, Option.some.injEq] at sameEntry
    unfold after
    rw [tunedOutcome, queueOutcome]
    refine ⟨untuned, Iff.trans ⟨fun later => ?_, ?_⟩ sameEntry⟩
    · have answers := later.answer
      simp only [Option.some.injEq, Except.ok.injEq] at answers
      exact answers
    · rintro rfl
      exact ⟨by simp only [agree.state], rfl⟩

theorem agree_after_iff
    (untuned : Untuned sides.tuned)
    (agree : Agree sides)
    (event : Event Input) :
    Untuned (after sides event).tuned ∧
      (Agree (after sides event) ↔ StartsAlike sides event) := by
  cases event with
  | change hook =>
      refine ⟨untuned, iff_of_true ⟨?_, rfl⟩ trivial⟩
      unfold after
      rw [agree.state]
  | reset =>
      unfold after
      rw [outcome_reset untuned]
      exact ⟨untuned, iff_of_true ⟨agree.state, rfl⟩ trivial⟩
  | next =>
      exact agree_next_iff untuned agree

/-- A scheduler that is new, and a queue over the same state. -/
def start (state : State Input) : Sides Input where
  tuned := new ⟨state, none⟩
  queue := state
  tunedAnswer := none
  queueAnswer := none

/--
Without a tuning the scheduler is the queue, just as long as no call finds two entries
and none of them current.
-/
theorem untuned_is_queue_iff
    (state : State Input)
    (events : List (Event Input)) :
    Run.Always Step Agree (start state) events ↔
      Run.Everywhere Step StartsAlike (start state) events := by
  have initially : InStep (start state) :=
    ⟨⟨rfl, rfl⟩, rfl⟩
  refine Run.always_iff_everywhere_of_invariant (@InStep.toAgree Input) ?_ ?_ initially events
  · rintro sides event later inStep alike rfl
    obtain ⟨untuned, agree⟩ := agree_after_iff inStep.untuned inStep.toAgree event
    exact ⟨agree.mpr alike, untuned⟩
  · rintro sides event later inStep rfl agreeLater
    exact (agree_after_iff inStep.untuned inStep.toAgree event).2.mp agreeLater

/-- A corpus with two entries, of which none is current. -/
def twoEntries : State Nat :=
  QueueScheduler.queueOf [10, 11]

theorem first_call_skips_the_first_entry :
    ¬Run.Always Step Agree (start twoEntries) [.next] := by
  intro always
  have agree := always [.next] _ (List.prefix_refl _) (.single rfl)
  have answers := agree.answer
  exact absurd answers (by decide)

end TuneableScheduler

end MeFuzz.Scheduler
