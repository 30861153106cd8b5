import MeFuzz.SyncStage

namespace MeFuzz.Sync

open Corpus (CorpusId InMemoryCorpus)

/-!
# What reaches the broker, and how often

The cursor is right as long as the entry sent last is still in the corpus, or
nothing newer is, whenever the stage runs, and as long as a failing run fails
before it sends anything.  Then the entries up to the cursor were sent once and
the newer ones were not sent yet.
-/

variable {Testcase Input Converted : Type}
variable {canConvert : Bool}
variable {calls : Calls Testcase Input Converted}
variable {corpus : InMemoryCorpus Testcase}
variable {state : State Testcase Converted}

/-- The loop over a list of entries. -/
def sendAll
    (canConvert : Bool)
    (calls : Calls Testcase Input Converted)
    (corpus : InMemoryCorpus Testcase) :
    List CorpusId → List (CorpusId × NewTestcase Converted) × Except Error Unit
  | [] => ([], .ok ())
  | id :: rest =>
      match sendEntry canConvert calls corpus id with
      | .error error => ([], .error error)
      | .ok event =>
          let later := sendAll canConvert calls corpus rest
          (event.toList.map (fun event => (id, event)) ++ later.1, later.2)

theorem sendFrom_eq
    {before after : List CorpusId}
    {fuel : Nat}
    (split : corpus.ids = before ++ after)
    (enough : after.length ≤ fuel) :
    sendFrom canConvert calls corpus fuel after.head? =
      ((sendAll canConvert calls corpus after).1,
        some (sendAll canConvert calls corpus after).2) := by
  induction after generalizing before fuel with
  | nil =>
      simp [sendFrom, sendAll]
  | cons id rest ih =>
      obtain ⟨less, rfl⟩ : ∃ less, fuel = less + 1 :=
        ⟨fuel - 1, by simp at enough; omega⟩
      have next : corpus.next id = rest.head? := InMemoryCorpus.next_eq split
      have onwards : corpus.ids = (before ++ [id]) ++ rest := by simp [split]
      have later := ih onwards (by simpa using enough)
      rw [List.head?_cons, sendFrom, sendAll, next]
      cases sendEntry canConvert calls corpus id with
      | error error =>
          rfl
      | ok event =>
          simp only [later]

/-- An entry that can be sent. -/
def Sendable
    (canConvert : Bool)
    (calls : Calls Testcase Input Converted)
    (corpus : InMemoryCorpus Testcase)
    (id : CorpusId) : Prop :=
  ∃ event, sendEntry canConvert calls corpus id = .ok event

/-- With a converter, what a successful `fire` returns was sent. -/
theorem sent_of_sendEntry
    {id : CorpusId}
    {event : Option (NewTestcase Converted)}
    (sent : sendEntry true calls corpus id = .ok event) :
    ∃ converted, event = some converted := by
  unfold sendEntry at sent
  cases gets : corpus.get id with
  | error error =>
      simp [gets] at sent
  | ok testcase =>
      cases loads : calls.loadInput id testcase with
      | none =>
          simp [gets, loads] at sent
      | some input =>
          simp only [gets, loads, fire, not_true, if_false] at sent
          cases converts : calls.convert id input with
          | none =>
              simp [converts] at sent
          | some converted =>
              simp only [converts] at sent
              split at sent
              · exact ⟨_, (Except.ok.inj sent).symm⟩
              · cases sent

theorem sendAll_of_sendable
    {ids : List CorpusId}
    (sendable : ∀ id ∈ ids, Sendable true calls corpus id) :
    (sendAll true calls corpus ids).2 = .ok () ∧
      (sendAll true calls corpus ids).1.map Prod.fst = ids := by
  induction ids with
  | nil =>
      exact ⟨rfl, rfl⟩
  | cons id rest ih =>
      obtain ⟨event, sent⟩ := sendable id List.mem_cons_self
      obtain ⟨converted, rfl⟩ := sent_of_sendEntry sent
      obtain ⟨ends, sends⟩ :=
        ih fun other isLater =>
          sendable other (List.mem_cons_of_mem id isLater)
      simp [sendAll, sent, ends, sends]

theorem sendAll_of_not_sendable
    {id : CorpusId}
    {rest : List CorpusId}
    (fails : ¬ Sendable canConvert calls corpus id) :
    (sendAll canConvert calls corpus (id :: rest)).1 = [] ∧
      (sendAll canConvert calls corpus (id :: rest)).2 ≠ .ok () := by
  rw [sendAll]
  cases sends : sendEntry canConvert calls corpus id with
  | error error =>
      simp
  | ok event =>
      exact absurd ⟨event, sends⟩ fails

/-- The entries newer than the one sent last. -/
def State.pending (state : State Testcase Converted) : List CorpusId :=
  match state.lastId with
  | none => state.corpus.ids
  | some last => state.corpus.ids.filter fun id => last < id

theorem State.mem_pending
    {id : CorpusId} :
    id ∈ state.pending ↔
      id ∈ state.corpus.ids ∧ ∀ last, state.lastId = some last → last < id := by
  unfold pending
  cases state.lastId with
  | none =>
      simp
  | some last =>
      simp

theorem State.nodup_pending : state.pending.Nodup := by
  have sorted := InMemoryCorpus.sorted_ids state.corpus
  have nodup : state.corpus.ids.Nodup := sorted.imp Nat.ne_of_lt
  unfold pending
  cases state.lastId with
  | none =>
      exact nodup
  | some last =>
      exact nodup.filter _

/--
The entry sent last is still in the corpus, or nothing newer is.
-/
def State.Resumes (state : State Testcase Converted) : Prop :=
  ∀ last, state.lastId = some last →
    last ∈ state.corpus.ids ∨ state.pending = []

theorem filter_newer
    {before after : List CorpusId}
    {last : CorpusId}
    (split : corpus.ids = before ++ last :: after) :
    (corpus.ids.filter fun id => last < id) = after := by
  have sorted := InMemoryCorpus.sorted_ids corpus
  rw [split, List.pairwise_append, List.pairwise_cons] at sorted
  obtain ⟨_, ⟨newer, _⟩, older⟩ := sorted
  rw [split, List.filter_append, List.filter_cons]
  have none_before : (before.filter fun id => last < id) = [] := by
    rw [List.filter_eq_nil_iff]
    intro id isBefore
    have := older id isBefore last List.mem_cons_self
    simpa using this.le
  have all_after : (after.filter fun id => last < id) = after := by
    rw [List.filter_eq_self]
    intro id isAfter
    simpa using newer id isAfter
  simp [none_before, all_after]

/-- The entries the loop comes to: none where the entry sent last is gone. -/
def State.visited (state : State Testcase Converted) : List CorpusId :=
  match state.lastId with
  | none => state.corpus.ids
  | some last =>
      if last ∈ state.corpus.ids then
        state.corpus.ids.filter fun id => last < id
      else []

theorem State.visited_eq_pending (resumes : state.Resumes) :
    state.visited = state.pending := by
  cases isLast : state.lastId with
  | none =>
      rw [visited, pending, isLast]
  | some last =>
      by_cases isLive : last ∈ state.corpus.ids
      · simp [visited, pending, isLast, isLive]
      · have nothing : state.pending = [] :=
          (resumes last isLast).resolve_left isLive
        simp [visited, nothing, isLast, isLive]

theorem sendFrom_curId :
    sendFrom canConvert calls state.corpus state.corpus.count state.curId =
      ((sendAll canConvert calls state.corpus state.visited).1,
        some (sendAll canConvert calls state.corpus state.visited).2) := by
  cases isLast : state.lastId with
  | none =>
      have starts : state.curId = state.corpus.ids.head? := by
        rw [State.curId, isLast]
        rfl
      have all : state.visited = state.corpus.ids := by
        rw [State.visited, isLast]
      rw [starts, all]
      exact sendFrom_eq (List.nil_append _).symm
        (InMemoryCorpus.count_eq state.corpus).ge
  | some last =>
      have starts : state.curId = state.corpus.next last := by
        rw [State.curId, isLast]
      by_cases isLive : last ∈ state.corpus.ids
      · obtain ⟨before, after, split⟩ := List.append_of_mem isLive
        have onwards : state.corpus.ids = (before ++ [last]) ++ after := by
          simp [split]
        have newer : state.visited = after := by
          rw [State.visited, isLast]
          exact (if_pos isLive).trans (filter_newer split)
        rw [starts, newer, InMemoryCorpus.next_eq split]
        refine sendFrom_eq onwards ?_
        rw [InMemoryCorpus.count_eq, onwards]
        simp
        omega
      · have nothing : state.visited = [] := by
          rw [State.visited, isLast]
          exact if_neg isLive
        rw [starts, nothing, InMemoryCorpus.next_of_absent isLive]
        cases state.corpus.count <;> rfl

/--
The stage has a converter unless there is nothing to send, can resume, and fails,
if it does, at the first entry it tries.
-/
structure Undisturbed
    (canConvert : Bool)
    (calls : Calls Testcase Input Converted)
    (state : State Testcase Converted) : Prop where
  converts : canConvert = true ∨ state.corpus.ids = []
  resumes : state.Resumes
  failsFirst :
    (∃ id ∈ state.pending, ¬ Sendable canConvert calls state.corpus id) →
      ∃ first rest,
        state.pending = first :: rest ∧
          ¬ Sendable canConvert calls state.corpus first

/-- The state after the loop, before `process`. -/
def State.caughtUp
    (state : State Testcase Converted)
    (sent : List (CorpusId × NewTestcase Converted)) :
    State Testcase Converted :=
  { state with
    metadata := some ⟨state.corpus.last⟩
    sent := state.sent ++ sent }

theorem State.rememberLast_eq :
    state.rememberLast = some ⟨state.corpus.last⟩ := by
  unfold rememberLast lastId
  cases state.metadata with
  | none =>
      rfl
  | some metadata =>
      cases isLast : metadata.lastId with
      | none =>
          simp [isLast]
      | some last =>
          simp [isLast]

/-- An undisturbed `perform` sends everything that is pending, or nothing at all. -/
theorem perform_cases
    (undisturbed : Undisturbed true calls state) :
    (∃ sent,
        sent.map Prod.fst = state.pending ∧
          state.perform true calls =
            (state.caughtUp sent).process calls) ∨
      ∃ error, state.perform true calls = (some (.error error), state) := by
  have loop := @sendFrom_curId _ _ _ true calls state
  rw [State.visited_eq_pending undisturbed.resumes] at loop
  by_cases sendable :
      ∀ id ∈ state.pending, Sendable true calls state.corpus id
  · obtain ⟨ends, sends⟩ := sendAll_of_sendable sendable
    refine .inl ⟨_, sends, ?_⟩
    rw [State.perform, if_pos rfl, loop, ends, State.rememberLast_eq]
    rfl
  · push Not at sendable
    obtain ⟨first, rest, isPending, fails⟩ := undisturbed.failsFirst sendable
    obtain ⟨nothing, notOk⟩ := @sendAll_of_not_sendable _ _ _ _ calls _ _ rest fails
    rw [← isPending] at nothing notOk
    cases result : (sendAll true calls state.corpus state.pending).2 with
    | ok value =>
        exact absurd result notOk
    | error error =>
        refine .inr ⟨error, ?_⟩
        rw [State.perform, if_pos rfl, loop, nothing, result]
        simp

theorem perform_without_converter :
    state.perform false calls = state.process calls := by
  rw [State.perform, if_neg Bool.false_ne_true]

/-- What was sent is what the cursor shows as sent. -/
structure State.Synced (state : State Testcase Converted) : Prop where
  notYet : ∀ id ∈ state.pending, state.sentIds.count id = 0
  once :
    ∀ id ∈ state.corpus.ids, id ∉ state.pending → state.sentIds.count id = 1
  known : ∀ id ∈ state.sentIds, id < state.corpus.nextId
  behind : ∀ last, state.lastId = some last → last < state.corpus.nextId

namespace State.Synced

theorem start (corpus : InMemoryCorpus Testcase) :
    (State.start corpus : State Testcase Converted).Synced where
  notYet := by simp [State.sentIds, State.start]
  once := fun _ isId notPending => absurd isId notPending
  known := by simp [State.sentIds, State.start]
  behind := by simp [State.lastId, State.start]

theorem add
    (synced : state.Synced)
    (testcase : Testcase) :
    Synced { state with corpus := (state.corpus.add testcase).2 } where
  notYet := by
    intro id isPending
    obtain ⟨isId, newer⟩ := State.mem_pending.mp isPending
    rw [InMemoryCorpus.ids_add, List.mem_append, List.mem_singleton] at isId
    cases isId with
    | inl old =>
        exact synced.notYet id (State.mem_pending.mpr ⟨old, newer⟩)
    | inr new =>
        rw [List.count_eq_zero]
        intro wasSent
        exact absurd (synced.known id wasSent) (new ▸ lt_irrefl _)
  once := by
    intro id isId notPending
    rw [InMemoryCorpus.ids_add, List.mem_append, List.mem_singleton] at isId
    cases isId with
    | inl old =>
        refine synced.once id old fun isPending => notPending ?_
        obtain ⟨_, newer⟩ := State.mem_pending.mp isPending
        exact State.mem_pending.mpr ⟨by simp [old], newer⟩
    | inr new =>
        refine absurd (State.mem_pending.mpr ⟨by simp [new], ?_⟩) notPending
        intro last isLast
        exact new ▸ synced.behind last isLast
  known := fun id wasSent => Nat.lt_succ_of_lt (synced.known id wasSent)
  behind := fun last isLast => Nat.lt_succ_of_lt (synced.behind last isLast)

theorem remove
    (synced : state.Synced)
    (idx : CorpusId) :
    (state.remove idx).Synced := by
  unfold State.remove
  rw [InMemoryCorpus.remove_eq]
  cases state.corpus.find idx with
  | none =>
      exact synced
  | some testcase =>
      constructor
      · intro id isPending
        obtain ⟨isId, newer⟩ := State.mem_pending.mp isPending
        rw [InMemoryCorpus.ids_removed] at isId
        exact synced.notYet id
          (State.mem_pending.mpr ⟨List.mem_of_mem_filter isId, newer⟩)
      · intro id isId notPending
        rw [InMemoryCorpus.ids_removed] at isId
        refine synced.once id (List.mem_of_mem_filter isId) fun isPending => ?_
        obtain ⟨_, newer⟩ := State.mem_pending.mp isPending
        refine notPending (State.mem_pending.mpr ⟨?_, newer⟩)
        rwa [InMemoryCorpus.ids_removed]
      · exact synced.known
      · exact synced.behind

theorem pending_caughtUp
    (sent : List (CorpusId × NewTestcase Converted)) :
    (state.caughtUp sent).pending = [] := by
  rw [List.eq_nil_iff_forall_not_mem]
  intro id isPending
  obtain ⟨isId, newer⟩ := State.mem_pending.mp isPending
  obtain ⟨rest, last, split⟩ :=
    List.eq_nil_or_concat' state.corpus.ids |>.resolve_left
      (List.ne_nil_of_mem isId)
  have isLast : state.corpus.last = some last := by
    change state.corpus.ids.getLast? = some last
    rw [split, List.getLast?_concat]
  have above : last < id := newer last (by simpa [State.lastId, State.caughtUp])
  have sorted := InMemoryCorpus.sorted_ids state.corpus
  rw [split, List.pairwise_append] at sorted
  change id ∈ state.corpus.ids at isId
  rw [split, List.mem_append, List.mem_singleton] at isId
  cases isId with
  | inl earlier =>
      exact absurd (sorted.2.2 id earlier last List.mem_cons_self) above.not_gt
  | inr same =>
      exact absurd same above.ne'

theorem count_caughtUp
    {sent : List (CorpusId × NewTestcase Converted)}
    {id : CorpusId}
    (synced : state.Synced)
    (sends : sent.map Prod.fst = state.pending)
    (isId : id ∈ state.corpus.ids) :
    (state.caughtUp sent).sentIds.count id = 1 := by
  have split : (state.caughtUp sent).sentIds = state.sentIds ++ state.pending := by
    rw [State.sentIds, State.caughtUp, List.map_append, sends]
    rfl
  rw [split, List.count_append]
  by_cases isPending : id ∈ state.pending
  · rw [synced.notYet id isPending,
      List.count_eq_one_of_mem State.nodup_pending isPending]
  · rw [synced.once id isId isPending, List.count_eq_zero_of_not_mem isPending]

theorem caughtUp
    {sent : List (CorpusId × NewTestcase Converted)}
    (synced : state.Synced)
    (sends : sent.map Prod.fst = state.pending) :
    (state.caughtUp sent).Synced where
  notYet := by simp [pending_caughtUp]
  once := fun _ isId _ => synced.count_caughtUp sends isId
  known := by
    intro id wasSent
    rw [State.sentIds, State.caughtUp, List.map_append, sends,
      List.mem_append] at wasSent
    cases wasSent with
    | inl before =>
        exact synced.known id before
    | inr isPending =>
        exact InMemoryCorpus.lt_nextId (State.mem_pending.mp isPending).1
  behind := by
    intro last isLast
    have atEnd : state.corpus.ids.getLast? = some last := isLast
    exact InMemoryCorpus.lt_nextId (List.mem_of_getLast? atEnd)

theorem process
    (synced : state.Synced)
    (calls : Calls Testcase Input Converted) :
    (state.process calls).2.Synced := by
  unfold State.process
  generalize calls.received = received
  induction received generalizing state with
  | nil =>
      exact synced
  | cons testcase rest ih =>
      exact ih (synced.add testcase)

theorem perform
    (synced : state.Synced)
    (undisturbed : Undisturbed canConvert calls state) :
    (state.perform canConvert calls).2.Synced := by
  cases canConvert with
  | false =>
      rw [perform_without_converter]
      exact synced.process calls
  | true =>
      obtain ⟨sent, sends, performs⟩ | ⟨error, performs⟩ :=
        perform_cases undisturbed
      · rw [performs]
        exact (synced.caughtUp sends).process calls
      · rw [performs]
        exact synced

end State.Synced

/-- A successful `perform` from such a state leaves every entry sent once. -/
theorem State.Synced.sentExactlyOnce
    (synced : state.Synced)
    (undisturbed : Undisturbed canConvert calls state) :
    @SentExactlyOnce _ Input _ canConvert state (.perform calls) := by
  intro succeeded id isId
  cases canConvert with
  | false =>
      have noIds := undisturbed.converts.resolve_left Bool.false_ne_true
      simp [noIds] at isId
  | true =>
      obtain ⟨sent, sends, performs⟩ | ⟨error, performs⟩ :=
        perform_cases undisturbed
      · rw [performs]
        exact synced.count_caughtUp sends isId
      · rw [performs] at succeeded
        cases succeeded

/-- Additions and removals come in any order; each `perform` is undisturbed. -/
def Guard
    (canConvert : Bool)
    (state : State Testcase Converted) :
    Action Testcase Input Converted → Prop
  | .perform calls => Undisturbed canConvert calls state
  | _ => True

theorem State.Synced.act
    {action : Action Testcase Input Converted}
    (synced : state.Synced)
    (guard : Guard canConvert state action) :
    (state.act canConvert action).Synced := by
  cases action with
  | add testcase =>
      exact synced.add testcase
  | remove idx =>
      exact synced.remove idx
  | perform calls =>
      exact synced.perform guard

/--
In every run whose `perform`s can resume and fail, if at all, before they send
anything, each successful one leaves every entry of the corpus sent exactly once.
-/
theorem every_entry_is_sent_exactly_once
    {canConvert : Bool}
    {corpus : InMemoryCorpus Testcase}
    {actions : List (Action Testcase Input Converted)}
    (guarded :
      Run.Throughout (Step canConvert) (Guard canConvert) (.start corpus)
        actions) :
    Run.Throughout (Step canConvert) (SentExactlyOnce canConvert)
      (.start corpus) actions := by
  refine
    @Run.throughout_of_invariant _ _ _ _ _ State.Synced ?_ ?_ _ _
      (State.Synced.start corpus) guarded
  · intro state action synced guard
    cases action with
    | add testcase =>
        trivial
    | remove idx =>
        trivial
    | perform calls =>
        exact synced.sentExactlyOnce guard
  · intro state action next synced guard taken
    cases taken
    exact synced.act guard

/-- Every call succeeds, and nothing is received. -/
def allSucceed : Calls Unit Unit Unit where
  loadInput := fun _ input => some input
  currentTime := fun _ => 0
  convert := fun _ input => some input
  sendBuf := fun _ _ => true
  received := []
  processed := true

/-- The second entry cannot be sent. -/
def secondFails : Calls Unit Unit Unit :=
  { allSucceed with sendBuf := fun id _ => id ≠ 1 }

/-- Two entries are sent, and then one that is added later. -/
def sentInTurns : List (Action Unit Unit Unit) :=
  [.add (), .add (), .perform allSucceed, .add (), .perform allSucceed]

theorem sendable_allSucceed
    {corpus : InMemoryCorpus Unit}
    {id : CorpusId}
    (isId : id ∈ corpus.ids) :
    Sendable true allSucceed corpus id := by
  obtain ⟨testcase, found⟩ := InMemoryCorpus.mem_ids.mp isId
  unfold Sendable sendEntry
  rw [InMemoryCorpus.get_eq, found]
  exact ⟨_, rfl⟩

theorem every_entry_is_sent_exactly_once_in_turns :
    Run.Throughout (Step true) (SentExactlyOnce true)
      (.start InMemoryCorpus.new) sentInTurns := by
  refine every_entry_is_sent_exactly_once ?_
  refine Run.throughout_cons trivial fun {next} taken => ?_
  cases taken
  refine Run.throughout_cons trivial fun {next} taken => ?_
  cases taken
  refine Run.throughout_cons ⟨.inl rfl, nofun, ?_⟩ fun {next} taken => ?_
  · rintro ⟨id, isPending, fails⟩
    exact absurd (sendable_allSucceed isPending) fails
  cases taken
  refine Run.throughout_cons trivial fun {next} taken => ?_
  cases taken
  refine Run.throughout_singleton ⟨.inl rfl, ?_, ?_⟩
  · rintro last ⟨⟩
    exact .inl (by decide)
  · rintro ⟨id, isPending, fails⟩
    exact absurd (sendable_allSucceed (List.mem_of_mem_filter isPending)) fails

/--
An entry added after the one sent last was removed is never sent, and an entry
sent before a failure is sent again.
-/
theorem removal_skips_and_failure_repeats :
    (¬ Run.Throughout (Step true) (SentExactlyOnce true)
        (.start InMemoryCorpus.new)
        [.add (), .perform allSucceed, .remove 0, .add (),
          .perform allSucceed]) ∧
      ¬ Run.Throughout (Step true) (SentExactlyOnce true)
        (.start InMemoryCorpus.new)
        [.add (), .add (), .perform secondFails, .perform allSucceed] := by
  constructor
  · intro throughout
    have counts :=
      throughout [.add (), .perform allSucceed, .remove 0, .add ()] _ _
        ⟨[], rfl⟩ (Run.of_foldlM rfl) rfl 1 (by decide)
    exact absurd counts (by decide)
  · intro throughout
    have counts :=
      throughout [.add (), .add (), .perform secondFails] _ _
        ⟨[], rfl⟩ (Run.of_foldlM rfl) rfl 0 (by decide)
    exact absurd counts (by decide)

end MeFuzz.Sync
