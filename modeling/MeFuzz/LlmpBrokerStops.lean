import MeFuzz.LlmpBrokerPasses

namespace MeFuzz.Llmp.LlmpBroker

/-!
# When the loops of a broker stop

A broker can be told to quit after a number of clients have come and gone.
Both of its loops look, after every pass, whether anybody but the listeners is
left and how many clients there were so far.
-/

/-- `has_clients`. -/
def hasClients (broker : LlmpBroker) : Bool :=
  broker.listeners.length < broker.llmpClients.length

/-- Where `loop_with_timeouts` breaks, with its `exit_cleanly_after`. -/
def stopsWithTimeouts
    (broker : LlmpBroker)
    (exitCleanlyAfter : Option Nat) : Bool :=
  match exitCleanlyAfter with
  | none => false
  | some exitAfterCount =>
      !broker.hasClients &&
        broker.numClientsTotal - broker.listeners.length ≥ exitAfterCount

/-- Where `loop_forever` breaks, with its `exit_cleanly_after`. -/
def stopsForever
    (broker : LlmpBroker)
    (exitCleanlyAfter : Option Nat) : Bool :=
  match exitCleanlyAfter with
  | none => false
  | some exitAfterCount =>
      !broker.hasClients &&
        broker.numClientsTotal - broker.listeners.length > exitAfterCount

/-- How many entries belong to listener threads. -/
def listening (broker : LlmpBroker) : Nat :=
  broker.llmpClients.countP fun client => client.thread.isSome

/-- Nobody but the listeners is left. -/
def EveryoneLeft (broker : LlmpBroker) : Prop :=
  ∀ client ∈ broker.llmpClients, client.thread.isSome

/--
How many clients connect with this action.  A pass enters the clients that it
hears of before it removes anybody.
-/
def connecting (broker : LlmpBroker) : Action → Nat
  | .registerClient _ _ => 1
  | .launchListener _ _ => 0
  | .localClientHello _ _ _ => 0
  | .once receptions currentTime =>
      match onceLoop currentTime receptions 0 false broker with
      | some (passed, _) =>
          passed.llmpClients.length - broker.llmpClients.length
      | none => 0

/-- How many clients connect in a run. -/
def connected : LlmpBroker → List Action → Nat
  | _, [] => 0
  | broker, action :: rest =>
      broker.connecting action +
        match broker.step? action with
        | some next => connected next rest
        | none => 0

/-- No listener leaves, whoever else does. -/
def ListenersStay (broker : LlmpBroker) (action : Action) : Prop :=
  ∀ next, broker.step? action = some next → broker.listening ≤ next.listening

/--
Both loops stop in this state if and only if so many clients have connected and
nobody but the listeners is left.
-/
def LoopsAgree (broker : LlmpBroker) (connected n : Nat) : Prop :=
  (broker.stopsForever (some n) = true ↔
      n ≤ connected ∧ broker.EveryoneLeft) ∧
    (broker.stopsWithTimeouts (some n) = true ↔
      n ≤ connected ∧ broker.EveryoneLeft)

/-- The counters tell who has come: `connected` clients and the listeners. -/
structure Counted (broker : LlmpBroker) (connected : Nat) : Prop where
  total : broker.numClientsTotal = connected + broker.listeners.length
  listening : broker.listening = broker.listeners.length

/-- Every new client is entered at the end and counted. -/
structure Joined (broker next : LlmpBroker) : Prop where
  listeners : next.listeners = broker.listeners
  listening : next.listening = broker.listening
  longer : broker.llmpClients.length ≤ next.llmpClients.length
  counted :
    next.numClientsTotal + broker.llmpClients.length =
      broker.numClientsTotal + next.llmpClients.length

theorem Joined.refl (broker : LlmpBroker) : Joined broker broker :=
  ⟨rfl, rfl, Nat.le_refl _, rfl⟩

theorem Joined.trans
    {first second third : LlmpBroker}
    (one : Joined first second)
    (two : Joined second third) :
    Joined first third := by
  refine ⟨two.listeners.trans one.listeners,
    two.listening.trans one.listening, one.longer.trans two.longer, ?_⟩
  have oneCounted := one.counted
  have twoCounted := two.counted
  omega

variable {broker next : LlmpBroker}

/-- Only `thread` decides who listens. -/
theorem listening_of_keys
    (keys : next.keys = broker.keys) :
    next.listening = broker.listening := by
  have byKeys : ∀ broker : LlmpBroker,
      broker.listening = broker.keys.countP fun key => key.2.isSome := by
    intro broker
    rw [listening, LlmpBroker.keys, List.countP_map]
    rfl
  rw [byKeys, byKeys, keys]

theorem SameNumbers.joined
    (same : SameNumbers broker next)
    (listeners : next.listeners = broker.listeners) :
    Joined broker next := by
  have length := same.length
  refine ⟨listeners, listening_of_keys same.keys, by omega, ?_⟩
  rw [same.total, length]

theorem receive_joined
    {clientId : ClientId}
    {msg received : BrokerMsg}
    {announced : Option ClientId}
    (isReceived :
      broker.receive clientId msg = some (next, received, announced)) :
    Joined broker next := by
  unfold receive at isReceived
  split at isReceived
  · cases isReceived
  · split at isReceived
    · cases isReceived
      exact .refl _
    · split at isReceived
      · cases isReceived
      · split at isReceived
        · cases isReceived
        · cases isReceived
          exact ⟨rfl, rfl, Nat.le_refl _, rfl⟩

theorem registerAnnounced_joined
    (broker : LlmpBroker)
    (nextId : ClientId)
    (shmStr : ShMemId)
    (announced : Option ClientId)
    (now : Nat) :
    Joined broker
      (broker.registerAnnounced nextId shmStr announced now) := by
  refine ⟨rfl, ?_, ?_, ?_⟩
  · simp [listening, registerAnnounced, push]
  · simp [registerAnnounced, push]
  · simp only [registerAnnounced, push, List.length_append, List.length_cons,
      List.length_nil]
    omega

variable {result : Except BrokerError Bool}

theorem handleNewMsgsLoop_joined
    {clientId nextId : ClientId}
    {ending : Except BrokerError Unit}
    {now : Nat}
    {deliveries : List Delivery}
    {newMessages : Bool}
    (handled :
      handleNewMsgsLoop clientId ending now deliveries newMessages nextId
          broker =
        some (next, result)) :
    Joined broker next := by
  induction deliveries generalizing broker newMessages nextId with
  | nil =>
      unfold handleNewMsgsLoop at handled
      split at handled
      · cases handled
        exact .refl _
      · cases handled
        split
        · exact (touch_sameNumbers broker clientId now).joined rfl
        · exact .refl _
  | cons delivery rest ih =>
      simp only [handleNewMsgsLoop] at handled
      split at handled
      · cases handled
      · rename_i received
        have joined := receive_joined received
        split at handled
        · cases handled
          exact joined
        · split at handled
          · split at handled
            · exact joined.trans
                ((registerAnnounced_joined _ _ _ _ _).trans
                  (ih handled))
            · exact joined.trans (ih handled)
          · split at handled
            · cases handled
              exact joined
            · exact joined.trans (ih handled)

theorem onceLoop_joined
    {receptions : List Reception}
    {currentTime i : Nat}
    {newMessages : Bool}
    (looped :
      onceLoop currentTime receptions i newMessages broker =
        some (next, result)) :
    Joined broker next := by
  induction receptions generalizing broker i newMessages with
  | nil =>
      cases looped
      exact .refl _
  | cons reception rest ih =>
      simp only [onceLoop] at looped
      split at looped
      · cases looped
      · split at looped
        · cases looped
        · rename_i client _ _ middle hasMessages handled
          have checked :=
            (checkTimeout_sameNumbers middle i client.id hasMessages
              currentTime).joined (by unfold checkTimeout; dsimp only; split <;> rfl)
          exact (handleNewMsgsLoop_joined handled).trans
            (checked.trans (ih looped))
        · rename_i middle handled
          have marked :
              Joined middle
                { middle with
                  clientsToRemove := middle.clientsToRemove ++ [i] } :=
            ⟨rfl, rfl, Nat.le_refl _, rfl⟩
          exact (handleNewMsgsLoop_joined handled).trans
            (marked.trans (ih looped))
        · rename_i handled
          cases looped
          exact handleNewMsgsLoop_joined handled

theorem new_counted : new.Counted 0 where
  total := rfl
  listening := rfl

theorem once_counted
    {connected : Nat}
    {receptions : List Reception}
    {currentTime : Nat}
    (counted : broker.Counted connected)
    (stay : broker.listening ≤ next.listening)
    (passed : broker.once receptions currentTime = some (next, result)) :
    next.Counted
      (connected + broker.connecting (.once receptions currentTime)) := by
  unfold once at passed
  split at passed
  · split at passed
    · cases passed
    · rename_i looped
      cases passed
      have joined := onceLoop_joined looped
      have sum := joined.counted
      have longer := joined.longer
      have total := counted.total
      refine ⟨?_, ?_⟩
      · simp only [connecting, looped, joined.listeners]
        omega
      · rw [joined.listening, joined.listeners, counted.listening]
    · rename_i looped
      split at passed
      · cases passed
      · rename_i middle _ _ clients removed
        cases passed
        have joined := onceLoop_joined looped
        have sum := joined.counted
        have longer := joined.longer
        have total := counted.total
        have fewer : clients.countP (fun client => client.thread.isSome) ≤
            middle.listening :=
          (removeClients_sublist removed).countP_le
        refine ⟨?_, ?_⟩
        · simp only [connecting, looped, joined.listeners]
          omega
        · rw [joined.listening] at fewer
          have same := Nat.le_antisymm fewer stay
          exact same.trans
            (counted.listening.trans
              (congrArg List.length joined.listeners.symm))
  · cases passed

theorem counted_step
    {connected : Nat}
    {action : Action}
    (counted : broker.Counted connected)
    (taken : Step.guarded ListenersStay broker action next) :
    next.Counted (connected + broker.connecting action) := by
  obtain ⟨stay, step⟩ := taken
  have stays := stay next step
  have total := counted.total
  cases action with
  | registerClient clientPage now =>
      obtain ⟨⟨_, id⟩, registered, rfl⟩ := Option.map_eq_some_iff.mp step
      unfold registerClient at registered
      split at registered
      · cases registered
        refine ⟨?_, ?_⟩
        · simp only [push, connecting]
          omega
        · simpa [listening, push] using counted.listening
      · cases registered
  | launchListener tcpOutShmem now =>
      have launched : broker.launchListener tcpOutShmem now = some next := step
      simp only [launchListener] at launched
      split at launched
      · cases launched
      · rename_i registered
        cases launched
        unfold registerClient at registered
        split at registered
        · cases registered
          refine ⟨?_, ?_⟩
          · simp only [push, connecting, List.length_append,
              List.length_singleton]
            omega
          · simpa [listening, push] using counted.listening
        · cases registered
  | localClientHello listener shmStr sent =>
      have said : broker.localClientHello listener shmStr sent = some next :=
        step
      unfold localClientHello at said
      split at said
      · cases said
      · cases said
        exact ⟨counted.total, counted.listening⟩
  | once receptions currentTime =>
      obtain ⟨⟨_, result⟩, passed, rfl⟩ := Option.map_eq_some_iff.mp step
      exact once_counted counted stays passed

theorem counted_run
    {start final : LlmpBroker}
    {actions : List Action}
    {before : Nat}
    (counted : start.Counted before)
    (run : Run (Step.guarded ListenersStay) start actions final) :
    final.Counted (before + connected start actions) := by
  induction run generalizing before with
  | nil _ =>
      exact counted
  | cons taken _ ih =>
      have further := ih (counted_step counted taken)
      have step := taken.2
      rw [connected, show step? _ _ = some _ from step, ← Nat.add_assoc]
      exact further

theorem hasClients_iff
    {connected : Nat}
    {broker : LlmpBroker}
    (counted : broker.Counted connected) :
    broker.hasClients = false ↔ broker.EveryoneLeft := by
  rw [EveryoneLeft, ← List.countP_eq_length, hasClients, decide_eq_false_iff_not,
    ← counted.listening, listening]
  have fewer : broker.listening ≤ broker.llmpClients.length :=
    List.countP_le_length
  rw [listening] at fewer
  omega

/--
In every state of a run in which the listeners stay, both loops stop exactly when
`n` clients have connected and everyone has left, unless it is the moment when
everyone of exactly `n` clients has left.
-/
theorem loops_agree_iff
    {actions : List Action}
    {final : LlmpBroker}
    (run : Run (Step.guarded ListenersStay) new actions final)
    (n : Nat) :
    final.LoopsAgree (connected new actions) n ↔
      ¬(final.EveryoneLeft ∧ connected new actions = n) := by
  have counted := counted_run new_counted run
  rw [Nat.zero_add] at counted
  have left := hasClients_iff counted
  have total : final.numClientsTotal - final.listeners.length =
      connected new actions := by
    rw [counted.total, Nat.add_sub_cancel]
  simp only [LoopsAgree, stopsForever, stopsWithTimeouts, total,
    Bool.and_eq_true, Bool.not_eq_true', left, decide_eq_true_iff]
  constructor
  · rintro ⟨forever, -⟩ ⟨everyone, same⟩
    have less := (forever.mpr ⟨same.ge, everyone⟩).2
    omega
  · intro differ
    refine ⟨⟨fun stops => ⟨stops.2.le, stops.1⟩, ?_⟩,
      and_comm⟩
    rintro ⟨atMost, everyone⟩
    refine ⟨everyone, ?_⟩
    have other : connected new actions ≠ n := fun same =>
      differ ⟨everyone, same⟩
    omega

theorem guarded_of_taken
    {action : Action}
    (taken : broker.step? action = some next)
    (stay : broker.listening ≤ next.listening) :
    Step.guarded ListenersStay broker action next := by
  refine ⟨?_, taken⟩
  intro other isOther
  obtain rfl := Option.some.inj (taken.symm.trans isOther)
  exact stay

/-- Two clients come and one is still there, so that no loop stops. -/
theorem loops_agree_iff_one_is_left :
    ∃ final,
      Run (Step.guarded ListenersStay) new
          [.registerClient 1 0, .registerClient 2 0,
            .once [silent, exiting] 0] final ∧
        (final.LoopsAgree
            (connected new
              [.registerClient 1 0, .registerClient 2 0,
                .once [silent, exiting] 0]) 2 ↔
          ¬(final.EveryoneLeft ∧
            connected new
              [.registerClient 1 0, .registerClient 2 0,
                .once [silent, exiting] 0] = 2)) := by
  let one : LlmpBroker := ⟨[⟨0, 1, 0, none⟩], [], 1, [], [], []⟩
  let two : LlmpBroker :=
    ⟨[⟨0, 1, 0, none⟩, ⟨1, 2, 0, none⟩], [], 2, [], [], []⟩
  let final : LlmpBroker := { one with numClientsTotal := 2 }
  have first : step? new (.registerClient 1 0) = some one := by
    decide +kernel
  have second : step? one (.registerClient 2 0) = some two := by
    decide +kernel
  have third : step? two (.once [silent, exiting] 0) = some final := by
    decide +kernel
  have run :
      Run (Step.guarded ListenersStay) new
        [.registerClient 1 0, .registerClient 2 0, .once [silent, exiting] 0]
        final :=
    .cons (guarded_of_taken first (Nat.zero_le _))
      (.cons (guarded_of_taken second (Nat.zero_le _))
        (.single (guarded_of_taken third (Nat.zero_le _))))
  exact ⟨final, run, loops_agree_iff run 2⟩

/--
One client was expected, and one has come and gone: one loop stops, the other
goes on.
-/
theorem loop_forever_waits_for_another :
    ∃ final,
      Run (Step.guarded ListenersStay) new
          [.launchListener 1 0, .localClientHello 0 2 true,
            .once [⟨[announcement], .ok (), 0⟩] 0,
            .once [silent, exiting] 0] final ∧
        final.stopsWithTimeouts (some 1) = true ∧
        final.stopsForever (some 1) = false ∧
        ¬final.LoopsAgree
            (connected new
              [.launchListener 1 0, .localClientHello 0 2 true,
                .once [⟨[announcement], .ok (), 0⟩] 0,
                .once [silent, exiting] 0]) 1 := by
  let left : LlmpBroker :=
    ⟨[⟨0, 1, 0, some 0⟩], [0], 2, [], [⟨0, 2, []⟩], [⟨1, 1⟩]⟩
  have connectedOne :
      connected new
          [.launchListener 1 0, .localClientHello 0 2 true,
            .once [⟨[announcement], .ok (), 0⟩] 0,
            .once [silent, exiting] 0] = 1 := by
    decide +kernel
  let launched : LlmpBroker :=
    ⟨[⟨0, 1, 0, some 0⟩], [0], 1, [], [⟨0, 1, []⟩], []⟩
  let said : LlmpBroker := { launched with threads := [⟨0, 2, [⟨2, 1⟩]⟩] }
  let joined : LlmpBroker :=
    ⟨[⟨0, 1, 0, some 0⟩, ⟨1, 2, 0, none⟩], [0], 2, [], [⟨0, 2, []⟩], [⟨1, 1⟩]⟩
  have launches : step? new (.launchListener 1 0) = some launched := by
    decide +kernel
  have greeted : step? launched (.localClientHello 0 2 true) = some said := by
    decide +kernel
  have joins :
      step? said (.once [⟨[announcement], .ok (), 0⟩] 0) = some joined := by
    decide +kernel
  have leaves : step? joined (.once [silent, exiting] 0) = some left := by
    decide +kernel
  have run :
      Run (Step.guarded ListenersStay) new
        [.launchListener 1 0, .localClientHello 0 2 true,
          .once [⟨[announcement], .ok (), 0⟩] 0, .once [silent, exiting] 0]
        left :=
    .cons (guarded_of_taken launches (by decide))
      (.cons (guarded_of_taken greeted (by decide))
        (.cons (guarded_of_taken joins (by decide))
          (.single (guarded_of_taken leaves (by decide)))))
  refine ⟨left, run, by decide, by decide, ?_⟩
  rw [connectedOne]
  intro agree
  have everyone : left.EveryoneLeft := by
    intro client isClient
    obtain rfl := List.mem_singleton.mp isClient
    rfl
  cases agree.1.mpr ⟨Nat.le_refl 1, everyone⟩

end MeFuzz.Llmp.LlmpBroker
