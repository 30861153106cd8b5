import MeFuzz.LlmpBroker

namespace MeFuzz.Llmp.LlmpBroker

/-!
# The identities of a broker's clients

`register_client` numbers clients by how many there ever were, an announced
client gets the length of the vector, and the listener thread counts on its
own.  The three agree as long as nobody leaves and nothing else joins.
-/

/-- No two clients have the same identity. -/
def DistinctIds (broker : LlmpBroker) : Prop :=
  (broker.llmpClients.map BrokerClient.id).Nodup

/-- Announced clients were registered under the identity they were told. -/
def AnnouncedAsRegistered (broker : LlmpBroker) : Prop :=
  ∀ registration ∈ broker.registrations,
    registration.announced = registration.registered

/-- The broker hears of new clients in this reception. -/
def Announces (client : BrokerClient) (reception : Reception) : Prop :=
  match client.thread with
  | some _ => reception.deliveries ≠ []
  | none =>
      ∃ delivery ∈ reception.deliveries,
        delivery.msg.tag = llmpTagNewShmClient

/--
The announcements come from a listener thread whose counter is the number of
clients and of announcements in flight; all maps can be mapped; nobody has left
the broker so far; and the identities do not run out.
-/
structure Aligned
    (broker : LlmpBroker)
    (client : BrokerClient)
    (reception : Reception) : Prop where
  listener : ∃ listener thread,
    client.thread = some listener ∧
      broker.threads[listener]? = some thread ∧
      thread.currentClientId =
        .ofNat (broker.llmpClients.length + thread.inFlight.length)
  mapped : ∀ delivery ∈ reception.deliveries, delivery.mapped = true
  nobodyLeft : broker.llmpClients.length = broker.numClientsTotal
  room : broker.numClientsTotal + reception.deliveries.length ≤ 2 ^ 32

/--
Announcements reach the channel, and the broker reads them from one listener
thread at a time, in step with it.
-/
def Steady (broker : LlmpBroker) : Action → Prop
  | .registerClient _ _ => True
  | .launchListener _ _ => True
  | .localClientHello _ _ sent => sent = true
  | .once receptions _ =>
      ∀ (i : Nat) (client : BrokerClient) (reception : Reception),
        broker.llmpClients[i]? = some client →
          receptions[i]? = some reception →
            Announces client reception →
              Aligned broker client reception ∧
                ∀ (j : Nat) (otherClient : BrokerClient)
                    (otherReception : Reception),
                  broker.llmpClients[j]? = some otherClient →
                    receptions[j]? = some otherReception →
                      Announces otherClient otherReception → j = i

/-- Announcements in flight have the numbers right below the counter. -/
def NumberedUpTo (counter : ClientId) : List Announcement → Prop
  | [] => True
  | first :: rest =>
      first.clientId + .ofNat (rest.length + 1) = counter ∧
        NumberedUpTo counter rest

/-- The numbers are consistent. -/
structure Numbered (broker : LlmpBroker) : Prop where
  distinct : broker.DistinctIds
  below : ∀ client ∈ broker.llmpClients,
    client.id.toNat < broker.numClientsTotal
  total : broker.numClientsTotal ≤ 2 ^ 32
  counted : broker.llmpClients.length ≤ broker.numClientsTotal
  agreed : broker.AnnouncedAsRegistered
  threads : ∀ thread ∈ broker.threads,
    NumberedUpTo thread.currentClientId thread.inFlight

theorem NumberedUpTo.append
    {counter : ClientId}
    {inFlight : List Announcement}
    (numbered : NumberedUpTo counter inFlight)
    (shmStr : ShMemId) :
    NumberedUpTo (counter + 1) (inFlight ++ [⟨shmStr, counter⟩]) := by
  induction inFlight with
  | nil =>
      exact ⟨rfl, trivial⟩
  | cons first rest ih =>
      obtain ⟨head, tail⟩ := numbered
      refine ⟨?_, ih tail⟩
      change first.clientId +
        .ofNat ((rest ++ [(⟨shmStr, counter⟩ : Announcement)]).length + 1) = _
      rw [List.length_append, UInt32.ofNat_add, List.length_singleton,
        ← UInt32.add_assoc, head]
      rfl

theorem Numbered.push
    {broker : LlmpBroker}
    {client : BrokerClient}
    (numbered : broker.Numbered)
    (id : client.id = .ofNat broker.numClientsTotal)
    (room : broker.numClientsTotal < 2 ^ 32) :
    (broker.push client).Numbered := by
  have number : client.id.toNat = broker.numClientsTotal := by
    rw [id, UInt32.toNat_ofNat_of_lt' room]
  have fresh : client.id ∉ broker.llmpClients.map BrokerClient.id := by
    intro taken
    obtain ⟨other, isClient, same⟩ := List.mem_map.mp taken
    have less := numbered.below other isClient
    rw [same, number] at less
    exact Nat.lt_irrefl _ less
  constructor
  · rw [DistinctIds, LlmpBroker.push, List.map_append]
    refine List.nodup_append.mpr
      ⟨numbered.distinct, List.nodup_singleton _, ?_⟩
    rintro old isOld new isNew rfl
    obtain rfl : old = client.id := by simpa using isNew
    exact fresh isOld
  · intro other isClient
    rcases List.mem_append.mp isClient with isOld | isNew
    · exact Nat.lt_succ_of_lt (numbered.below other isOld)
    · obtain rfl := List.mem_singleton.mp isNew
      exact Nat.lt_succ_of_le number.le
  · exact room
  · simpa [LlmpBroker.push] using numbered.counted
  · exact numbered.agreed
  · exact numbered.threads

theorem Numbered.sublist
    {broker : LlmpBroker}
    {clients : List BrokerClient}
    (numbered : broker.Numbered)
    (fewer : clients.Sublist broker.llmpClients)
    (clientsToRemove : List Nat) :
    Numbered
      { broker with
        llmpClients := clients, clientsToRemove := clientsToRemove } where
  distinct := numbered.distinct.sublist (fewer.map BrokerClient.id)
  below := fun client isClient => numbered.below client (fewer.subset isClient)
  total := numbered.total
  counted := fewer.length_le.trans numbered.counted
  agreed := numbered.agreed
  threads := numbered.threads

theorem removeClients_sublist
    {places : List Nat}
    {clients remaining : List BrokerClient}
    (removed : removeClients places clients = some remaining) :
    remaining.Sublist clients := by
  induction places generalizing clients with
  | nil =>
      obtain rfl := Option.some.inj removed
      exact .refl _
  | cons i rest ih =>
      rw [removeClients] at removed
      split at removed
      · exact (ih removed).trans (List.eraseIdx_sublist _ _)
      · cases removed

/-- What the numbering and the routing of messages read of a client. -/
def keys (broker : LlmpBroker) : List (ClientId × Option Nat) :=
  broker.llmpClients.map fun client => (client.id, client.thread)

/-- Nothing changed but times, and who is to be removed. -/
structure SameNumbers (broker next : LlmpBroker) : Prop where
  keys : next.keys = broker.keys
  total : next.numClientsTotal = broker.numClientsTotal
  threads : next.threads = broker.threads
  registrations : next.registrations = broker.registrations

variable {broker next : LlmpBroker}

theorem SameNumbers.length
    (same : SameNumbers broker next) :
    next.llmpClients.length = broker.llmpClients.length := by
  simpa [LlmpBroker.keys] using congrArg List.length same.keys

theorem keys_map_fst (broker : LlmpBroker) :
    broker.keys.map Prod.fst = broker.llmpClients.map BrokerClient.id := by
  simp [keys]

theorem Numbered.of_same
    (numbered : broker.Numbered)
    (same : SameNumbers broker next) :
    next.Numbered := by
  have ids :
      next.llmpClients.map BrokerClient.id =
        broker.llmpClients.map BrokerClient.id := by
    rw [← keys_map_fst, same.keys, keys_map_fst]
  constructor
  · rw [DistinctIds, ids]
    exact numbered.distinct
  · intro client isClient
    have isId : client.id ∈ next.llmpClients.map BrokerClient.id :=
      List.mem_map_of_mem isClient
    rw [ids] at isId
    obtain ⟨old, isOld, sameId⟩ := List.mem_map.mp isId
    rw [← sameId, same.total]
    exact numbered.below old isOld
  · exact same.total ▸ numbered.total
  · rw [same.length, same.total]
    exact numbered.counted
  · rw [AnnouncedAsRegistered, same.registrations]
    exact numbered.agreed
  · rw [same.threads]
    exact numbered.threads

variable {client : BrokerClient}
variable {i : Nat}

theorem client_of_keys
    (keys : ∃ added, next.keys = broker.keys ++ added)
    (inRange : i < broker.llmpClients.length)
    (isClient : next.llmpClients[i]? = some client) :
    ∃ old,
      broker.llmpClients[i]? = some old ∧ old.thread = client.thread := by
  obtain ⟨added, keys⟩ := keys
  have sameKey := congrArg (fun list => list[i]?) keys
  have isOld := List.getElem?_eq_getElem inRange
  rw [List.getElem?_append_left (by simpa [LlmpBroker.keys] using inRange)]
    at sameKey
  simp only [LlmpBroker.keys, List.getElem?_map, isClient, isOld,
    Option.map_some, Option.some.injEq, Prod.mk.injEq] at sameKey
  exact ⟨_, isOld, sameKey.2.symm⟩

theorem touch_sameNumbers
    (broker : LlmpBroker)
    (clientId : ClientId)
    (now : Nat) :
    SameNumbers broker (broker.touch clientId now) := by
  refine ⟨?_, rfl, rfl, rfl⟩
  apply List.ext_getElem?
  intro i
  simp only [LlmpBroker.keys, touch, List.getElem?_map, List.getElem?_modify]
  cases broker.llmpClients[i]? with
  | none =>
      simp
  | some client =>
      split <;> simp

theorem checkTimeout_sameNumbers
    (broker : LlmpBroker)
    (i : Nat)
    (clientId : ClientId)
    (hasMessages : Bool)
    (currentTime : Nat) :
    SameNumbers broker
      (broker.checkTimeout i clientId hasMessages currentTime) := by
  unfold checkTimeout
  dsimp only
  split <;> exact ⟨rfl, rfl, rfl, rfl⟩

variable {result : Except BrokerError Bool}
variable {now : Nat}
variable {newMessages : Bool}

theorem handleNewMsgsLoop_quiet
    {clientId nextId : ClientId}
    {ending : Except BrokerError Unit}
    {deliveries : List Delivery}
    (found :
      broker.llmpClients.find? (fun client => client.id == clientId) =
        some client)
    (quiet : ¬Announces client ⟨deliveries, ending, now⟩)
    (handled :
      handleNewMsgsLoop clientId ending now deliveries newMessages nextId
          broker =
        some (next, result)) :
    SameNumbers broker next := by
  induction deliveries generalizing newMessages with
  | nil =>
      unfold handleNewMsgsLoop at handled
      split at handled
      · cases handled
        exact ⟨rfl, rfl, rfl, rfl⟩
      · cases handled
        split
        · exact touch_sameNumbers broker clientId now
        · exact ⟨rfl, rfl, rfl, rfl⟩
  | cons delivery rest ih =>
      cases fromThread : client.thread with
      | some listener =>
          simp [Announces, fromThread] at quiet
      | none =>
          simp only [Announces, fromThread, List.mem_cons, not_exists,
            not_and] at quiet ih
          have received :
              broker.receive clientId delivery.msg =
                some (broker, delivery.msg, none) := by
            simp [receive, found, fromThread]
          have other := quiet delivery (.inl rfl)
          simp only [handleNewMsgsLoop, received, if_neg other] at handled
          split at handled
          · cases handled
            exact ⟨rfl, rfl, rfl, rfl⟩
          · split at handled
            · cases handled
              exact ⟨rfl, rfl, rfl, rfl⟩
            · exact ih
                (fun later isLater => quiet later (.inr isLater)) handled

theorem Numbered.registerAnnounced
    {broker : LlmpBroker}
    (numbered : broker.Numbered)
    (allThere : broker.llmpClients.length = broker.numClientsTotal)
    (room : broker.numClientsTotal < 2 ^ 32)
    (shmStr : ShMemId)
    (now : Nat) :
    (broker.registerAnnounced (.ofNat broker.llmpClients.length) shmStr
      (some (.ofNat broker.llmpClients.length)) now).Numbered := by
  have pushed :=
    @Numbered.push broker
      ⟨.ofNat broker.llmpClients.length, shmStr, now, none⟩ numbered
      (congrArg UInt32.ofNat allThere) room
  refine ⟨pushed.distinct, pushed.below, pushed.total, pushed.counted, ?_,
    pushed.threads⟩
  intro registration isRegistered
  rcases List.mem_append.mp isRegistered with isOld | isNew
  · exact numbered.agreed registration isOld
  · simp only [Option.toList_some, List.map_cons, List.map_nil,
      List.mem_singleton] at isNew
    rw [isNew]

variable {listener : Nat}
variable {thread : ListenerThread}

theorem Numbered.takeAnnouncement
    {broker : LlmpBroker}
    {rest : List Announcement}
    (numbered : broker.Numbered)
    (tail : NumberedUpTo thread.currentClientId rest) :
    Numbered
      { broker with
        threads :=
          broker.threads.set listener { thread with inFlight := rest } } := by
  refine ⟨numbered.distinct, numbered.below, numbered.total, numbered.counted,
    numbered.agreed, ?_⟩
  intro other isThread
  rcases List.mem_or_eq_of_mem_set isThread with isOld | rfl
  · exact numbered.threads other isOld
  · exact tail

@[simp] theorem registerAnnounced_llmpClients
    (broker : LlmpBroker)
    (nextId : ClientId)
    (shmStr : ShMemId)
    (announced : Option ClientId)
    (now : Nat) :
    (broker.registerAnnounced nextId shmStr announced now).llmpClients =
      broker.llmpClients ++ [⟨nextId, shmStr, now, none⟩] :=
  rfl

@[simp] theorem registerAnnounced_numClientsTotal
    (broker : LlmpBroker)
    (nextId : ClientId)
    (shmStr : ShMemId)
    (announced : Option ClientId)
    (now : Nat) :
    (broker.registerAnnounced nextId shmStr announced now).numClientsTotal =
      broker.numClientsTotal + 1 :=
  rfl

theorem receive_announcement
    {broker : LlmpBroker}
    {clientId : ClientId}
    {first : Announcement}
    {rest : List Announcement}
    (found :
      broker.llmpClients.find? (fun client => client.id == clientId) =
        some client)
    (fromThread : client.thread = some listener)
    (isThread : broker.threads[listener]? = some thread)
    (inFlight : thread.inFlight = first :: rest)
    (msg : BrokerMsg) :
    broker.receive clientId msg =
      some
        ({ broker with
            threads :=
              broker.threads.set listener { thread with inFlight := rest } },
          ⟨llmpTagNewShmClient, first.shmStr⟩, some first.clientId) := by
  simp [receive, found, fromThread, isThread, inFlight]

/-- Reading announcements in step with the listener keeps the numbering. -/
theorem handleNewMsgsLoop_aligned
    {clientId : ClientId}
    {ending : Except BrokerError Unit}
    {deliveries : List Delivery}
    (numbered : broker.Numbered)
    (found :
      broker.llmpClients.find? (fun client => client.id == clientId) =
        some client)
    (fromThread : client.thread = some listener)
    (isThread : broker.threads[listener]? = some thread)
    (counter :
      thread.currentClientId =
        .ofNat (broker.llmpClients.length + thread.inFlight.length))
    (mapped : ∀ delivery ∈ deliveries, delivery.mapped = true)
    (allThere : broker.llmpClients.length = broker.numClientsTotal)
    (room : broker.numClientsTotal + deliveries.length ≤ 2 ^ 32)
    (handled :
      handleNewMsgsLoop clientId ending now deliveries newMessages
          (.ofNat broker.llmpClients.length) broker =
        some (next, result)) :
    next.Numbered ∧ ∃ added, next.keys = broker.keys ++ added := by
  induction deliveries generalizing broker thread newMessages with
  | nil =>
      have same : SameNumbers broker next := by
        unfold handleNewMsgsLoop at handled
        split at handled
        · cases handled
          exact ⟨rfl, rfl, rfl, rfl⟩
        · cases handled
          split
          · exact touch_sameNumbers broker clientId now
          · exact ⟨rfl, rfl, rfl, rfl⟩
      exact ⟨numbered.of_same same, [], by rw [same.keys, List.append_nil]⟩
  | cons delivery rest ih =>
      cases inFlight : thread.inFlight with
      | nil =>
          simp [handleNewMsgsLoop, receive, found, fromThread, isThread,
            inFlight] at handled
      | cons first later =>
          let taken : LlmpBroker :=
            { broker with
              threads :=
                broker.threads.set listener { thread with inFlight := later } }
          have numberedThread :=
            numbered.threads thread (List.mem_of_getElem? isThread)
          rw [inFlight] at numberedThread counter
          rw [List.length_cons] at counter room
          have told : first.clientId = .ofNat broker.llmpClients.length := by
            have sameSum := numberedThread.1.trans counter
            rw [UInt32.ofNat_add _ (later.length + 1)] at sameSum
            exact (UInt32.add_left_inj _).mp sameSum
          have received :=
            receive_announcement found fromThread isThread inFlight
              delivery.msg
          rw [told] at received
          have notPanic : llmpTagNewShmClient ≠ llmpSlowReceiverPanic := by
            decide
          have nextId :
              (.ofNat broker.llmpClients.length + 1 : ClientId) =
                .ofNat (broker.llmpClients.length + 1) :=
            (UInt32.ofNat_add _ _).symm
          simp only [handleNewMsgsLoop, received, if_neg notPanic, if_true,
            mapped delivery List.mem_cons_self, nextId] at handled
          have roomHere : broker.numClientsTotal < 2 ^ 32 := by
            omega
          have numberedTaken : taken.Numbered :=
            numbered.takeAnnouncement numberedThread.2
          obtain ⟨numberedNext, added, keys⟩ :=
            ih
              (numberedTaken.registerAnnounced allThere roomHere first.shmStr
                delivery.now)
              (by simp [List.find?_append, taken, found])
              (List.getElem?_set_self (List.getElem?_eq_some_iff.mp isThread).1)
              (by
                rw [counter, registerAnnounced_llmpClients, List.length_append,
                  List.length_singleton, Nat.add_assoc, Nat.add_comm 1])
              (fun other isLater =>
                mapped other (List.mem_cons_of_mem _ isLater))
              (by simp [taken, allThere])
              (by
                rw [registerAnnounced_numClientsTotal, Nat.add_assoc,
                  Nat.add_comm 1]
                exact room)
              (by
                rw [registerAnnounced_llmpClients, List.length_append]
                exact handled)
          refine ⟨numberedNext,
            (.ofNat broker.llmpClients.length, none) :: added, ?_⟩
          rw [keys]
          simp [LlmpBroker.keys, taken]

/-- `Steady` for the clients from one place on. -/
def SteadyFrom
    (broker : LlmpBroker)
    (i : Nat)
    (receptions : List Reception) : Prop :=
  ∀ (j : Nat) (client : BrokerClient) (reception : Reception),
    broker.llmpClients[i + j]? = some client →
      receptions[j]? = some reception →
        Announces client reception →
          Aligned broker client reception ∧
            ∀ (k : Nat) (otherClient : BrokerClient)
                (otherReception : Reception),
              broker.llmpClients[i + k]? = some otherClient →
                receptions[k]? = some otherReception →
                  Announces otherClient otherReception → k = j

theorem announces_congr
    {client other : BrokerClient}
    (same : client.thread = other.thread)
    (reception : Reception) :
    Announces client reception ↔ Announces other reception := by
  rw [Announces, Announces, same]

variable {reception : Reception}

theorem Aligned.of_same
    {client other : BrokerClient}
    (aligned : Aligned broker client reception)
    (sameThread : client.thread = other.thread)
    (length : next.llmpClients.length = broker.llmpClients.length)
    (total : next.numClientsTotal = broker.numClientsTotal)
    (threads : next.threads = broker.threads) :
    Aligned next other reception := by
  obtain ⟨⟨listener, thread, fromThread, isThread, counter⟩, mapped, allThere,
    room⟩ := aligned
  refine ⟨⟨listener, thread, sameThread ▸ fromThread, ?_, ?_⟩, mapped, ?_, ?_⟩
  · rw [threads, isThread]
  · rw [length, counter]
  · rw [length, total, allThere]
  · rw [total]
    exact room

variable {rest : List Reception}

theorem SteadyFrom.of_same
    (steady : SteadyFrom broker i (reception :: rest))
    (inRange : i + (rest.length + 1) ≤ broker.llmpClients.length)
    (same : SameNumbers broker next) :
    SteadyFrom next (i + 1) rest := by
  have before :
      ∀ (j : Nat) (client : BrokerClient) (other : Reception),
        next.llmpClients[i + 1 + j]? = some client →
          rest[j]? = some other →
            ∃ old,
              broker.llmpClients[i + (j + 1)]? = some old ∧
                old.thread = client.thread := by
    intro j client other isClient isReception
    have less := (List.getElem?_eq_some_iff.mp isReception).1
    rw [Nat.add_assoc, Nat.add_comm 1] at isClient
    exact client_of_keys ⟨[], by rw [same.keys, List.append_nil]⟩ (by omega)
      isClient
  intro j client other isClient isReception announces
  obtain ⟨old, isOld, sameThread⟩ :=
    before j client other isClient isReception
  obtain ⟨aligned, only⟩ :=
    steady (j + 1) old other isOld isReception
      ((announces_congr sameThread other).mpr announces)
  refine ⟨aligned.of_same sameThread same.length same.total same.threads, ?_⟩
  intro k otherClient otherReception isOther isOtherReception otherAnnounces
  obtain ⟨otherOld, isOtherOld, sameOther⟩ :=
    before k otherClient otherReception isOther isOtherReception
  exact Nat.succ.inj
    (only (k + 1) otherOld otherReception isOtherOld isOtherReception
      ((announces_congr sameOther _).mpr otherAnnounces))

theorem SteadyFrom.of_announced
    (steady : SteadyFrom broker i (reception :: rest))
    (inRange : i + (rest.length + 1) ≤ broker.llmpClients.length)
    (isClient : broker.llmpClients[i]? = some client)
    (announces : Announces client reception)
    (keys : ∃ added, next.keys = broker.keys ++ added) :
    SteadyFrom next (i + 1) rest := by
  intro j other otherReception isOther isReception otherAnnounces
  have less := (List.getElem?_eq_some_iff.mp isReception).1
  rw [Nat.add_assoc, Nat.add_comm 1] at isOther
  obtain ⟨old, isOld, sameThread⟩ :=
    client_of_keys keys (by omega) isOther
  have sameIndex :=
    (steady 0 client reception isClient rfl announces).2 (j + 1) old
      otherReception isOld isReception
      ((announces_congr sameThread _).mpr otherAnnounces)
  cases sameIndex

theorem find_of_distinct
    {clients : List BrokerClient}
    (distinct : (clients.map BrokerClient.id).Nodup)
    (isClient : clients[i]? = some client) :
    clients.find? (fun other => other.id == client.id) = some client := by
  induction clients generalizing i with
  | nil =>
      simp at isClient
  | cons head tail ih =>
      rw [List.map_cons, List.nodup_cons] at distinct
      cases i with
      | zero =>
          obtain rfl : head = client := by simpa using isClient
          simp
      | succ i =>
          have inTail : client ∈ tail :=
            List.mem_of_getElem? (by simpa using isClient)
          have differ : (head.id == client.id) = false := by
            rw [beq_eq_false_iff_ne]
            intro same
            exact distinct.1 (same ▸ List.mem_map_of_mem inTail)
          simp only [List.find?_cons, differ]
          exact ih distinct.2 (by simpa using isClient)

theorem handleNewMsgs_steady
    (numbered : broker.Numbered)
    (steady : SteadyFrom broker i (reception :: rest))
    (inRange : i + (rest.length + 1) ≤ broker.llmpClients.length)
    (isClient : broker.llmpClients[i]? = some client)
    (handled : broker.handleNewMsgs client.id reception = some (next, result)) :
    next.Numbered ∧ SteadyFrom next (i + 1) rest ∧
      i + 1 + rest.length ≤ next.llmpClients.length := by
  have found := find_of_distinct numbered.distinct isClient
  by_cases announces : Announces client reception
  · obtain ⟨⟨⟨listener, thread, fromThread, isThread, counter⟩, mapped,
      allThere, room⟩, -⟩ := steady 0 client reception isClient rfl announces
    obtain ⟨numberedNext, added, keys⟩ :=
      handleNewMsgsLoop_aligned numbered found fromThread isThread counter
        mapped allThere room handled
    have length := congrArg List.length keys
    simp only [LlmpBroker.keys, List.length_append, List.length_map] at length
    exact ⟨numberedNext,
      steady.of_announced inRange isClient announces ⟨added, keys⟩, by omega⟩
  · have same := handleNewMsgsLoop_quiet found announces handled
    have length := same.length
    exact ⟨numbered.of_same same, steady.of_same inRange same, by omega⟩

theorem SteadyFrom.mark
    (steady : SteadyFrom broker i rest)
    (clients : next.llmpClients = broker.llmpClients)
    (total : next.numClientsTotal = broker.numClientsTotal)
    (threads : next.threads = broker.threads) :
    SteadyFrom next i rest := by
  intro j client reception isClient isReception announces
  rw [clients] at isClient
  obtain ⟨aligned, only⟩ :=
    steady j client reception isClient isReception announces
  rw [clients]
  exact ⟨aligned.of_same rfl (congrArg List.length clients) total threads,
    only⟩

/-- The loop of `once` keeps the numbering. -/
theorem onceLoop_numbered
    {currentTime i : Nat}
    {receptions : List Reception}
    (numbered : broker.Numbered)
    (steady : SteadyFrom broker i receptions)
    (inRange : i + receptions.length ≤ broker.llmpClients.length)
    (taken :
      onceLoop currentTime receptions i newMessages broker =
        some (next, result)) :
    next.Numbered := by
  induction receptions generalizing i newMessages broker with
  | nil =>
      cases taken
      exact numbered
  | cons reception rest ih =>
      rw [List.length_cons] at inRange
      simp only [onceLoop] at taken
      split at taken
      · cases taken
      · rename_i client isClient
        split at taken
        · cases taken
        · rename_i handledBroker hasMessages handled
          obtain ⟨numberedNext, steadyNext, inRangeNext⟩ :=
            handleNewMsgs_steady numbered steady inRange isClient handled
          have marked :=
            checkTimeout_sameNumbers handledBroker i client.id hasMessages
              currentTime
          refine ih (numberedNext.of_same marked) ?_ ?_ taken
          · refine steadyNext.mark ?_ marked.total marked.threads
            unfold checkTimeout
            dsimp only
            split <;> rfl
          · rw [marked.length]
            exact inRangeNext
        · rename_i handledBroker handled
          obtain ⟨numberedNext, steadyNext, inRangeNext⟩ :=
            handleNewMsgs_steady numbered steady inRange isClient handled
          have marked :=
            numberedNext.sublist (.refl _) (handledBroker.clientsToRemove ++ [i])
          exact ih marked (steadyNext.mark rfl rfl rfl)
            inRangeNext taken
        · rename_i handled
          cases taken
          exact (handleNewMsgs_steady numbered steady inRange isClient
            handled).1

theorem once_numbered
    {receptions : List Reception}
    {currentTime : Nat}
    (numbered : broker.Numbered)
    (steady : broker.Steady (.once receptions currentTime))
    (taken : broker.once receptions currentTime = some (next, result)) :
    next.Numbered := by
  have steadyFrom : SteadyFrom broker 0 receptions := by
    simpa only [SteadyFrom, Nat.zero_add, Steady] using steady
  unfold once at taken
  split at taken
  · rename_i lengths
    split at taken
    · cases taken
    · rename_i looped
      cases taken
      exact onceLoop_numbered numbered steadyFrom (by omega) looped
    · rename_i looped
      split at taken
      · cases taken
      · rename_i removed
        cases taken
        exact
          (onceLoop_numbered numbered steadyFrom (by omega) looped).sublist
            (removeClients_sublist removed) []
  · cases taken

theorem new_numbered : new.Numbered where
  distinct := List.nodup_nil
  below := fun _ isClient => by cases isClient
  total := Nat.zero_le _
  counted := Nat.le_refl _
  agreed := fun _ isRegistration => by cases isRegistration
  threads := fun _ isThread => by cases isThread

/-- `register_client` never takes a number twice. -/
theorem registerClient_numbered
    {clientPage : ShMemId}
    {thread : Option Nat}
    {id : ClientId}
    (numbered : broker.Numbered)
    (registered :
      broker.registerClient clientPage thread now = some (next, id)) :
    next.Numbered := by
  unfold registerClient at registered
  split at registered
  · rename_i room
    cases registered
    exact numbered.push rfl room
  · cases registered

theorem numbered_step
    {action : Action}
    (numbered : broker.Numbered)
    (taken : Step.guarded Steady broker action next) :
    next.Numbered := by
  obtain ⟨steady, step⟩ := taken
  cases action with
  | registerClient clientPage now =>
      obtain ⟨⟨_, id⟩, registered, rfl⟩ := Option.map_eq_some_iff.mp step
      exact registerClient_numbered numbered registered
  | launchListener tcpOutShmem now =>
      have launched : broker.launchListener tcpOutShmem now = some next := step
      simp only [launchListener] at launched
      split at launched
      · cases launched
      · rename_i registered
        cases launched
        have before := registerClient_numbered numbered registered
        refine ⟨before.distinct, before.below, before.total, before.counted,
          before.agreed, ?_⟩
        intro thread isThread
        rcases List.mem_append.mp isThread with isOld | isNew
        · exact before.threads thread isOld
        · obtain rfl := List.mem_singleton.mp isNew
          trivial
  | localClientHello listener shmStr sent =>
      have said : broker.localClientHello listener shmStr sent = some next :=
        step
      have reaches : sent = true := steady
      subst reaches
      unfold localClientHello at said
      split at said
      · cases said
      · rename_i thread isThread
        cases said
        refine ⟨numbered.distinct, numbered.below, numbered.total,
          numbered.counted, numbered.agreed, ?_⟩
        intro other isOther
        rcases List.mem_or_eq_of_mem_set isOther with isOld | rfl
        · exact numbered.threads other isOld
        · exact (numbered.threads thread
            (List.mem_of_getElem? isThread)).append shmStr
  | once receptions currentTime =>
      obtain ⟨⟨_, result⟩, passed, rfl⟩ := Option.map_eq_some_iff.mp step
      exact once_numbered numbered steady passed

/--
In every run whose steps are steady, the clients of the broker have distinct
identities, and those that were announced have the identity they were told.
-/
theorem ids_unique
    {actions : List Action}
    {final : LlmpBroker}
    (run : Run (Step.guarded Steady) new actions final) :
    final.DistinctIds ∧ final.AnnouncedAsRegistered := by
  have numbered : final.Numbered :=
    @Run.invariant _ _ _ Numbered numbered_step _ _ _ run new_numbered
  exact ⟨numbered.distinct, numbered.agreed⟩

/-- A message of the listener whose map can be mapped. -/
def announcement : Delivery :=
  ⟨⟨llmpTagNewShmClient, 0⟩, true, 0, .ok ()⟩

/-- A client that sends nothing. -/
def silent : Reception :=
  ⟨[], .ok (), 0⟩

/-- Both announcements of a listener are read in one pass. -/
def twoAnnounced : Reception :=
  ⟨[announcement, announcement], .ok (), 0⟩

theorem ids_unique_two_clients :
    ∃ final,
      Run (Step.guarded Steady) new
          [.launchListener 1 0, .localClientHello 0 2 true, .localClientHello 0 3 true,
            .once [twoAnnounced] 0] final ∧
        final.registrations = [⟨1, 1⟩, ⟨2, 2⟩] ∧
        (final.DistinctIds ∧ final.AnnouncedAsRegistered) := by
  let launched : LlmpBroker :=
    ⟨[⟨0, 1, 0, some 0⟩], [0], 1, [], [⟨0, 1, []⟩], []⟩
  let said : LlmpBroker := { launched with threads := [⟨0, 2, [⟨2, 1⟩]⟩] }
  let saidAgain : LlmpBroker := { launched with threads := [⟨0, 3, [⟨2, 1⟩, ⟨3, 2⟩]⟩] }
  let joined : LlmpBroker :=
    ⟨[⟨0, 1, 0, some 0⟩, ⟨1, 2, 0, none⟩, ⟨2, 3, 0, none⟩], [0], 3, [], [⟨0, 3, []⟩],
      [⟨1, 1⟩, ⟨2, 2⟩]⟩
  have launches : step? new (.launchListener 1 0) = some launched := by
    decide +kernel
  have greeted : step? launched (.localClientHello 0 2 true) = some said := by
    decide +kernel
  have greetedAgain : step? said (.localClientHello 0 3 true) = some saidAgain := by
    decide +kernel
  have joins : step? saidAgain (.once [twoAnnounced] 0) = some joined := by
    decide +kernel
  have steady : saidAgain.Steady (.once [twoAnnounced] 0) := by
    have first :
        ∀ (i : Nat) (reception : Reception),
          [twoAnnounced][i]? = some reception → i = 0 := by
      intro i reception isReception
      simpa using (List.getElem?_eq_some_iff.mp isReception).1
    intro i client reception isClient isReception _
    obtain rfl := first i reception isReception
    obtain rfl := Option.some.inj isClient
    obtain rfl := Option.some.inj isReception
    refine ⟨⟨⟨0, ⟨0, 3, [⟨2, 1⟩, ⟨3, 2⟩]⟩, rfl, rfl, rfl⟩, ?_, rfl, by decide⟩, ?_⟩
    · simp [twoAnnounced, announcement]
    · intro j _ otherReception _ isOther _
      exact first j otherReception isOther
  have run :
      Run (Step.guarded Steady) new
        [.launchListener 1 0, .localClientHello 0 2 true, .localClientHello 0 3 true,
          .once [twoAnnounced] 0] joined :=
    .cons ⟨trivial, launches⟩
      (.cons ⟨rfl, greeted⟩ (.cons ⟨rfl, greetedAgain⟩ (.single ⟨steady, joins⟩)))
  exact ⟨joined, run, rfl, ids_unique run⟩

/--
A client that connects after another one has left gets the identity of a third.
And where the broker has connected to a master meanwhile, the first client is
registered under another identity than it was told.
-/
theorem left_client_makes_identity_shared :
    (∃ final,
        Run Step new
            [.launchListener 1 0, .localClientHello 0 2 true,
              .localClientHello 0 3 true,
              .once [⟨[announcement, announcement], .ok (), 0⟩] 0,
              .once [silent, ⟨[], .error .shuttingDown, 0⟩, silent] 0,
              .localClientHello 0 4 true,
              .once [⟨[announcement], .ok (), 0⟩, silent] 0] final ∧
          final.llmpClients.map BrokerClient.id = [0, 2, 2] ∧
          final.registrations = [⟨1, 1⟩, ⟨2, 2⟩, ⟨3, 2⟩] ∧
          ¬final.DistinctIds ∧ ¬final.AnnouncedAsRegistered) ∧
      ∃ final,
        Run Step new
            [.launchListener 1 0, .registerClient 9 0,
              .localClientHello 0 2 true,
              .once [⟨[announcement], .ok (), 0⟩, silent] 0] final ∧
          final.registrations = [⟨1, 2⟩] ∧
          ¬final.AnnouncedAsRegistered := by
  constructor
  · have computed :
        ([.launchListener 1 0, .localClientHello 0 2 true,
            .localClientHello 0 3 true,
            .once [⟨[announcement, announcement], .ok (), 0⟩] 0,
            .once [silent, ⟨[], .error .shuttingDown, 0⟩, silent] 0,
            .localClientHello 0 4 true,
            .once [⟨[announcement], .ok (), 0⟩, silent] 0].foldlM step?
          new).map
            (fun final =>
              (final.llmpClients.map BrokerClient.id, final.registrations)) =
          some ([0, 2, 2], [⟨1, 1⟩, ⟨2, 2⟩, ⟨3, 2⟩]) := by
      decide +kernel
    obtain ⟨final, reached, facts⟩ := Option.map_eq_some_iff.mp computed
    obtain ⟨ids, registrations⟩ := Prod.mk.inj facts
    refine ⟨final, Run.of_foldlM reached, ids, registrations, ?_, ?_⟩
    · rw [DistinctIds, ids]
      decide
    · rw [AnnouncedAsRegistered, registrations]
      decide
  · have computed :
        ([.launchListener 1 0, .registerClient 9 0,
            .localClientHello 0 2 true,
            .once [⟨[announcement], .ok (), 0⟩, silent] 0].foldlM step?
          new).map (fun final => final.registrations) =
          some [⟨1, 2⟩] := by
      decide +kernel
    obtain ⟨final, reached, registrations⟩ :=
      Option.map_eq_some_iff.mp computed
    refine ⟨final, Run.of_foldlM reached, registrations, ?_⟩
    rw [AnnouncedAsRegistered, registrations]
    decide

end MeFuzz.Llmp.LlmpBroker
