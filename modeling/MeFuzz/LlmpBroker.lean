import MeFuzz.TransitionRun
import MeFuzz.LlmpMemory

namespace MeFuzz.Llmp

/-!
# The clients of a broker

A broker keeps a vector of clients.  Some are registered by the broker itself;
the others are announced by a listener thread, which has told them a number of
its own before the broker hears of them.  Clients leave the vector when they
exit or time out.
-/

/-- The number that `LocalClientAccepted` gave to the client with this map. -/
structure Announcement where
  shmStr : ShMemId
  clientId : ClientId
  deriving Repr, DecidableEq

/-- A listener thread, with its announcements that the broker has not read. -/
structure ListenerThread where
  llmpTcpId : ClientId
  currentClientId : ClientId
  inFlight : List Announcement
  deriving Repr, DecidableEq

/--
An entry of `llmp_clients`.  `thread` is the listener thread that writes to the
page, if one does; a time is a number of nanoseconds.
-/
structure BrokerClient where
  id : ClientId
  currentRecvShmem : ShMemId
  lastMsgTime : Nat
  thread : Option Nat
  deriving Repr, DecidableEq

/-- A client that was announced, and the identity it was registered under. -/
structure Registration where
  announced : ClientId
  registered : ClientId
  deriving Repr, DecidableEq

/--
`LlmpBroker` with its listener threads.  `registrations` records which of the
announced clients were registered so far, and is never read.
-/
structure LlmpBroker where
  llmpClients : List BrokerClient
  listeners : List ClientId
  numClientsTotal : Nat
  clientsToRemove : List Nat
  threads : List ListenerThread
  registrations : List Registration
  deriving Repr, DecidableEq

inductive BrokerError where
  | shuttingDown
  | other
  deriving Repr, DecidableEq

/-- What the broker reads of a message: its tag, and the map that it names. -/
structure BrokerMsg where
  tag : Tag
  shmStr : ShMemId
  deriving Repr, DecidableEq

/--
A message that `recv` returns, and what comes of it: whether the map that it
names can be mapped and when, and what the hook and the forwarding end with.
-/
structure Delivery where
  msg : BrokerMsg
  mapped : Bool
  now : Nat
  brokered : Except BrokerError Unit

/-- The messages of one client in one pass, and how `recv` ends after them. -/
structure Reception where
  deliveries : List Delivery
  ending : Except BrokerError Unit
  now : Nat

/-- `CLIENT_TIMEOUT`. -/
def clientTimeout : Nat := 60 * 10 ^ 9

namespace LlmpBroker

/-- `LlmpBroker::new`. -/
def new : LlmpBroker where
  llmpClients := []
  listeners := []
  numClientsTotal := 0
  clientsToRemove := []
  threads := []
  registrations := []

/-- A client is entered, and counted. -/
def push (broker : LlmpBroker) (client : BrokerClient) : LlmpBroker :=
  { broker with
    llmpClients := broker.llmpClients ++ [client]
    numClientsTotal := broker.numClientsTotal + 1 }

/-- `register_client`; `none` when the count does not fit a `ClientId`. -/
def registerClient
    (broker : LlmpBroker)
    (clientPage : ShMemId)
    (thread : Option Nat)
    (now : Nat) : Option (LlmpBroker × ClientId) :=
  if broker.numClientsTotal < 2 ^ 32 then
    let id : ClientId := .ofNat broker.numClientsTotal
    some (broker.push ⟨id, clientPage, now, thread⟩, id)
  else none

/-- `launch_listener`, with the map that it makes for its thread. -/
def launchListener
    (broker : LlmpBroker)
    (tcpOutShmem : ShMemId)
    (now : Nat) : Option LlmpBroker :=
  let llmpTcpId : ClientId := .ofNat broker.llmpClients.length
  match broker.registerClient tcpOutShmem (some broker.threads.length) now with
  | none => none
  | some (broker, listenerId) =>
      some
        { broker with
          threads :=
            broker.threads ++
              [{ llmpTcpId := llmpTcpId
                 currentClientId := llmpTcpId + 1
                 inFlight := [] }]
          listeners := broker.listeners ++ [listenerId] }

/--
`handle_tcp_request` for a `LocalClientHello`; `sent` is whether
`announce_new_client` succeeds.  The client is told the current number and the
number is used up in either case.
-/
def ListenerThread.localClientHello
    (thread : ListenerThread)
    (shmStr : ShMemId)
    (sent : Bool) : ListenerThread :=
  { thread with
    inFlight :=
      if sent then thread.inFlight ++ [⟨shmStr, thread.currentClientId⟩]
      else thread.inFlight
    currentClientId := thread.currentClientId + 1 }

/-- A client says hello to a listener thread. -/
def localClientHello
    (broker : LlmpBroker)
    (listener : Nat)
    (shmStr : ShMemId)
    (sent : Bool) : Option LlmpBroker :=
  match broker.threads[listener]? with
  | none => none
  | some thread =>
      some
        { broker with
          threads :=
            broker.threads.set listener
              (ListenerThread.localClientHello thread shmStr sent) }

/--
The message that `recv` returns for a client.  From a listener thread it is the
first announcement in flight, from anyone else it is any message.  `none` when
there is no such client, or no announcement.
-/
def receive
    (broker : LlmpBroker)
    (clientId : ClientId)
    (msg : BrokerMsg) :
    Option (LlmpBroker × BrokerMsg × Option ClientId) :=
  match broker.llmpClients.find? fun client => client.id == clientId with
  | none => none
  | some client =>
      match client.thread with
      | none => some (broker, msg, none)
      | some listener =>
          match broker.threads[listener]? with
          | none => none
          | some thread =>
              match thread.inFlight with
              | [] => none
              | first :: rest =>
                  some
                    ({ broker with
                        threads :=
                          broker.threads.set listener
                            { thread with inFlight := rest } },
                      ⟨llmpTagNewShmClient, first.shmStr⟩,
                      some first.clientId)

/-- The end of the arm for `LLMP_TAG_NEW_SHM_CLIENT`. -/
def registerAnnounced
    (broker : LlmpBroker)
    (nextId : ClientId)
    (shmStr : ShMemId)
    (announced : Option ClientId)
    (now : Nat) : LlmpBroker :=
  { broker.push ⟨nextId, shmStr, now, none⟩ with
    registrations :=
      broker.registrations ++
        announced.toList.map fun number => ⟨number, nextId⟩ }

/-- The first client with this identity has sent something. -/
def touch
    (broker : LlmpBroker)
    (clientId : ClientId)
    (now : Nat) : LlmpBroker :=
  { broker with
    llmpClients :=
      broker.llmpClients.modify
        (broker.llmpClients.findIdx fun client => client.id == clientId)
        fun client => { client with lastMsgTime := now } }

/--
The loop of `handle_new_msgs`.  The length of a payload is only checked for the
log; what the payload names is mapped all the same.
-/
def handleNewMsgsLoop
    (clientId : ClientId)
    (ending : Except BrokerError Unit)
    (now : Nat) :
    List Delivery → (newMessages : Bool) → (nextId : ClientId) →
      LlmpBroker → Option (LlmpBroker × Except BrokerError Bool)
  | [], newMessages, _, broker =>
      match ending with
      | .error error => some (broker, .error error)
      | .ok () =>
          some
            (if newMessages then broker.touch clientId now else broker,
              .ok newMessages)
  | delivery :: rest, _, nextId, broker =>
      match broker.receive clientId delivery.msg with
      | none => none
      | some (broker, msg, announced) =>
          if msg.tag = llmpSlowReceiverPanic then
            some (broker, .error .other)
          else if msg.tag = llmpTagNewShmClient then
            if delivery.mapped then
              handleNewMsgsLoop clientId ending now rest true (nextId + 1)
                (broker.registerAnnounced nextId msg.shmStr announced
                  delivery.now)
            else
              handleNewMsgsLoop clientId ending now rest true nextId broker
          else
            match delivery.brokered with
            | .error error => some (broker, .error error)
            | .ok () =>
                handleNewMsgsLoop clientId ending now rest true nextId broker

/-- `handle_new_msgs`. -/
def handleNewMsgs
    (broker : LlmpBroker)
    (clientId : ClientId)
    (reception : Reception) : Option (LlmpBroker × Except BrokerError Bool) :=
  handleNewMsgsLoop clientId reception.ending reception.now
    reception.deliveries false (.ofNat broker.llmpClients.length) broker

/-- A client that is silent, is no listener and has timed out is to go. -/
def checkTimeout
    (broker : LlmpBroker)
    (i : Nat)
    (clientId : ClientId)
    (hasMessages : Bool)
    (currentTime : Nat) : LlmpBroker :=
  let lastMsgTime :=
    (broker.llmpClients[i]?.map BrokerClient.lastMsgTime).getD 0
  if !hasMessages && !broker.listeners.contains clientId &&
      lastMsgTime < currentTime && clientTimeout < currentTime - lastMsgTime then
    { broker with clientsToRemove := broker.clientsToRemove ++ [i] }
  else broker

/-- The loop of `once` over the clients that there are when it starts. -/
def onceLoop
    (currentTime : Nat) :
    List Reception → (i : Nat) → (newMessages : Bool) →
      LlmpBroker → Option (LlmpBroker × Except BrokerError Bool)
  | [], _, newMessages, broker => some (broker, .ok newMessages)
  | reception :: rest, i, newMessages, broker =>
      match broker.llmpClients[i]? with
      | none => none
      | some client =>
          match broker.handleNewMsgs client.id reception with
          | none => none
          | some (broker, .ok hasMessages) =>
              onceLoop currentTime rest (i + 1) hasMessages
                (broker.checkTimeout i client.id hasMessages currentTime)
          | some (broker, .error .shuttingDown) =>
              onceLoop currentTime rest (i + 1) newMessages
                { broker with
                  clientsToRemove := broker.clientsToRemove ++ [i] }
          | some (broker, .error .other) => some (broker, .error .other)

/-- Remove the clients at these places, one after the other. -/
def removeClients :
    List Nat → List BrokerClient → Option (List BrokerClient)
  | [], clients => some clients
  | i :: rest, clients =>
      if i < clients.length then removeClients rest (clients.eraseIdx i)
      else none

/--
`once`, with a reception for each client.  `none` when it panics, or when the
receptions are not possible.
-/
def once
    (broker : LlmpBroker)
    (receptions : List Reception)
    (currentTime : Nat) : Option (LlmpBroker × Except BrokerError Bool) :=
  if receptions.length = broker.llmpClients.length then
    match onceLoop currentTime receptions 0 false broker with
    | none => none
    | some (broker, .error error) => some (broker, .error error)
    | some (broker, .ok newMessages) =>
        match removeClients broker.clientsToRemove.reverse
          broker.llmpClients with
        | none => none
        | some clients =>
            some
              ({ broker with llmpClients := clients, clientsToRemove := [] },
                .ok newMessages)
  else none

/-- What happens to a broker and its listener threads. -/
inductive Action where
  | registerClient (clientPage : ShMemId) (now : Nat)
  | launchListener (tcpOutShmem : ShMemId) (now : Nat)
  | localClientHello (listener : Nat) (shmStr : ShMemId) (sent : Bool)
  | once (receptions : List Reception) (currentTime : Nat)

/-- The state after one action, if it gets that far. -/
def step? (broker : LlmpBroker) : Action → Option LlmpBroker
  | .registerClient clientPage now =>
      (broker.registerClient clientPage none now).map Prod.fst
  | .launchListener tcpOutShmem now => broker.launchListener tcpOutShmem now
  | .localClientHello listener shmStr sent =>
      broker.localClientHello listener shmStr sent
  | .once receptions currentTime =>
      (broker.once receptions currentTime).map Prod.fst

/-- Actions in any order. -/
abbrev Step : StepRelation LlmpBroker Action :=
  StepRelation.ofFunction step?

end LlmpBroker

end MeFuzz.Llmp
