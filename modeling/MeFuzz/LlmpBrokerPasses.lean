import MeFuzz.IndexedRemoval
import MeFuzz.LlmpBrokerIds

namespace MeFuzz.Llmp

open IndexedRemoval

/-!
# What one pass of a broker reports and removes

`once` goes through the clients, notes the places of those that are to go, and
removes them at the end.  An entry of `llmp_clients` is taken out whole, with
the place up to which its receiver has read.
-/

/-- An `EXITING` message follows the messages of this reception. -/
def Reception.exits (reception : Reception) : Bool :=
  match reception.ending with
  | .error .shuttingDown => true
  | _ => false

/-- The broker gets a new message. -/
def Reception.hasMessages (reception : Reception) : Bool :=
  !reception.deliveries.isEmpty

/-- The hook is called with this message, or it is forwarded, and that shuts down. -/
def Delivery.shutsDown (delivery : Delivery) : Bool :=
  delivery.msg.tag != llmpSlowReceiverPanic &&
    delivery.msg.tag != llmpTagNewShmClient &&
      match delivery.brokered with
      | .error .shuttingDown => true
      | _ => false

namespace LlmpBroker

/-- The place of the client whose page is read for this identity. -/
def placeOf (broker : LlmpBroker) (clientId : ClientId) : Nat :=
  broker.llmpClients.findIdx fun client => client.id == clientId

/-- The client at this place has been silent for too long. -/
def timedOut
    (broker : LlmpBroker)
    (receptions : List Reception)
    (currentTime : Nat)
    (i : Nat) : Bool :=
  match broker.llmpClients[i]?, receptions[i]? with
  | some client, some reception =>
      !reception.hasMessages && !reception.exits &&
        !broker.listeners.contains client.id &&
        client.lastMsgTime < currentTime &&
        clientTimeout < currentTime - client.lastMsgTime
  | _, _ => false

/-- The hook or the forwarding shuts down while this client's page is read. -/
def hookShutsDown
    (broker : LlmpBroker)
    (clientId : ClientId)
    (reception : Reception) : Bool :=
  match broker.llmpClients.find? fun client => client.id == clientId with
  | some client =>
      client.thread.isNone && reception.deliveries.any Delivery.shutsDown
  | none => false

/--
No place is left over from an earlier pass, the hook does not shut down, a client
that exits is the first with its identity, and, if anybody has a new message, so
has the last client that does not exit.
-/
structure InOrder
    (broker : LlmpBroker)
    (receptions : List Reception) : Prop where
  nothingLeft : broker.clientsToRemove = []
  onlyExits : ∀ (i : Nat) (client : BrokerClient) (reception : Reception),
    broker.llmpClients[i]? = some client → receptions[i]? = some reception →
      broker.hookShutsDown client.id reception = true →
        reception.exits = true
  exitingIsFirst : ∀ (i : Nat) (client : BrokerClient) (reception : Reception),
    broker.llmpClients[i]? = some client → receptions[i]? = some reception →
      reception.exits = true → broker.placeOf client.id = i
  lastHasMessages : (∃ reception ∈ receptions, reception.hasMessages) →
    ∃ reception,
      (receptions.filter fun reception => !reception.exits).getLast? =
          some reception ∧
        reception.hasMessages = true

/-- This reception ends with a shutdown, by an `EXITING` message or by the hook. -/
def closes
    (broker : LlmpBroker)
    (clientId : ClientId)
    (reception : Reception) : Bool :=
  reception.exits || broker.hookShutsDown clientId reception

variable {clientId : ClientId}

variable {broker next : LlmpBroker}

/-- New clients were added at the end, and nothing else concerns the removal. -/
structure Grown (broker next : LlmpBroker) : Prop where
  clients : ∃ added, next.llmpClients = broker.llmpClients ++ added
  listeners : next.listeners = broker.listeners
  clientsToRemove : next.clientsToRemove = broker.clientsToRemove

theorem Grown.refl (broker : LlmpBroker) : Grown broker broker :=
  ⟨⟨[], (List.append_nil _).symm⟩, rfl, rfl⟩

theorem Grown.trans
    {first second third : LlmpBroker}
    (one : Grown first second)
    (two : Grown second third) :
    Grown first third := by
  obtain ⟨oneAdded, oneClients⟩ := one.clients
  obtain ⟨twoAdded, twoClients⟩ := two.clients
  refine ⟨⟨oneAdded ++ twoAdded, ?_⟩, two.listeners.trans one.listeners,
    two.clientsToRemove.trans one.clientsToRemove⟩
  rw [twoClients, oneClients, List.append_assoc]

variable {client : BrokerClient}

theorem Grown.find
    (grown : Grown broker next)
    (found :
      broker.llmpClients.find? (fun client => client.id == clientId) =
        some client) :
    next.llmpClients.find? (fun client => client.id == clientId) =
      some client := by
  obtain ⟨added, clients⟩ := grown.clients
  rw [clients, List.find?_append, found]
  rfl

variable {result : Except BrokerError Bool}

variable {broker : LlmpBroker}

variable {reception : Reception}

/-- The place of a client that the loop notes. -/
def noted
    (broker : LlmpBroker)
    (receptions : List Reception)
    (currentTime : Nat)
    (i : Nat) : Bool :=
  (match broker.llmpClients[i]?, receptions[i]? with
    | some client, some reception => broker.closes client.id reception
    | _, _ => false) ||
    broker.timedOut receptions currentTime i

variable {currentTime i : Nat}

variable {receptions : List Reception}

section

variable {broker passed : LlmpBroker}
variable {receptions : List Reception}
variable {currentTime : Nat}
variable {newMessages : Bool}

end

/-- A client that exits. -/
def exiting : Reception :=
  ⟨[], .error .shuttingDown, 0⟩

/-- A message that the broker fails on. -/
def failing : Reception :=
  ⟨[⟨⟨1, 0⟩, true, 0, .error .other⟩], .ok (), 0⟩

end LlmpBroker

end MeFuzz.Llmp
