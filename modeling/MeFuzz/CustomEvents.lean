import MeFuzz.Procedures

namespace MeFuzz.Events

/-!
# Custom events

Events with custom buffers are taken by handlers that the user has registered.  Two
event managers keep the events of their own client until they process them, a third one
finds them among the messages of another client.  The handlers are called along the
same chain, of which they can see the state of the client, their own included.
-/

/-- `Event`, as far as the managers tell events apart. -/
inductive Event where
  | newTestcase
  | updateExecStats
  | updateUserStats
  | objective
  | log
  | customBuf (tag : String) (buf : List UInt8)

/-- `CustomBufEventResult`. -/
inductive CustomBufEventResult where
  | handled
  | next
  deriving DecidableEq

/-- `BrokerEventResult`. -/
inductive BrokerEventResult where
  | handled
  | forward
  | forwardToMaster
  | forwardBoth

/-- What makes a manager return an error. -/
inductive Failure (Error : Type) where
  | handler (error : Error)
  | illegalMessage
  | deserialize

/-- An event with its number among all events that were fired. -/
structure Fired where
  number : Nat
  event : Event

/-- A handler, with its place among the handlers, was called for an event. -/
structure Call where
  handler : Nat
  number : Nat
  deriving DecidableEq

/-- The state of a client, and the calls of its handlers. -/
structure Client (State : Type) where
  state : State
  calls : List Call

variable {State Error Payload : Type}

/-- `CustomBufHandlerFn`. -/
abbrev CustomBufHandler (State Error : Type) :=
  State → String → List UInt8 → Except Error CustomBufEventResult × State

/-- A handler is called. -/
def callHandler
    (handler : CustomBufHandler State Error)
    (tag : String)
    (buf : List UInt8)
    (call : Call) : Procedure (Failure Error) (Client State) CustomBufEventResult := do
  let client ← get
  let (result, state) := handler client.state tag buf
  set { state := state, calls := client.calls ++ [call] : Client State }
  liftM (result.mapError Failure.handler)

/-- The loop over the handlers in `SimpleEventManager` and `MasterEventManager`. -/
def callAll
    (tag : String)
    (buf : List UInt8)
    (number : Nat) :
    List (CustomBufHandler State Error) → Nat →
      Procedure (Failure Error) (Client State) PUnit
  | [], _ => pure ⟨⟩
  | handler :: rest, place => do
      let _ ← callHandler handler tag buf ⟨place, number⟩
      callAll tag buf number rest (place + 1)

/-- The loop over the handlers in `LlmpEventManager`. -/
def callUntilHandled
    (tag : String)
    (buf : List UInt8)
    (number : Nat) :
    List (CustomBufHandler State Error) → Nat →
      Procedure (Failure Error) (Client State) PUnit
  | [], _ => pure ⟨⟩
  | handler :: rest, place => do
      let result ← callHandler handler tag buf ⟨place, number⟩
      if result = .handled then pure ⟨⟩
      else callUntilHandled tag buf number rest (place + 1)

/-- The managers that keep the events of their own client. -/
inductive LocalKind where
  | simple
  | master

/-- `SimpleEventManager` and `MasterEventManager`, with what the latter has sent. -/
structure LocalManager (State : Type) where
  events : List Fired
  sent : List Event
  client : Client State

/-- `SimpleEventManager::handle_in_broker`. -/
def simpleHandleInBroker : Event → BrokerEventResult
  | .newTestcase => .handled
  | .updateExecStats => .handled
  | .updateUserStats => .handled
  | .objective => .handled
  | .log => .handled
  | .customBuf _ _ => .forward

/-- `MasterEventManager::handle_in_broker`. -/
def masterHandleInBroker : Event → BrokerEventResult
  | .newTestcase => .forwardToMaster
  | .updateExecStats => .handled
  | .updateUserStats => .handled
  | .objective => .handled
  | .log => .handled
  | .customBuf _ _ => .forward

namespace LocalManager

/-- `fire` of the two managers. -/
def fire (kind : LocalKind) (fired : Fired) (self : LocalManager State) :
    LocalManager State :=
  match kind with
  | .simple =>
      match simpleHandleInBroker fired.event with
      | .forward => { self with events := self.events ++ [fired] }
      | .forwardToMaster => { self with events := self.events ++ [fired] }
      | .forwardBoth => { self with events := self.events ++ [fired] }
      | .handled => self
  | .master =>
      match masterHandleInBroker fired.event with
      | .forward => { self with events := self.events ++ [fired] }
      | .forwardToMaster => { self with sent := self.sent ++ [fired.event] }
      | .forwardBoth => { self with events := self.events ++ [fired] }
      | .handled => self

/-- `handle_in_client` of the two managers. -/
def handleInClient
    (handlers : List (CustomBufHandler State Error))
    (fired : Fired) : Procedure (Failure Error) (Client State) PUnit :=
  match fired.event with
  | .customBuf tag buf => callAll tag buf fired.number handlers 0
  | _ => throw .illegalMessage

/-- The loop of `process`, that takes the last event each time. -/
def popAll
    (handlers : List (CustomBufHandler State Error))
    (self : LocalManager State) :
    Except (Failure Error) Unit × LocalManager State :=
  match _isLast : self.events.getLast? with
  | none => (.ok ⟨⟩, self)
  | some fired =>
      match (handleInClient handlers fired).outcome self.client with
      | (.error failure, client) =>
          (.error failure, { self with events := self.events.dropLast, client := client })
      | (.ok _, client) =>
          popAll handlers { self with events := self.events.dropLast, client := client }
termination_by self.events.length
decreasing_by
  have nonempty := List.ne_nil_of_mem (List.mem_of_getLast? _isLast)
  have positive := List.length_pos_of_ne_nil nonempty
  simp only [List.length_dropLast]
  omega

/-- `process` of the two managers. -/
def process
    (handlers : List (CustomBufHandler State Error))
    (self : LocalManager State) : Except (Failure Error) Nat × LocalManager State :=
  let count := self.events.length
  let (result, manager) := self.popAll handlers
  (result.map fun _ => count, manager)

end LocalManager

/-- The flags of messages. -/
abbrev Flags := Nat

/-- `LLMP_FLAG_INITIALIZED`. -/
def llmpFlagInitialized : Flags :=
  0x0

/-- `LLMP_FLAG_COMPRESSED`. -/
def llmpFlagCompressed : Flags :=
  0x1

/-- How events are serialised and compressed. -/
structure Wire (Payload : Type) where
  toVec : Event → Payload
  fromSlice : Payload → Option Event
  compress : Payload → Option Payload
  decompress : Payload → Option Payload
  fromSlice_toVec : ∀ event, fromSlice (toVec event) = some event
  decompress_compress :
    ∀ {payload compressed},
      compress payload = some compressed → decompress compressed = some payload

/-- The client that fires the events, and another one that is to process them. -/
structure Clients where
  firing : Nat
  processing : Nat
  distinct : firing ≠ processing

/-- A message that is on its way to the other client, with the number of its event. -/
structure Message (Payload : Type) where
  clientId : Nat
  flags : Flags
  payload : Payload
  number : Nat

/-- `LlmpEventManager` of the other client, with the messages it has yet to receive. -/
structure LlmpManager (State Payload : Type) where
  messages : List (Message Payload)
  client : Client State

namespace LlmpManager

/-- The message that `fire` sends. -/
def message
    (wire : Wire Payload)
    (clients : Clients)
    (fired : Fired) : Message Payload :=
  let serialized := wire.toVec fired.event
  match wire.compress serialized with
  | some compBuf =>
      ⟨clients.firing, llmpFlagInitialized ||| llmpFlagCompressed, compBuf, fired.number⟩
  | none => ⟨clients.firing, llmpFlagInitialized, serialized, fired.number⟩

/-- `fire` on the one client. -/
def fire
    (wire : Wire Payload)
    (clients : Clients)
    (fired : Fired)
    (self : LlmpManager State Payload) : LlmpManager State Payload :=
  { self with messages := self.messages ++ [message wire clients fired] }

/-- The event that a message holds. -/
def eventOf (wire : Wire Payload) (message : Message Payload) : Option Event :=
  if message.flags &&& llmpFlagCompressed = llmpFlagCompressed then do
    let compressed ← wire.decompress message.payload
    wire.fromSlice compressed
  else wire.fromSlice message.payload

/-- `handle_in_client`, with what the fuzzer does with an input of another client. -/
def handleInClient
    (evaluate : Procedure (Failure Error) (Client State) PUnit)
    (handlers : List (CustomBufHandler State Error))
    (fired : Fired) : Procedure (Failure Error) (Client State) PUnit :=
  match fired.event with
  | .newTestcase => evaluate
  | .customBuf tag buf => callUntilHandled tag buf fired.number handlers 0
  | _ => throw .illegalMessage

/-- The loop of `process` on the other client. -/
def receiveAll
    (wire : Wire Payload)
    (clients : Clients)
    (evaluate : Procedure (Failure Error) (Client State) PUnit)
    (handlers : List (CustomBufHandler State Error)) :
    List (Message Payload) → Client State → Nat →
      Except (Failure Error) Nat × LlmpManager State Payload
  | [], client, count => (.ok count, ⟨[], client⟩)
  | message :: rest, client, count =>
      if message.clientId = clients.processing then
        receiveAll wire clients evaluate handlers rest client count
      else
        match eventOf wire message with
        | none => (.error .deserialize, ⟨rest, client⟩)
        | some event =>
            let fired : Fired := ⟨message.number, event⟩
            match (handleInClient evaluate handlers fired).outcome client with
            | (.error failure, client) => (.error failure, ⟨rest, client⟩)
            | (.ok _, client) =>
                receiveAll wire clients evaluate handlers rest client (count + 1)

/-- `process` on the other client. -/
def process
    (wire : Wire Payload)
    (clients : Clients)
    (evaluate : Procedure (Failure Error) (Client State) PUnit)
    (handlers : List (CustomBufHandler State Error))
    (self : LlmpManager State Payload) :
    Except (Failure Error) Nat × LlmpManager State Payload :=
  receiveAll wire clients evaluate handlers self.messages self.client 0

end LlmpManager

/-- Who is compared with whom, and with which handlers. -/
structure Comparison (State Error Payload : Type) where
  kind : LocalKind
  wire : Wire Payload
  clients : Clients
  evaluate : Procedure (Failure Error) (Client State) PUnit
  handlers : List (CustomBufHandler State Error)

/-- A local manager and that of another client, and how many events were fired. -/
structure Managers (State Payload : Type) where
  fired : Nat
  own : LocalManager State
  other : LlmpManager State Payload

/-- What is done with both managers. -/
inductive Operation where
  | fire (tag : String) (buf : List UInt8)
  | process

namespace Managers

/-- Nothing was fired and no handler was called. -/
def initial (state : State) : Managers State Payload where
  fired := 0
  own := ⟨[], [], ⟨state, []⟩⟩
  other := ⟨[], ⟨state, []⟩⟩

/-- An operation. -/
def step
    (comparison : Comparison State Error Payload)
    (managers : Managers State Payload) : Operation → Managers State Payload
  | .fire tag buf =>
      let fired : Fired := ⟨managers.fired, .customBuf tag buf⟩
      { fired := managers.fired + 1
        own := managers.own.fire comparison.kind fired
        other := managers.other.fire comparison.wire comparison.clients fired }
  | .process =>
      { managers with
        own := (managers.own.process comparison.handlers).2
        other :=
          (managers.other.process comparison.wire comparison.clients comparison.evaluate
            comparison.handlers).2 }

/-- The handlers were called in the same way. -/
def Agree (managers : Managers State Payload) : Prop :=
  managers.own.client.calls = managers.other.client.calls

end Managers

/-- A handler answers that the event is handled before the last one is called. -/
def HandledEarly
    (tag : String)
    (buf : List UInt8) : List (CustomBufHandler State Error) → State → Prop
  | [], _ => False
  | handler :: rest, state =>
      match handler state tag buf with
      | (.ok .handled, _) => rest ≠ []
      | (.ok .next, next) => HandledEarly tag buf rest next
      | (.error _, _) => False

/--
There is no handler, or at most one event to process, and of that no handler but the
last says that it is handled.
-/
def Comparison.Plain
    (comparison : Comparison State Error Payload)
    (managers : Managers State Payload) : Operation → Prop
  | .fire _ _ => True
  | .process =>
      comparison.handlers = [] ∨
        managers.own.events = [] ∨
          ∃ number tag buf,
            managers.own.events = [⟨number, .customBuf tag buf⟩] ∧
              ¬ HandledEarly tag buf comparison.handlers managers.own.client.state

section

variable {tag : String} {buf : List UInt8} {number place : Nat} {client : Client State}
variable {handlers : List (CustomBufHandler State Error)}

theorem outcome_callHandler
    {handler : CustomBufHandler State Error}
    {call : Call} :
    (callHandler handler tag buf call).outcome client =
      ((handler client.state tag buf).1.mapError .handler,
        ⟨(handler client.state tag buf).2, client.calls ++ [call]⟩) :=
  rfl

theorem calls_callAll
    (handlers : List (CustomBufHandler State Error)) :
    ∀ (place : Nat) (client : Client State),
      client.calls <+:
        ((callAll tag buf number handlers place).outcome client).2.calls := by
  induction handlers with
  | nil =>
      exact fun _ _ => List.prefix_rfl
  | cons handler rest ih =>
      intro place client
      rw [callAll, Procedure.outcome_bind, outcome_callHandler]
      cases handler client.state tag buf with
      | mk result state =>
          cases result with
          | error error =>
              exact List.prefix_append _ _
          | ok answer =>
              exact (List.prefix_append _ _).trans
                (ih (place + 1) ⟨state, client.calls ++ [⟨place, number⟩]⟩)

theorem first_callAll
    (place : Nat)
    (client : Client State)
    (nonempty : handlers ≠ []) :
    client.calls ++ [⟨place, number⟩] <+:
      ((callAll tag buf number handlers place).outcome client).2.calls := by
  cases handlers with
  | nil =>
      exact absurd rfl nonempty
  | cons handler rest =>
      rw [callAll, Procedure.outcome_bind, outcome_callHandler]
      cases handler client.state tag buf with
      | mk result state =>
          cases result with
          | error error =>
              exact List.prefix_rfl
          | ok answer =>
              exact calls_callAll rest (place + 1)
                ⟨state, client.calls ++ [⟨place, number⟩]⟩

theorem calls_callUntilHandled
    (handlers : List (CustomBufHandler State Error)) :
    ∀ (place : Nat) (client : Client State),
      client.calls <+:
        ((callUntilHandled tag buf number handlers place).outcome client).2.calls := by
  induction handlers with
  | nil =>
      exact fun _ _ => List.prefix_rfl
  | cons handler rest ih =>
      intro place client
      rw [callUntilHandled, Procedure.outcome_bind, outcome_callHandler]
      cases handler client.state tag buf with
      | mk result state =>
          cases result with
          | error error =>
              exact List.prefix_append _ _
          | ok answer =>
              cases answer with
              | handled =>
                  exact List.prefix_append _ _
              | next =>
                  exact (List.prefix_append _ _).trans
                    (ih (place + 1)
                      ⟨state, client.calls ++ [⟨place, number⟩]⟩)

theorem first_callUntilHandled
    (place : Nat)
    (client : Client State)
    (nonempty : handlers ≠ []) :
    client.calls ++ [⟨place, number⟩] <+:
      ((callUntilHandled tag buf number handlers place).outcome client).2.calls := by
  cases handlers with
  | nil =>
      exact absurd rfl nonempty
  | cons handler rest =>
      rw [callUntilHandled, Procedure.outcome_bind, outcome_callHandler]
      cases handler client.state tag buf with
      | mk result state =>
          cases result with
          | error error =>
              exact List.prefix_rfl
          | ok answer =>
              cases answer with
              | handled =>
                  exact List.prefix_rfl
              | next =>
                  exact calls_callUntilHandled rest (place + 1)
                    ⟨state, client.calls ++ [⟨place, number⟩]⟩

theorem callAll_eq
    (handlers : List (CustomBufHandler State Error)) :
    ∀ (place : Nat) (client : Client State),
      ¬ HandledEarly tag buf handlers client.state →
        (callAll tag buf number handlers place).outcome client =
          (callUntilHandled tag buf number handlers place).outcome client := by
  induction handlers with
  | nil =>
      exact fun _ _ _ => rfl
  | cons handler rest ih =>
      intro place client notEarly
      rw [callAll, callUntilHandled, Procedure.outcome_bind, Procedure.outcome_bind,
        outcome_callHandler]
      rw [HandledEarly] at notEarly
      cases answered : handler client.state tag buf with
      | mk result state =>
          rw [answered] at notEarly
          cases result with
          | error error =>
              rfl
          | ok answer =>
              cases answer with
              | handled =>
                  obtain rfl := not_not.mp notEarly
                  rfl
              | next =>
                  exact ih (place + 1)
                    ⟨state, client.calls ++ [⟨place, number⟩]⟩ notEarly

theorem length_callUntilHandled_lt
    (handlers : List (CustomBufHandler State Error)) :
    ∀ (place : Nat) (client : Client State),
      HandledEarly tag buf handlers client.state →
        ((callUntilHandled tag buf number handlers place).outcome client).2.calls.length <
          ((callAll tag buf number handlers place).outcome client).2.calls.length := by
  induction handlers with
  | nil =>
      exact fun _ _ early => early.elim
  | cons handler rest ih =>
      intro place client early
      rw [callAll, callUntilHandled, Procedure.outcome_bind, Procedure.outcome_bind,
        outcome_callHandler]
      rw [HandledEarly] at early
      cases answered : handler client.state tag buf with
      | mk result state =>
          rw [answered] at early
          cases result with
          | error error =>
              exact early.elim
          | ok answer =>
              cases answer with
              | handled =>
                  have onwards :
                      client.calls ++ [⟨place, number⟩] ++ [⟨place + 1, number⟩] <+:
                        ((callAll tag buf number rest (place + 1)).outcome
                          ⟨state, client.calls ++ [⟨place, number⟩]⟩).2.calls :=
                    first_callAll (place + 1) ⟨state, client.calls ++ [⟨place, number⟩]⟩ early
                  have longer := onwards.length_le
                  rw [List.length_append, List.length_singleton] at longer
                  exact longer
              | next =>
                  exact ih (place + 1)
                    ⟨state, client.calls ++ [⟨place, number⟩]⟩ early

end

/-- The event has a custom buffer. -/
def Fired.IsCustom (fired : Fired) : Prop :=
  ∃ tag buf, fired.event = .customBuf tag buf

namespace LocalManager

variable {handlers : List (CustomBufHandler State Error)}

theorem popAll_nil
    {self : LocalManager State}
    (isEvents : self.events = []) :
    self.popAll handlers = (.ok (), self) := by
  unfold popAll
  split
  · rfl
  · next isLast =>
      rw [isEvents] at isLast
      cases isLast

variable {sent : List Event}

theorem popAll_concat
    {front : List Fired}
    {fired : Fired}
    {client : Client State} :
    (⟨front ++ [fired], sent, client⟩ : LocalManager State).popAll handlers =
      match (handleInClient handlers fired).outcome client with
      | (.error failure, next) => (.error failure, ⟨front, sent, next⟩)
      | (.ok _, next) => (⟨front, sent, next⟩ : LocalManager State).popAll handlers := by
  rw [popAll]
  split
  · next isLast =>
      rw [List.getLast?_concat] at isLast
      cases isLast
  · next isLast =>
      rw [List.getLast?_concat] at isLast
      obtain rfl := Option.some.inj isLast
      rw [List.dropLast_concat]

theorem calls_popAll
    (events : List Fired) :
    ∀ client : Client State,
      client.calls <+:
        ((⟨events, sent, client⟩ : LocalManager State).popAll handlers).2.client.calls := by
  induction events using List.reverseRecOn with
  | nil =>
      intro client
      rw [popAll_nil rfl]
  | append_singleton front fired ih =>
      intro client
      have grows :
          client.calls <+: ((handleInClient handlers fired).outcome client).2.calls := by
        unfold handleInClient
        split
        · exact calls_callAll handlers 0 client
        · exact List.prefix_rfl
      rw [popAll_concat]
      cases handled : (handleInClient handlers fired).outcome client with
      | mk result next =>
          rw [handled] at grows
          cases result with
          | error failure =>
              exact grows
          | ok done =>
              exact grows.trans (ih next)

theorem first_popAll
    {front : List Fired}
    {fired : Fired}
    {client : Client State}
    (custom : fired.IsCustom)
    (nonempty : handlers ≠ []) :
    client.calls ++ [⟨0, fired.number⟩] <+:
      ((⟨front ++ [fired], sent, client⟩ : LocalManager State).popAll
        handlers).2.client.calls := by
  obtain ⟨tag, buf, isCustom⟩ := custom
  have grows :
      client.calls ++ [⟨0, fired.number⟩] <+:
        ((handleInClient handlers fired).outcome client).2.calls := by
    rw [handleInClient, isCustom]
    exact first_callAll 0 client nonempty
  rw [popAll_concat]
  cases handled : (handleInClient handlers fired).outcome client with
  | mk result next =>
      rw [handled] at grows
      cases result with
      | error failure =>
          exact grows
      | ok done =>
          exact grows.trans (calls_popAll front next)

theorem popAll_no_handlers
    {client : Client State}
    (events : List Fired)
    (custom : ∀ fired ∈ events, fired.IsCustom) :
    ((⟨events, sent, client⟩ : LocalManager State).popAll
        ([] : List (CustomBufHandler State Error))).2 =
      ⟨[], sent, client⟩ := by
  induction events using List.reverseRecOn with
  | nil =>
      rw [popAll_nil rfl]
  | append_singleton front fired ih =>
      obtain ⟨tag, buf, isCustom⟩ := custom fired (by simp)
      rw [popAll_concat, handleInClient, isCustom]
      exact ih fun other member =>
        custom other (List.mem_append_left _ member)

theorem popAll_singleton
    {number : Nat}
    {tag : String}
    {buf : List UInt8}
    {client : Client State} :
    ((⟨[⟨number, .customBuf tag buf⟩], sent, client⟩ : LocalManager State).popAll
        handlers).2 =
      ⟨[], sent, ((callAll tag buf number handlers 0).outcome client).2⟩ := by
  rw [← List.nil_append [(⟨number, .customBuf tag buf⟩ : Fired)], popAll_concat,
    handleInClient]
  cases (callAll tag buf number handlers 0).outcome client with
  | mk result next =>
      cases result with
      | error failure =>
          rfl
      | ok done =>
          dsimp only
          rw [popAll_nil rfl]

end LocalManager

namespace LlmpManager

variable {wire : Wire Payload} {clients : Clients}
variable {evaluate : Procedure (Failure Error) (Client State) PUnit}
variable {handlers : List (CustomBufHandler State Error)}

variable {fired : Fired}

theorem message_of_none
    (uncompressed : wire.compress (wire.toVec fired.event) = none) :
    message wire clients fired =
      ⟨clients.firing, llmpFlagInitialized, wire.toVec fired.event, fired.number⟩ := by
  simp only [message, uncompressed]

theorem message_of_some
    {compBuf : Payload}
    (compressed : wire.compress (wire.toVec fired.event) = some compBuf) :
    message wire clients fired =
      ⟨clients.firing, llmpFlagInitialized ||| llmpFlagCompressed, compBuf,
        fired.number⟩ := by
  simp only [message, compressed]

theorem message_fields (fired : Fired) :
    eventOf wire (message wire clients fired) = some fired.event ∧
      (message wire clients fired).number = fired.number ∧
        (message wire clients fired).clientId = clients.firing := by
  cases isCompressed : wire.compress (wire.toVec fired.event) with
  | none =>
      have unflagged : llmpFlagInitialized &&& llmpFlagCompressed ≠ llmpFlagCompressed := by
        decide
      rw [message_of_none isCompressed, eventOf, if_neg unflagged]
      exact ⟨wire.fromSlice_toVec fired.event, rfl, rfl⟩
  | some compBuf =>
      have flagged :
          (llmpFlagInitialized ||| llmpFlagCompressed) &&& llmpFlagCompressed =
            llmpFlagCompressed := by
        decide
      rw [message_of_some isCompressed, eventOf, if_pos flagged,
        wire.decompress_compress isCompressed]
      exact ⟨wire.fromSlice_toVec fired.event, rfl, rfl⟩

variable {client : Client State}

theorem receiveAll_cons
    {rest : List (Message Payload)}
    {count : Nat} :
    receiveAll wire clients evaluate handlers (message wire clients fired :: rest) client
        count =
      match (handleInClient evaluate handlers fired).outcome client with
      | (.error failure, next) => (.error failure, ⟨rest, next⟩)
      | (.ok _, next) =>
          receiveAll wire clients evaluate handlers rest next (count + 1) := by
  obtain ⟨isEvent, isNumber, isFiring⟩ := @message_fields _ wire clients fired
  rw [receiveAll, isFiring, if_neg clients.distinct, isEvent, isNumber]

theorem calls_receiveAll
    (events : List Fired)
    (custom : ∀ fired ∈ events, fired.IsCustom) :
    ∀ (client : Client State) (count : Nat),
      client.calls <+:
        (receiveAll wire clients evaluate handlers (events.map (message wire clients))
          client count).2.client.calls := by
  induction events with
  | nil =>
      exact fun _ _ => List.prefix_rfl
  | cons fired rest ih =>
      intro client count
      obtain ⟨tag, buf, isCustom⟩ := custom fired List.mem_cons_self
      have grows :
          client.calls <+:
            ((callUntilHandled tag buf fired.number handlers 0).outcome client).2.calls :=
        calls_callUntilHandled handlers 0 client
      rw [List.map_cons, receiveAll_cons, handleInClient, isCustom]
      cases handled : (callUntilHandled tag buf fired.number handlers 0).outcome client with
      | mk result next =>
          rw [handled] at grows
          cases result with
          | error failure =>
              exact grows
          | ok done =>
              exact grows.trans
                (ih
                  (fun other member => custom other (List.mem_cons_of_mem _ member)) next _)

theorem first_receiveAll
    {rest : List Fired}
    {count : Nat}
    (custom : ∀ other ∈ fired :: rest, other.IsCustom)
    (nonempty : handlers ≠ []) :
    client.calls ++ [⟨0, fired.number⟩] <+:
      (receiveAll wire clients evaluate handlers
        ((fired :: rest).map (message wire clients)) client count).2.client.calls := by
  obtain ⟨tag, buf, isCustom⟩ := custom fired List.mem_cons_self
  have grows :
      client.calls ++ [⟨0, fired.number⟩] <+:
        ((callUntilHandled tag buf fired.number handlers 0).outcome client).2.calls :=
    first_callUntilHandled 0 client nonempty
  rw [List.map_cons, receiveAll_cons, handleInClient, isCustom]
  cases handled : (callUntilHandled tag buf fired.number handlers 0).outcome client with
  | mk result next =>
      rw [handled] at grows
      cases result with
      | error failure =>
          exact grows
      | ok done =>
          exact grows.trans
            (calls_receiveAll rest
              (fun other member => custom other (List.mem_cons_of_mem _ member)) next _)

theorem receiveAll_no_handlers
    (events : List Fired)
    (custom : ∀ fired ∈ events, fired.IsCustom) :
    ∀ count,
      (receiveAll wire clients evaluate ([] : List (CustomBufHandler State Error))
        (events.map (message wire clients)) client count).2 = ⟨[], client⟩ := by
  induction events with
  | nil =>
      exact fun _ => rfl
  | cons fired rest ih =>
      intro count
      obtain ⟨tag, buf, isCustom⟩ := custom fired List.mem_cons_self
      rw [List.map_cons, receiveAll_cons, handleInClient, isCustom]
      exact ih
        (fun other member => custom other (List.mem_cons_of_mem _ member)) (count + 1)

theorem receiveAll_singleton
    {number : Nat}
    {tag : String}
    {buf : List UInt8}
    {count : Nat} :
    (receiveAll wire clients evaluate handlers
        [message wire clients ⟨number, .customBuf tag buf⟩] client count).2 =
      ⟨[], ((callUntilHandled tag buf number handlers 0).outcome client).2⟩ := by
  rw [receiveAll_cons, handleInClient]
  cases (callUntilHandled tag buf number handlers 0).outcome client with
  | mk result next =>
      cases result with
      | error failure =>
          rfl
      | ok done =>
          rfl

end LlmpManager

namespace Managers

variable {comparison : Comparison State Error Payload}
variable {managers : Managers State Payload}

/-- Both sides have the same to do, and have done the same. -/
structure Matching
    (comparison : Comparison State Error Payload)
    (managers : Managers State Payload) : Prop where
  client : managers.own.client = managers.other.client
  messages :
    managers.other.messages =
      managers.own.events.map (LlmpManager.message comparison.wire comparison.clients)
  custom : ∀ fired ∈ managers.own.events, fired.IsCustom
  ordered : managers.own.events.Pairwise (·.number < ·.number)
  below : ∀ fired ∈ managers.own.events, fired.number < managers.fired

theorem Matching.initial (state : State) :
    Matching comparison (Managers.initial state) where
  client := rfl
  messages := rfl
  custom := fun _ member => absurd member List.not_mem_nil
  ordered := .nil
  below := fun _ member => absurd member List.not_mem_nil

theorem Matching.fire
    (matching : Matching comparison managers)
    (tag : String)
    (buf : List UInt8) :
    Matching comparison (managers.step comparison (.fire tag buf)) := by
  have fires :
      managers.own.fire comparison.kind ⟨managers.fired, .customBuf tag buf⟩ =
        { managers.own with
          events := managers.own.events ++ [⟨managers.fired, .customBuf tag buf⟩] } := by
    cases comparison.kind with
    | simple =>
        rfl
    | master =>
        rfl
  rw [step, fires]
  constructor
  · exact matching.client
  · rw [List.map_append, ← matching.messages]
    rfl
  · intro fired member
    rcases List.mem_append.mp member with before | isNew
    · exact matching.custom fired before
    · exact ⟨tag, buf, by rw [List.mem_singleton.mp isNew]⟩
  · refine List.pairwise_append.mpr ⟨matching.ordered, List.pairwise_singleton _ _, ?_⟩
    intro before isBefore after isAfter
    rw [List.mem_singleton.mp isAfter]
    exact matching.below before isBefore
  · intro fired member
    rcases List.mem_append.mp member with before | isNew
    · exact (matching.below fired before).trans (Nat.lt_succ_self _)
    · rw [List.mem_singleton.mp isNew]
      exact Nat.lt_succ_self _

theorem matching_done
    {client : Client State}
    {sent : List Event} :
    Matching comparison ⟨managers.fired, ⟨[], sent, client⟩, ⟨[], client⟩⟩ where
  client := rfl
  messages := rfl
  custom := fun _ member => absurd member List.not_mem_nil
  ordered := .nil
  below := fun _ member => absurd member List.not_mem_nil

theorem process_own
    (own : LocalManager State)
    (handlers : List (CustomBufHandler State Error)) :
    (own.process handlers).2 = (own.popAll handlers).2 :=
  rfl

theorem Matching.agree (matching : Matching comparison managers) : managers.Agree :=
  congrArg Client.calls matching.client

theorem Matching.step
    (matching : Matching comparison managers)
    {operation : Operation}
    (plain : comparison.Plain managers operation) :
    Matching comparison (managers.step comparison operation) := by
  obtain ⟨fired, ⟨events, sent, client⟩, ⟨messages, otherClient⟩⟩ := managers
  obtain rfl : client = otherClient := matching.client
  obtain rfl :
      messages = events.map (LlmpManager.message comparison.wire comparison.clients) :=
    matching.messages
  cases operation with
  | fire tag buf =>
      exact matching.fire tag buf
  | process =>
      rw [Managers.step, process_own, LlmpManager.process]
      rcases plain with noHandlers | noEvents | ⟨number, tag, buf, single, notEarly⟩
      · rw [noHandlers, LocalManager.popAll_no_handlers events matching.custom,
          LlmpManager.receiveAll_no_handlers events matching.custom]
        exact matching_done
      · obtain rfl : events = [] := noEvents
        rw [LocalManager.popAll_nil rfl]
        exact matching_done
      · obtain rfl : events = [⟨number, .customBuf tag buf⟩] := single
        rw [List.map_singleton, LocalManager.popAll_singleton,
          LlmpManager.receiveAll_singleton, callAll_eq comparison.handlers 0 client notEarly]
        exact matching_done

theorem single_of_numbers
    {first last : Fired}
    {rest front : List Fired}
    (split : first :: rest = front ++ [last])
    (ordered : (first :: rest).Pairwise (·.number < ·.number))
    (same : first.number = last.number) :
    rest = [] := by
  cases front with
  | nil =>
      exact (List.cons.inj split).2
  | cons one others =>
      obtain ⟨rfl, isRest⟩ := List.cons.inj split
      have isLater := (List.pairwise_cons.mp ordered).1 last (by rw [isRest]; simp)
      exact absurd same isLater.ne

theorem Matching.plain_of_agree
    (matching : Matching comparison managers)
    {operation : Operation}
    (agree : (managers.step comparison operation).Agree) :
    comparison.Plain managers operation := by
  obtain ⟨fired, ⟨events, sent, client⟩, ⟨messages, otherClient⟩⟩ := managers
  obtain rfl : client = otherClient := matching.client
  obtain rfl :
      messages = events.map (LlmpManager.message comparison.wire comparison.clients) :=
    matching.messages
  cases operation with
  | fire tag buf =>
      trivial
  | process =>
      rw [Agree, Managers.step, process_own, LlmpManager.process] at agree
      by_cases noHandlers : comparison.handlers = []
      · exact .inl noHandlers
      rcases List.eq_nil_or_concat' events with noEvents | ⟨front, last, isEvents⟩
      · exact .inr (.inl noEvents)
      refine .inr (.inr ?_)
      cases events with
      | nil =>
          simp at isEvents
      | cons first rest =>
          have ownFirst :
              client.calls ++ [⟨0, last.number⟩] <+:
                ((⟨first :: rest, sent, client⟩ : LocalManager State).popAll
                  comparison.handlers).2.client.calls := by
            rw [isEvents]
            exact LocalManager.first_popAll (matching.custom last (by simp [isEvents]))
              noHandlers
          have otherFirst :
              client.calls ++ [⟨0, first.number⟩] <+:
                ((⟨first :: rest, sent, client⟩ : LocalManager State).popAll
                  comparison.handlers).2.client.calls := by
            rw [agree]
            exact LlmpManager.first_receiveAll matching.custom noHandlers
          have sameCalls :=
            List.IsPrefix.eq_of_length
              (List.prefix_of_prefix_length_le otherFirst ownFirst (by simp)) (by simp)
          have sameNumber : first.number = last.number :=
            congrArg Call.number (List.cons.inj (List.append_cancel_left sameCalls)).1
          obtain rfl := single_of_numbers isEvents matching.ordered sameNumber
          obtain ⟨tag, buf, isCustom⟩ := matching.custom first List.mem_cons_self
          obtain ⟨number, event⟩ := first
          obtain rfl : event = .customBuf tag buf := isCustom
          refine ⟨number, tag, buf, rfl, fun early => ?_⟩
          rw [List.map_singleton, LocalManager.popAll_singleton,
            LlmpManager.receiveAll_singleton] at agree
          have shorter :
              ((callUntilHandled tag buf number comparison.handlers 0).outcome
                client).2.calls.length <
                ((callAll tag buf number comparison.handlers 0).outcome
                  client).2.calls.length :=
            length_callUntilHandled_lt comparison.handlers 0 client early
          exact shorter.ne (congrArg List.length agree).symm

end Managers

/-- The operations on both sides. -/
def Comparison.steps
    (comparison : Comparison State Error Payload) :
    StepRelation (Managers State Payload) Operation :=
  .ofFunction fun managers operation => some (managers.step comparison operation)

/--
The local managers call the handlers as the manager of another client does, all along a
run, if and only if they never have more than one event to process and no handler but
the last one says of it that it is handled, or have no handlers.
-/
theorem local_managers_agree_iff
    (comparison : Comparison State Error Payload)
    (state : State)
    (operations : List Operation) :
    Run.Always comparison.steps Managers.Agree (Managers.initial state) operations ↔
      Run.Everywhere comparison.steps comparison.Plain (Managers.initial state)
        operations := by
  have started : Managers.Matching comparison (Managers.initial state) := .initial state
  refine Run.always_iff_everywhere_of_invariant
    (fun matching => matching.agree) ?_ ?_ started operations
  · intro managers operation next matching plain taken
    obtain rfl := Option.some.inj taken
    exact matching.step plain
  · intro managers operation next matching taken agree
    obtain rfl := Option.some.inj taken
    exact matching.plain_of_agree agree

/-- Events are sent as they are. -/
def plainWire : Wire Event where
  toVec := id
  fromSlice := some
  compress _ := none
  decompress := some
  fromSlice_toVec _ := rfl
  decompress_compress := fun compressed => by cases compressed

/-- A single handler that always asks for the next one. -/
def oneHandler (kind : LocalKind) : Comparison Unit Unit Event where
  kind := kind
  wire := plainWire
  clients := ⟨1, 2, by decide⟩
  evaluate := pure ⟨⟩
  handlers := [fun state _ _ => (.ok .next, state)]

/-- Two events are fired and processed. -/
def twoEvents : List Operation :=
  [.fire "a" [], .fire "b" [], .process]

theorem disagree_on_two (kind : LocalKind) :
    ¬ Run.Always (oneHandler kind).steps Managers.Agree (Managers.initial ())
        twoEvents := by
  intro always
  have agree := always twoEvents _ List.prefix_rfl (Run.of_foldlM rfl)
  have started : Managers.Matching (oneHandler kind) (Managers.initial ()) := .initial ()
  have matching := (started.fire "a" []).fire "b" []
  have events :
      (((Managers.initial ()).step (oneHandler kind) (.fire "a" [])).step (oneHandler kind)
        (.fire "b" [])).own.events.length = 2 := by
    cases kind with
    | simple =>
        rfl
    | master =>
        rfl
  rcases matching.plain_of_agree agree with noHandlers | noEvents | ⟨_, _, _, single, _⟩
  · cases noHandlers
  · rw [noEvents] at events
    cases events
  · rw [single] at events
    cases events

/-- So both local managers differ from the one of another client. -/
theorem local_managers_disagree :
    ¬ Run.Always (oneHandler .simple).steps Managers.Agree (Managers.initial ())
        twoEvents ∧
      ¬ Run.Always (oneHandler .master).steps Managers.Agree (Managers.initial ())
          twoEvents :=
  ⟨disagree_on_two .simple, disagree_on_two .master⟩

end MeFuzz.Events
