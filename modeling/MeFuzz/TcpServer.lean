import MeFuzz.TcpMessages
import Mathlib.Data.Finset.Basic
import Mathlib.Data.List.Infix

namespace MeFuzz.Tcp

/-!
# Serving a connection

One goroutine reads all messages of a node and hands each payload to the
channel of the element it names.  The msgpack reader and the inflater are
parameters.  Receivers keep receiving, so a send on an element's channel
completes; a send on the nil channel of an unknown element never does, and the
context of the master is never cancelled.
-/

/-- How `RecvMessage` fails. -/
inductive ReadError where
  | eof
  | other
  deriving Repr, DecidableEq

/-- What one `RecvMessage` call returns. -/
inductive Reading where
  | message (msgBytes : Bytes)
  | failed (err : ReadError)
  deriving Repr, DecidableEq

/-- Everything that arrives on a connection: messages and passing read errors,
then one read error that every later call returns again. -/
structure Incoming where
  arrivals : List Reading
  lasting : ReadError
  live : Reading.failed .eof ∉ arrivals

/-- The first readings of a connection that go `count` calls past its arrivals. -/
def Incoming.readings
    (incoming : Incoming)
    (count : Nat) : List Reading :=
  incoming.arrivals ++ List.replicate count (.failed incoming.lasting)

/-- Where the loop of `handleConnection` stands. -/
inductive LoopStatus where
  | receiving
  | blocked
  | returned
  deriving Repr, DecidableEq

/-- The loop together with the sends it completed, oldest first. -/
structure Handler where
  status : LoopStatus
  delivered : List (OnNodeID × Bytes)
  deriving Repr, DecidableEq

/-- The loop before its first iteration. -/
def Handler.new : Handler where
  status := .receiving
  delivered := []

/-- The payloads sent to one element. -/
def sentTo
    (onNodeID : OnNodeID)
    (delivered : List (OnNodeID × Bytes)) : List Bytes :=
  delivered.filterMap fun delivery =>
    if delivery.1 = onNodeID then some delivery.2 else none

section

variable
  (unmarshal : Bytes → Option TcpMasterMessage)
  (inflate : Bytes → Option Bytes)
  (recvByElement : Finset OnNodeID)

/-- Unmarshal and decompress; `none` where the loop logs an error and goes on. -/
def decode (msgBytes : Bytes) : Option Received :=
  (unmarshal msgBytes).bind (receive inflate)

/-- One iteration of the loop, given what `RecvMessage` returns. -/
def Handler.iterate
    (handler : Handler)
    (reading : Reading) : Handler :=
  match handler.status with
  | .receiving =>
      match reading with
      | .failed .eof => { handler with status := .returned }
      | .failed .other => handler
      | .message msgBytes =>
          match decode unmarshal inflate msgBytes with
          | none => handler
          | some received =>
              if received.clientID ∈ recvByElement then
                { handler with
                  delivered := handler.delivered ++
                    [(received.clientID, received.payload)] }
              else { handler with status := .blocked }
  | .blocked => handler
  | .returned => handler

/-- `handleConnection` after the readings. -/
def serve (readings : List Reading) : Handler :=
  readings.foldl (Handler.iterate unmarshal inflate recvByElement) .new

/-- The send that a reading asks for. -/
def delivery? : Reading → Option (OnNodeID × Bytes)
  | .failed _ => none
  | .message msgBytes =>
      (decode unmarshal inflate msgBytes).bind fun received =>
        if received.clientID ∈ recvByElement then
          some (received.clientID, received.payload)
        else none

/-- The sends that the readings ask for. -/
def deliveries (readings : List Reading) : List (OnNodeID × Bytes) :=
  readings.filterMap (delivery? unmarshal inflate recvByElement)

/-- The reading is a decodable message for an element that is not served. -/
def NamesUnknown (reading : Reading) : Prop :=
  ∃ msgBytes received,
    reading = .message msgBytes ∧
      decode unmarshal inflate msgBytes = some received ∧
        received.clientID ∉ recvByElement

/-- Every message reaches its element once and in order, whatever else arrives,
and the loop returns once reads keep failing. -/
structure Demultiplexes (incoming : Incoming) : Prop where
  delivers :
    ∀ before, before <+: incoming.arrivals →
      ∀ onNodeID ∈ recvByElement,
        sentTo onNodeID
            (serve unmarshal inflate recvByElement before).delivered =
          sentTo onNodeID
            (deliveries unmarshal inflate recvByElement before)
  returns :
    ∃ count,
      (serve unmarshal inflate recvByElement
        (incoming.readings count)).status = .returned

end

variable
  {unmarshal : Bytes → Option TcpMasterMessage}
  {inflate : Bytes → Option Bytes}
  {recvByElement : Finset OnNodeID}

variable {handler : Handler}

theorem Handler.iterate_of_ne
    (stopped : handler.status ≠ .receiving)
    (reading : Reading) :
    handler.iterate unmarshal inflate recvByElement reading = handler := by
  unfold Handler.iterate
  cases status : handler.status with
  | receiving => exact absurd status stopped
  | blocked => rfl
  | returned => rfl

variable {reading : Reading}

theorem Handler.iterate_unknown
    (receiving : handler.status = .receiving)
    (unknown : NamesUnknown unmarshal inflate recvByElement reading) :
    handler.iterate unmarshal inflate recvByElement reading =
      { handler with status := .blocked } := by
  obtain ⟨msgBytes, received, rfl, decoded, absent⟩ := unknown
  simp only [Handler.iterate, receiving, decoded, if_neg absent]

theorem Handler.iterate_known
    (receiving : handler.status = .receiving)
    (live : reading ≠ .failed .eof)
    (known : ¬ NamesUnknown unmarshal inflate recvByElement reading) :
    handler.iterate unmarshal inflate recvByElement reading =
      { status := .receiving
        delivered := handler.delivered ++
          deliveries unmarshal inflate recvByElement [reading] } := by
  rcases handler with ⟨status, delivered⟩
  obtain rfl : status = .receiving := receiving
  cases reading with
  | failed err =>
      cases err with
      | eof => exact absurd rfl live
      | other => simp [Handler.iterate, deliveries, delivery?]
  | message msgBytes =>
      cases decoded : decode unmarshal inflate msgBytes with
      | none => simp [Handler.iterate, deliveries, delivery?, decoded]
      | some received =>
          have present : received.clientID ∈ recvByElement := by
            by_contra absent
            exact known ⟨msgBytes, received, rfl, decoded, absent⟩
          simp [Handler.iterate, deliveries, delivery?, decoded, present]

theorem Handler.iterate_eof
    (receiving : handler.status = .receiving) :
    handler.iterate unmarshal inflate recvByElement (.failed .eof) =
      { handler with status := .returned } := by
  simp only [Handler.iterate, receiving]

theorem Handler.iterate_delivered_of_stops
    (stops :
      (handler.iterate unmarshal inflate recvByElement reading).status ≠
        .receiving) :
    (handler.iterate unmarshal inflate recvByElement reading).delivered =
      handler.delivered := by
  by_cases receiving : handler.status = .receiving
  · by_cases unknown : NamesUnknown unmarshal inflate recvByElement reading
    · rw [Handler.iterate_unknown receiving unknown]
    · by_cases live : reading = .failed .eof
      · rw [live, Handler.iterate_eof receiving]
      · rw [Handler.iterate_known receiving live unknown] at stops
        exact absurd rfl stops
  · rw [Handler.iterate_of_ne receiving]

@[simp] theorem serve_nil :
    serve unmarshal inflate recvByElement [] = .new :=
  rfl

theorem serve_snoc
    (readings : List Reading)
    (reading : Reading) :
    serve unmarshal inflate recvByElement (readings ++ [reading]) =
      (serve unmarshal inflate recvByElement readings).iterate
        unmarshal inflate recvByElement reading := by
  simp only [serve, List.foldl_append, List.foldl_cons, List.foldl_nil]

theorem deliveries_append
    (first second : List Reading) :
    deliveries unmarshal inflate recvByElement (first ++ second) =
      deliveries unmarshal inflate recvByElement first ++
        deliveries unmarshal inflate recvByElement second :=
  List.filterMap_append

variable {readings : List Reading}

theorem serve_known
    (live : Reading.failed .eof ∉ readings)
    (known :
      ∀ reading ∈ readings,
        ¬ NamesUnknown unmarshal inflate recvByElement reading) :
    serve unmarshal inflate recvByElement readings =
      { status := .receiving
        delivered := deliveries unmarshal inflate recvByElement readings } := by
  induction readings using List.reverseRecOn with
  | nil => rfl
  | append_singleton readings reading ih =>
      have served := ih
        (fun member => live (List.mem_append_left _ member))
        (fun earlier member => known earlier (List.mem_append_left _ member))
      have last : reading ∈ readings ++ [reading] := by simp
      have open_reading : reading ≠ .failed .eof :=
        fun equal => live (equal ▸ last)
      rw [serve_snoc, served,
        Handler.iterate_known rfl open_reading (known reading last),
        deliveries_append]

theorem serve_unknown
    (live : Reading.failed .eof ∉ readings)
    (unknown :
      ∃ reading ∈ readings,
        NamesUnknown unmarshal inflate recvByElement reading)
    (later : List Reading) :
    (serve unmarshal inflate recvByElement (readings ++ later)).status =
      .blocked := by
  induction later using List.reverseRecOn with
  | nil =>
      rw [List.append_nil]
      induction readings using List.reverseRecOn with
      | nil => simp at unknown
      | append_singleton readings reading ih =>
          have live_before : Reading.failed .eof ∉ readings :=
            fun member => live (List.mem_append_left _ member)
          rw [serve_snoc]
          by_cases earlier :
              ∃ reading ∈ readings,
                NamesUnknown unmarshal inflate recvByElement reading
          · have blocked := ih live_before earlier
            rw [Handler.iterate_of_ne (by simp [blocked])]
            exact blocked
          · have names_unknown :
                NamesUnknown unmarshal inflate recvByElement reading := by
              obtain ⟨found, member, names⟩ := unknown
              rcases List.mem_append.1 member with member | member
              · exact absurd ⟨found, member, names⟩ earlier
              · rwa [List.mem_singleton.1 member] at names
            have receiving := serve_known live_before
              (fun reading member names => earlier ⟨reading, member, names⟩)
            rw [Handler.iterate_unknown (by rw [receiving]) names_unknown]
  | append_singleton later reading ih =>
      rw [← List.append_assoc, serve_snoc,
        Handler.iterate_of_ne (by simp [ih])]
      exact ih

theorem serve_status_of_live
    (live : Reading.failed .eof ∉ readings) :
    (serve unmarshal inflate recvByElement readings).status ≠ .returned := by
  by_cases unknown :
      ∃ reading ∈ readings,
        NamesUnknown unmarshal inflate recvByElement reading
  · have blocked := serve_unknown live unknown []
    rw [List.append_nil] at blocked
    simp [blocked]
  · rw [serve_known live
      (fun reading member names => unknown ⟨reading, member, names⟩)]
    simp

theorem serve_delivered_of_receiving
    (readings : List Reading)
    (receiving :
      (serve unmarshal inflate recvByElement readings).status = .receiving) :
    (serve unmarshal inflate recvByElement readings).delivered =
      deliveries unmarshal inflate recvByElement readings := by
  induction readings using List.reverseRecOn with
  | nil => rfl
  | append_singleton readings reading ih =>
      rw [serve_snoc] at receiving ⊢
      have received_before :
          (serve unmarshal inflate recvByElement readings).status =
            .receiving := by
        by_contra stopped
        rw [Handler.iterate_of_ne stopped] at receiving
        exact stopped receiving
      have known : ¬ NamesUnknown unmarshal inflate recvByElement reading := by
        intro unknown
        rw [Handler.iterate_unknown received_before unknown] at receiving
        simp at receiving
      have live : reading ≠ .failed .eof := by
        rintro rfl
        rw [Handler.iterate_eof received_before] at receiving
        simp at receiving
      rw [Handler.iterate_known received_before live known,
        ih received_before, deliveries_append]

theorem serve_delivered_prefix
    (readings : List Reading) :
    (serve unmarshal inflate recvByElement readings).delivered <+:
      deliveries unmarshal inflate recvByElement readings := by
  induction readings using List.reverseRecOn with
  | nil => exact List.nil_prefix
  | append_singleton readings reading ih =>
      by_cases receiving :
          (serve unmarshal inflate recvByElement
            (readings ++ [reading])).status = .receiving
      · rw [serve_delivered_of_receiving _ receiving]
      · have unchanged :
            (serve unmarshal inflate recvByElement
                (readings ++ [reading])).delivered =
              (serve unmarshal inflate recvByElement readings).delivered := by
          rw [serve_snoc] at receiving ⊢
          exact Handler.iterate_delivered_of_stops receiving
        rw [unchanged, deliveries_append]
        exact ih.trans (List.prefix_append _ _)

/--
The server demultiplexes exactly the connections on which every decodable
message names an element that is served and whose lasting read error is the end
of the input.
-/
theorem handleConnection_demultiplexes_iff
    (unmarshal : Bytes → Option TcpMasterMessage)
    (inflate : Bytes → Option Bytes)
    (recvByElement : Finset OnNodeID)
    (incoming : Incoming) :
    Demultiplexes unmarshal inflate recvByElement incoming ↔
      (∀ reading ∈ incoming.arrivals,
        ¬ NamesUnknown unmarshal inflate recvByElement reading) ∧
      incoming.lasting = .eof := by
  constructor
  · intro demultiplexes
    obtain ⟨count, returned⟩ := demultiplexes.returns
    constructor
    · intro reading member unknown
      have blocked := serve_unknown incoming.live ⟨reading, member, unknown⟩
        (List.replicate count (.failed incoming.lasting))
      rw [Incoming.readings, blocked] at returned
      simp at returned
    · by_contra other
      refine serve_status_of_live ?_ returned
      intro member
      rcases List.mem_append.1 member with member | member
      · exact incoming.live member
      · have lasting := List.eq_of_mem_replicate member
        simp only [Reading.failed.injEq] at lasting
        exact other lasting.symm
  · rintro ⟨known, lasting⟩
    refine ⟨?_, 1, ?_⟩
    · intro before initial onNodeID _
      rw [serve_known
        (fun member => incoming.live (initial.subset member))
        (fun reading member => known reading (initial.subset member))]
    · rw [Incoming.readings, lasting, List.replicate_one, serve_snoc,
        serve_known incoming.live known, Handler.iterate_eof rfl]

/--
A message for element 7 keeps the next one from element 1, the only element of
the node.
-/
theorem unknown_element_silences_node :
    let unmarshal : Bytes → Option TcpMasterMessage := fun msgBytes =>
      (MessagePack.unpack msgBytes).bind TcpMasterMessage.ofValue
    let incoming : Incoming :=
      { arrivals :=
          [.message [0x93, 7, 4, 0x91, 5], .message [0x93, 1, 4, 0x91, 6]]
        lasting := .eof
        live := by decide }
    (sentTo 1 (deliveries unmarshal some {1} incoming.arrivals) = [[6]] ∧
      sentTo 1 (serve unmarshal some {1} incoming.arrivals).delivered = []) ∧
      ¬ Demultiplexes unmarshal some {1} incoming := by
  intro unmarshal incoming
  have lost :
      sentTo 1 (deliveries unmarshal some {1} incoming.arrivals) = [[6]] ∧
        sentTo 1 (serve unmarshal some {1} incoming.arrivals).delivered = [] := by
    decide
  refine ⟨lost, fun demultiplexes => ?_⟩
  have delivered :=
    demultiplexes.delivers incoming.arrivals List.prefix_rfl 1 (by decide)
  rw [lost.1, lost.2] at delivered
  simp at delivered

namespace Node

/-- The receiving end of an element's channel on the node. -/
inductive Stream where
  | listening
  | closed
  deriving Repr, DecidableEq

/-- `Multiplexer::handle_connection`: whether it returned, and what it sent. -/
structure Multiplexer where
  returned : Bool
  delivered : List (UInt32 × Bytes)
  deriving Repr, DecidableEq

def Multiplexer.new : Multiplexer where
  returned := false
  delivered := []

section

variable
  (fromSlice : Bytes → Option TcpMasterMessage)
  (inflate : Bytes → Option Bytes)
  (streams : UInt32 → Option Stream)

/-- The send that a message asks for, for a client that is listening. -/
def delivery? (msg : Bytes) : Option (UInt32 × Bytes) :=
  ((fromSlice msg).bind (receive inflate)).bind fun masterMsg =>
    match streams masterMsg.clientId with
    | some .listening => some (masterMsg.clientId, masterMsg.payload)
    | some .closed => none
    | none => none

/-- One iteration of the node's loop. -/
def Multiplexer.iterate
    (multiplexer : Multiplexer)
    (reading : Reading) : Multiplexer :=
  if multiplexer.returned then multiplexer
  else
    match reading with
    | .failed _ => { multiplexer with returned := true }
    | .message msg =>
        match (fromSlice msg).bind (receive inflate) with
        | none => multiplexer
        | some masterMsg =>
            match streams masterMsg.clientId with
            | none => multiplexer
            | some .closed => multiplexer
            | some .listening =>
                { multiplexer with
                  delivered := multiplexer.delivered ++
                    [(masterMsg.clientId, masterMsg.payload)] }

/-- The node's loop after the readings. -/
def handleConnection (readings : List Reading) : Multiplexer :=
  readings.foldl (Multiplexer.iterate fromSlice inflate streams) .new

end

variable
  {fromSlice : Bytes → Option TcpMasterMessage}
  {inflate : Bytes → Option Bytes}
  {streams : UInt32 → Option Stream}

theorem Multiplexer.iterate_message
    {multiplexer : Multiplexer}
    (running : multiplexer.returned = false)
    (msg : Bytes) :
    multiplexer.iterate fromSlice inflate streams (.message msg) =
      { multiplexer with
        delivered := multiplexer.delivered ++
          (delivery? fromSlice inflate streams msg).toList } := by
  rcases multiplexer with ⟨returned, delivered⟩
  obtain rfl : returned = false := running
  simp only [iterate, delivery?, Bool.false_eq_true, if_false]
  cases decoded : (fromSlice msg).bind (receive inflate) with
  | none => simp
  | some masterMsg =>
      cases stream : streams masterMsg.clientId with
      | none => simp [stream]
      | some stream_state =>
          cases stream_state with
          | listening => simp [stream]
          | closed => simp [stream]

theorem handleConnection_demultiplexes
    (msgs : List Bytes)
    (err : ReadError)
    (later : List Reading) :
    handleConnection fromSlice inflate streams
        (msgs.map .message ++ .failed err :: later) =
      { returned := true
        delivered :=
          msgs.filterMap (delivery? fromSlice inflate streams) } := by
  have delivered :
      handleConnection fromSlice inflate streams (msgs.map .message) =
        { returned := false
          delivered :=
            msgs.filterMap (delivery? fromSlice inflate streams) } := by
    induction msgs using List.reverseRecOn with
    | nil => rfl
    | append_singleton msgs msg ih =>
        rw [handleConnection] at ih ⊢
        rw [List.map_append, List.foldl_append, ih,
          List.map_singleton, List.foldl_cons, List.foldl_nil,
          Multiplexer.iterate_message rfl, List.filterMap_append]
        cases asked : delivery? fromSlice inflate streams msg with
        | none => simp [asked]
        | some delivery => simp [asked]
  rw [handleConnection] at delivered ⊢
  rw [List.foldl_append, delivered, List.foldl_cons]
  induction later with
  | nil => rfl
  | cons reading later ih => exact ih

end Node

end MeFuzz.Tcp
