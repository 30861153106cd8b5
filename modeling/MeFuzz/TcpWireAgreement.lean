import MeFuzz.TcpFraming
import MeFuzz.TcpServer

namespace MeFuzz.Tcp

open ByteStream MessagePack

/-!
# Master and node agree on the wire

What either side sends, the other delivers to the same element with the same
payload, whether or not the sender compressed it.  Each direction needs only
that the reader's libraries undo what the writer's libraries did.
-/

namespace Flags

theorem has_compressed_iff (f : Flags) :
    has f compressed = true ↔ f.toNat % 2 = 1 := by
  rw [has, beq_iff_eq, eq_comm, ← UInt8.toNat_inj, UInt8.toNat_and]
  simp [compressed]

theorem has_add_compressed (f : Flags) :
    has (add f compressed) compressed = true := by
  rw [has_compressed_iff, add, UInt8.toNat_or, Nat.or_mod_two_eq_one]
  exact Or.inr (by decide)

theorem has_add_master (f : Flags) :
    has (add f master) compressed = has f compressed := by
  rw [Bool.eq_iff_iff, has_compressed_iff, has_compressed_iff, add,
    UInt8.toNat_or, Nat.or_mod_two_eq_one]
  simp [master]

end Flags

namespace Node

theorem has_compressed_iff (flags : UInt32) :
    flags &&& llmpFlagCompressed = llmpFlagCompressed ↔
      flags.toNat % 2 = 1 := by
  rw [← UInt32.toNat_inj, UInt32.toNat_and]
  simp [llmpFlagCompressed]

theorem has_or_compressed (flags : UInt32) :
    (flags ||| llmpFlagCompressed) &&& llmpFlagCompressed =
      llmpFlagCompressed := by
  rw [has_compressed_iff, UInt32.toNat_or, Nat.or_mod_two_eq_one]
  exact Or.inr (by decide)

theorem has_or_b2m_iff (flags : UInt32) :
    (flags ||| llmpFlagB2M) &&& llmpFlagCompressed = llmpFlagCompressed ↔
      flags &&& llmpFlagCompressed = llmpFlagCompressed := by
  rw [has_compressed_iff, has_compressed_iff, UInt32.toNat_or,
    Nat.or_mod_two_eq_one]
  simp [llmpFlagB2M]

end Node

theorem has_compressed_of_node (flags : UInt32) :
    Flags.has flags.toUInt8 Flags.compressed = true ↔
      flags &&& Node.llmpFlagCompressed = Node.llmpFlagCompressed := by
  rw [Flags.has_compressed_iff, Node.has_compressed_iff, UInt32.toNat_toUInt8]
  omega

theorem node_has_compressed_of_master (flags : Flags) :
    flags.toUInt32 &&& Node.llmpFlagCompressed = Node.llmpFlagCompressed ↔
      Flags.has flags Flags.compressed = true := by
  rw [Node.has_compressed_iff, Flags.has_compressed_iff, UInt8.toNat_toUInt32]

/-- The flags agree on every bit but the one for compression. -/
def AgreeApartFromCompressed (first second : UInt32) : Prop :=
  first &&& ~~~ Node.llmpFlagCompressed =
    second &&& ~~~ Node.llmpFlagCompressed

theorem agree_or_compressed (flags : UInt32) :
    AgreeApartFromCompressed (flags ||| Node.llmpFlagCompressed) flags := by
  rw [AgreeApartFromCompressed, ← UInt32.toBitVec_inj]
  ext bit inside
  simp [Bool.and_or_distrib_right]

@[simp] theorem uint8_ofInt_toNat (byte : UInt8) :
    UInt8.ofInt (byte.toNat : Int) = byte := by
  have bound := byte.toNat_lt
  rw [UInt8.ofInt, Int.emod_eq_of_lt (by omega) (by omega), Int.toNat_natCast,
    UInt8.ofNat_toNat]

@[simp] theorem uint32_ofInt_toNat (field : UInt32) :
    UInt32.ofInt (field.toNat : Int) = field := by
  have bound := field.toNat_lt
  rw [UInt32.ofInt, Int.emod_eq_of_lt (by omega) (by omega), Int.toNat_natCast,
    UInt32.ofNat_toNat]

/-- Bytes survive the master's detour over `int`. -/
@[simp] theorem intsToBytes_bytesToInts (bytes : Bytes) :
    intsToBytes (bytesToInts bytes) = bytes := by
  simp only [intsToBytes, bytesToInts, List.map_map]
  conv_rhs => rw [← List.map_id bytes]
  exact List.map_congr_left fun byte _ => uint8_ofInt_toNat byte

theorem Node.ofValue_toValue
    (onNodeID : OnNodeID)
    (flags : UInt32)
    (payload : Bytes) :
    Node.TcpMasterMessage.ofValue
        (Tcp.TcpMasterMessage.toValue
          { clientID := onNodeID
            flags := flags
            payload := bytesToInts payload }) =
      some { clientId := onNodeID, flags := flags, payload := payload } := by
  have readBack : (Value.ofInts (bytesToInts payload)).bytes? = some payload :=
    Value.bytes?_ofBytes payload
  have id_bound := onNodeID.toNat_lt
  have flags_bound := flags.toNat_lt
  have fits :
      (0 : Int) ≤ onNodeID.toNat ∧ (onNodeID.toNat : Int) < 2 ^ 32 ∧
        (0 : Int) ≤ flags.toNat ∧ (flags.toNat : Int) < 2 ^ 32 := by
    omega
  simp only [Tcp.TcpMasterMessage.toValue, TcpMasterMessage.ofValue,
    if_pos fits, readBack, Option.map_some, uint32_ofInt_toNat]

theorem ofValue_node_toValue (msg : Node.TcpMasterMessage) :
    TcpMasterMessage.ofValue msg.toValue =
      some
        { clientID := msg.clientId
          flags := msg.flags
          payload := bytesToInts msg.payload } := by
  simp [Node.TcpMasterMessage.toValue, TcpMasterMessage.ofValue,
    Value.ofBytes, bytesToInts]

theorem encodable_send
    {deflate : Bytes → Bytes}
    {msg : Bytes}
    (short : (compress deflate msg).1.length < 2 ^ 32)
    (onNodeID : OnNodeID)
    (flags : Flags) :
    MessagePack.Encodable (send deflate onNodeID flags msg).toValue := by
  have id_bound := (send deflate onNodeID flags msg).clientID.toNat_lt
  have flags_bound := (send deflate onNodeID flags msg).flags.toNat_lt
  exact ⟨by simp, ⟨by omega, by omega⟩, ⟨by omega, by omega⟩,
    Value.encodable_ofBytes short, trivial⟩

theorem Node.encodable_toValue
    {msg : Node.TcpMasterMessage}
    (short : msg.payload.length < 2 ^ 32) :
    MessagePack.Encodable msg.toValue := by
  have id_bound := msg.clientId.toNat_lt
  have flags_bound := msg.flags.toNat_lt
  exact ⟨by simp, ⟨by omega, by omega⟩, ⟨by omega, by omega⟩,
    Value.encodable_ofBytes short, trivial⟩

variable {goDeflate : Bytes → Bytes}
variable {flags : Flags}

theorem Node.receive_send
    {inflate : Bytes → Option Bytes}
    (inflates : ∀ data, inflate (goDeflate data) = some data)
    (onNodeID : OnNodeID)
    (uncompressed : Flags.has flags Flags.compressed = false)
    (msg : Bytes) :
    ∃ received,
      (Node.TcpMasterMessage.ofValue
          (send goDeflate onNodeID flags msg).toValue).bind
        (Node.receive inflate) = some received ∧
      received.clientId = onNodeID ∧ received.payload = msg := by
  by_cases short : msg.length < threshold
  · have plain :
        ¬ (Flags.add flags Flags.master).toUInt32 &&&
            Node.llmpFlagCompressed = Node.llmpFlagCompressed := by
      rw [node_has_compressed_of_master, Flags.has_add_master, uncompressed]
      simp
    simp only [send, Tcp.compress, if_pos short, Bool.false_eq_true, if_false]
    rw [Node.ofValue_toValue, Option.bind_some, Node.receive, if_neg plain]
    exact ⟨_, rfl, rfl, rfl⟩
  · have marked :
        (Flags.add (Flags.add flags Flags.master)
            Flags.compressed).toUInt32 &&&
            Node.llmpFlagCompressed = Node.llmpFlagCompressed := by
      rw [node_has_compressed_of_master, Flags.has_add_compressed]
    simp only [send, Tcp.compress, if_neg short, if_true]
    rw [Node.ofValue_toValue, Option.bind_some, Node.receive, if_pos marked,
      inflates]
    exact ⟨_, rfl, rfl, rfl⟩

theorem receive_sendMsg
    {rustDeflate : Bytes → Bytes}
    {inflate : Bytes → Option Bytes}
    (inflates : ∀ data, inflate (rustDeflate data) = some data)
    (onNodeId : UInt32)
    {flags : UInt32}
    (uncompressed :
      flags &&& Node.llmpFlagCompressed ≠ Node.llmpFlagCompressed)
    (msg : Bytes) :
    ∃ received,
      (TcpMasterMessage.ofValue
          (Node.sendMsg rustDeflate msg onNodeId flags).toValue).bind
        (receive inflate) = some received ∧
      received.clientID = onNodeId ∧ received.payload = msg ∧
        AgreeApartFromCompressed received.flags
          (flags ||| Node.llmpFlagB2M) := by
  have plain :
      (flags ||| Node.llmpFlagB2M) &&& Node.llmpFlagCompressed ≠
        Node.llmpFlagCompressed := by
    rw [Ne, Node.has_or_b2m_iff]
    exact uncompressed
  by_cases long : Node.gzipThreshold ≤ msg.length
  · simp only [Node.sendMsg, if_pos plain, Node.compress, if_pos long]
    rw [ofValue_node_toValue, Option.bind_some, receive,
      if_pos ((has_compressed_of_node _).mpr (Node.has_or_compressed _)),
      intsToBytes_bytesToInts, inflates]
    exact ⟨_, rfl, rfl, rfl, agree_or_compressed _⟩
  · simp only [Node.sendMsg, if_pos plain, Node.compress, if_neg long]
    rw [ofValue_node_toValue, Option.bind_some, receive,
      if_neg (fun marked => plain ((has_compressed_of_node _).mp marked)),
      intsToBytes_bytesToInts]
    exact ⟨_, rfl, rfl, rfl, rfl⟩

/-- The reader's libraries undo the writer's: msgpack on this value, zlib always. -/
structure LibrariesInvert
    (pack : Value → Bytes)
    (unpack : Bytes → Option Value)
    (deflate : Bytes → Bytes)
    (inflate : Bytes → Option Bytes)
    (written : Value) : Prop where
  unpacks : unpack (pack written) = some written
  inflates : ∀ data, inflate (deflate data) = some data

/-- `converter.Unmarshal` into the master's record. -/
def unmarshalWith
    (unpack : Bytes → Option Value)
    (msgBytes : Bytes) : Option TcpMasterMessage :=
  (unpack msgBytes).bind TcpMasterMessage.ofValue

/-- `rmp_serde::from_slice` into the node's record. -/
def Node.fromSliceWith
    (unpack : Bytes → Option Value)
    (msg : Bytes) : Option Node.TcpMasterMessage :=
  (unpack msg).bind Node.TcpMasterMessage.ofValue

/-- The node's running loop hands the payload to the listening client of that id. -/
def Node.Delivers
    (unpack : Bytes → Option Value)
    (inflate : Bytes → Option Bytes)
    (msg : Bytes)
    (onNodeId : UInt32)
    (payload : Bytes) : Prop :=
  ∀ (streams : UInt32 → Option Stream) (multiplexer : Multiplexer),
    streams onNodeId = some .listening →
      multiplexer.returned = false →
        multiplexer.iterate (fromSliceWith unpack) inflate streams
            (.message msg) =
          { multiplexer with
            delivered := multiplexer.delivered ++ [(onNodeId, payload)] }

/--
The master's loop decodes the message to these flags, and hands the payload to
the element of that id.
-/
def Delivers
    (unpack : Bytes → Option Value)
    (inflate : Bytes → Option Bytes)
    (msgBytes : Bytes)
    (onNodeID : OnNodeID)
    (flags : UInt32)
    (payload : Bytes) : Prop :=
  (∃ received,
    decode (unmarshalWith unpack) inflate msgBytes = some received ∧
      received.clientID = onNodeID ∧ received.payload = payload ∧
        AgreeApartFromCompressed received.flags flags) ∧
  ∀ (recvByElement : Finset OnNodeID) (handler : Handler),
    onNodeID ∈ recvByElement →
      handler.status = .receiving →
        handler.iterate (unmarshalWith unpack) inflate recvByElement
            (.message msgBytes) =
          { handler with
            delivered := handler.delivered ++ [(onNodeID, payload)] }

variable {payload : Bytes}

theorem Node.delivery?_send
    {goPack : Value → Bytes}
    {rustUnpack : Bytes → Option Value}
    {rustInflate : Bytes → Option Bytes}
    {onNodeID : OnNodeID}
    (invert :
      LibrariesInvert goPack rustUnpack goDeflate rustInflate
        (send goDeflate onNodeID flags payload).toValue)
    (uncompressed : Flags.has flags Flags.compressed = false)
    (streams : UInt32 → Option Stream) :
    delivery? (fromSliceWith rustUnpack) rustInflate streams
        (goPack (send goDeflate onNodeID flags payload).toValue) =
      if streams onNodeID = some .listening then some (onNodeID, payload)
      else none := by
  obtain ⟨received, decoded, same_id, same_payload⟩ :=
    receive_send invert.inflates onNodeID uncompressed payload
  rw [delivery?, fromSliceWith, invert.unpacks, Option.bind_some, decoded,
    Option.bind_some, same_id, same_payload]
  cases streams onNodeID with
  | none => simp
  | some stream =>
      cases stream with
      | listening => simp
      | closed => simp

theorem Node.delivers_send
    {goPack : Value → Bytes}
    {rustUnpack : Bytes → Option Value}
    {rustInflate : Bytes → Option Bytes}
    {onNodeID : OnNodeID}
    (invert :
      LibrariesInvert goPack rustUnpack goDeflate rustInflate
        (send goDeflate onNodeID flags payload).toValue)
    (uncompressed : Flags.has flags Flags.compressed = false) :
    Node.Delivers rustUnpack rustInflate
      (goPack (send goDeflate onNodeID flags payload).toValue)
      onNodeID payload := by
  intro streams multiplexer listening running
  rw [Node.Multiplexer.iterate_message running,
    Node.delivery?_send invert uncompressed, if_pos listening]
  rfl

theorem delivers_sendMsg
    {rustPack : Value → Bytes}
    {goUnpack : Bytes → Option Value}
    {rustDeflate : Bytes → Bytes}
    {goInflate : Bytes → Option Bytes}
    {onNodeId : UInt32}
    {flags : UInt32}
    (invert :
      LibrariesInvert rustPack goUnpack rustDeflate goInflate
        (Node.sendMsg rustDeflate payload onNodeId flags).toValue)
    (uncompressed :
      flags &&& Node.llmpFlagCompressed ≠ Node.llmpFlagCompressed) :
    Delivers goUnpack goInflate
      (rustPack (Node.sendMsg rustDeflate payload onNodeId flags).toValue)
      onNodeId (flags ||| Node.llmpFlagB2M) payload := by
  obtain ⟨received, decoded, same_id, same_payload, same_flags⟩ :=
    receive_sendMsg invert.inflates onNodeId uncompressed payload
  have read :
      decode (unmarshalWith goUnpack) goInflate
          (rustPack
            (Node.sendMsg rustDeflate payload onNodeId flags).toValue) =
        some received := by
    simp only [decode, unmarshalWith, invert.unpacks, Option.bind_some,
      decoded]
  refine ⟨⟨received, read, same_id, same_payload, same_flags⟩, ?_⟩
  intro recvByElement handler present receiving
  simp only [Handler.iterate, receiving, read, same_id, same_payload,
    if_pos present]

/--
What the master sends is delivered by the node to the client of the same id
with the same payload; what the node sends is delivered by the master to the
element of the same id with the same payload, and with the same flags apart
from the one for compression.
-/
theorem master_and_node_agree
    {goPack rustPack : Value → Bytes}
    {goUnpack rustUnpack : Bytes → Option Value}
    {goDeflate rustDeflate : Bytes → Bytes}
    {goInflate rustInflate : Bytes → Option Bytes}
    {onNodeID : OnNodeID}
    {flags : Flags}
    {nodeFlags : UInt32}
    {payload : Bytes}
    (to_node :
      LibrariesInvert goPack rustUnpack goDeflate rustInflate
        (send goDeflate onNodeID flags payload).toValue)
    (to_master :
      LibrariesInvert rustPack goUnpack rustDeflate goInflate
        (Node.sendMsg rustDeflate payload onNodeID nodeFlags).toValue)
    (uncompressed : Flags.has flags Flags.compressed = false)
    (node_uncompressed :
      nodeFlags &&& Node.llmpFlagCompressed ≠ Node.llmpFlagCompressed) :
    Node.Delivers rustUnpack rustInflate
        (goPack (send goDeflate onNodeID flags payload).toValue)
        onNodeID payload ∧
      Delivers goUnpack goInflate
        (rustPack
          (Node.sendMsg rustDeflate payload onNodeID nodeFlags).toValue)
        onNodeID (nodeFlags ||| Node.llmpFlagB2M) payload :=
  ⟨Node.delivers_send to_node uncompressed,
    delivers_sendMsg to_master node_uncompressed⟩

/-- A short payload in both directions, with the real message format. -/
theorem master_and_node_agree_short_payload :
    Node.Delivers unpack some (pack (send id 3 8 [5, 200]).toValue)
        3 [5, 200] ∧
      Delivers unpack some
        (pack (Node.sendMsg id [5, 200] 3 8).toValue) 3 (8 ||| 4) [5, 200] :=
  master_and_node_agree
    ⟨unpack_pack (encodable_send (by decide) 3 8), fun _ => rfl⟩
    ⟨unpack_pack (Node.encodable_toValue (by decide)), fun _ => rfl⟩
    (by decide) (by decide)

/-- The arguments of one `send` of the master. -/
structure Sent where
  onNodeID : OnNodeID
  flags : Flags
  payload : Bytes
  deriving Repr, DecidableEq

/-- The bytes that one `send` hands to `SendMessage`. -/
def Sent.encoded
    (goPack : Value → Bytes)
    (goDeflate : Bytes → Bytes)
    (sent : Sent) : Bytes :=
  goPack (send goDeflate sent.onNodeID sent.flags sent.payload).toValue

/--
Everything the master sends over a connection reaches the listening clients of
the node, once and in order, however the stream is cut into chunks.
-/
theorem node_delivers_what_master_sent
    {goPack : Value → Bytes}
    {rustUnpack : Bytes → Option Value}
    {goDeflate : Bytes → Bytes}
    {rustInflate : Bytes → Option Bytes}
    {sends : List Sent}
    {chunks : Chunks}
    (invert :
      ∀ sent ∈ sends,
        LibrariesInvert goPack rustUnpack goDeflate rustInflate
          (send goDeflate sent.onNodeID sent.flags sent.payload).toValue)
    (uncompressed :
      ∀ sent ∈ sends, Flags.has sent.flags Flags.compressed = false)
    (bounds :
      ∀ sent ∈ sends, (sent.encoded goPack goDeflate).length < 2 ^ 32)
    (nonempty : NoEmptyChunk chunks)
    (stream :
      chunks.flatten = frames (sends.map (Sent.encoded goPack goDeflate)))
    (streams : UInt32 → Option Node.Stream)
    (err : ReadError) :
    ∃ msgs,
      Receives recvTcpMsg chunks msgs ∧
        Node.handleConnection (Node.fromSliceWith rustUnpack) rustInflate
            streams (msgs.map .message ++ [.failed err]) =
          { returned := true
            delivered :=
              (sends.filter fun sent =>
                streams sent.onNodeID = some .listening).map fun sent =>
                  (sent.onNodeID, sent.payload) } := by
  refine ⟨sends.map (Sent.encoded goPack goDeflate),
    recvTcpMsg_receives nonempty stream ?_, ?_⟩
  · intro encoded member
    obtain ⟨sent, sent_member, rfl⟩ := List.mem_map.mp member
    exact bounds sent sent_member
  · rw [Node.handleConnection_demultiplexes]
    congr 1
    clear stream bounds
    induction sends with
    | nil => rfl
    | cons sent sends ih =>
        have delivered := ih
          (fun later member => invert later (List.mem_cons_of_mem _ member))
          (fun later member => uncompressed later (List.mem_cons_of_mem _ member))
        have first := Node.delivery?_send (invert sent List.mem_cons_self)
          (uncompressed sent List.mem_cons_self) streams
        rw [List.map_cons, List.filterMap_cons, Sent.encoded, first, delivered]
        by_cases listening : streams sent.onNodeID = some .listening
        · simp [listening]
        · simp [listening]

theorem node_delivers_short_payload :
    ∃ msgs,
      Receives recvTcpMsg [frames [pack (send id 3 8 [5, 200]).toValue]] msgs ∧
        Node.handleConnection (Node.fromSliceWith unpack) some
            (fun _ => some .listening) (msgs.map .message ++ [.failed .eof]) =
          { returned := true, delivered := [(3, [5, 200])] } :=
  @node_delivers_what_master_sent pack unpack id some [⟨3, 8, [5, 200]⟩] _
    (List.forall_mem_singleton.mpr
      ⟨unpack_pack (encodable_send (by decide) 3 8), fun _ => rfl⟩)
    (List.forall_mem_singleton.mpr (by decide))
    (List.forall_mem_singleton.mpr (by decide +kernel))
    (List.forall_mem_singleton.mpr (List.cons_ne_nil _ _))
    (List.append_nil _) (fun _ => some .listening) .eof

end MeFuzz.Tcp
