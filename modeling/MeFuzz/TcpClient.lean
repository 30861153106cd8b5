import MeFuzz.TcpWireAgreement

namespace MeFuzz.Tcp.Client

open MessagePack

/-!
# What the client writes

Next to the server, the master has a client that connects to nodes.  It calls
the same `Compress`, but decides by itself whether the result was compressed.
-/

/-- `masterClientID`, `math.MaxInt16`. -/
def masterClientID : UInt32 := 2 ^ 15 - 1

/-- The record that `Handle` marshals for a marshalled testcase, and writes. -/
def tcpMasterMsg (deflate : Bytes → Bytes) (msgBytes : Bytes) : TcpMasterMessage :=
  let compressed := (compress deflate msgBytes).1
  let flags := Flags.master
  let flags :=
    if compressed.length ≠ msgBytes.length then
      Flags.add flags Flags.compressed
    else flags
  { clientID := masterClientID
    flags := flags.toUInt32
    payload := bytesToInts compressed }

/-- The node takes a record apart and finds this payload. -/
def Recovers
    (inflate : Bytes → Option Bytes)
    (msg : TcpMasterMessage)
    (payload : Bytes) : Prop :=
  ∃ received,
    (Node.TcpMasterMessage.ofValue msg.toValue).bind (Node.receive inflate) =
        some received ∧
      received.payload = payload

/--
The flag says whether the body is what the compressor returned, and the node
recovers the payload.
-/
def TellsTheTruth
    (deflate : Bytes → Bytes)
    (inflate : Bytes → Option Bytes)
    (payload : Bytes) : Prop :=
  (Flags.has (tcpMasterMsg deflate payload).flags.toUInt8 Flags.compressed =
        true ↔
      (compress deflate payload).2 = true) ∧
    Recovers inflate (tcpMasterMsg deflate payload) payload

theorem has_compressed_tcpMasterMsg
    (deflate : Bytes → Bytes)
    (payload : Bytes) :
    Flags.has (tcpMasterMsg deflate payload).flags.toUInt8 Flags.compressed =
        true ↔
      (compress deflate payload).1.length ≠ payload.length := by
  unfold tcpMasterMsg
  dsimp only
  split
  · rename_i differ
    exact iff_of_true rfl differ
  · rename_i same
    exact iff_of_false (by decide) same

theorem receive_tcpMasterMsg
    (deflate : Bytes → Bytes)
    (inflate : Bytes → Option Bytes)
    (payload : Bytes) :
    ((Node.TcpMasterMessage.ofValue (tcpMasterMsg deflate payload).toValue).bind
        (Node.receive inflate)).map Node.TcpMasterMessage.payload =
      if (compress deflate payload).1.length ≠ payload.length then
        inflate (compress deflate payload).1
      else some (compress deflate payload).1 := by
  have marked := has_compressed_tcpMasterMsg deflate payload
  rw [has_compressed_of_node] at marked
  have unpacked :=
    Node.ofValue_toValue masterClientID (tcpMasterMsg deflate payload).flags
      (compress deflate payload).1
  rw [show tcpMasterMsg deflate payload =
      { clientID := masterClientID
        flags := (tcpMasterMsg deflate payload).flags
        payload := bytesToInts (compress deflate payload).1 } from rfl,
    unpacked, Option.bind_some, Node.receive]
  by_cases differ : (compress deflate payload).1.length ≠ payload.length
  · rw [if_pos (marked.mpr differ), if_pos differ, Option.map_map]
    cases inflate (compress deflate payload).1 with
    | none =>
        rfl
    | some data =>
        rfl
  · rw [if_neg (fun isMarked => differ (marked.mp isMarked)), if_neg differ]
    rfl

/--
With libraries that invert each other, the client tells the truth about every
payload but those that the compressor turns into as many bytes.
-/
theorem tellsTheTruth_iff
    {deflate : Bytes → Bytes}
    {inflate : Bytes → Option Bytes}
    (inflates : ∀ data, inflate (deflate data) = some data)
    (payload : Bytes) :
    TellsTheTruth deflate inflate payload ↔
      ¬(threshold ≤ payload.length ∧
        (deflate payload).length = payload.length) := by
  rw [TellsTheTruth, has_compressed_tcpMasterMsg]
  have received := receive_tcpMasterMsg deflate inflate payload
  by_cases short : payload.length < threshold
  · have isPlain : compress deflate payload = (payload, false) := by
      rw [compress, if_pos short]
    rw [isPlain] at received ⊢
    obtain ⟨msg, isMsg, isPayload⟩ :=
      Option.map_eq_some_iff.mp (received.trans (if_neg (by simp)))
    refine iff_of_true ⟨by simp, msg, isMsg, isPayload⟩ ?_
    omega
  · have isDeflated : compress deflate payload = (deflate payload, true) := by
      rw [compress, if_neg short]
    rw [isDeflated] at received ⊢
    by_cases same : (deflate payload).length = payload.length
    · refine iff_of_false ?_ ?_
      · intro truth
        exact truth.1.mpr rfl same
      · intro differ
        exact differ ⟨by omega, same⟩
    · rw [if_pos same, inflates] at received
      obtain ⟨msg, isMsg, isPayload⟩ := Option.map_eq_some_iff.mp received
      exact iff_of_true ⟨by simp [same], msg, isMsg, isPayload⟩
        (fun equal => same equal.2)

/-- A short payload is sent as it is. -/
theorem tellsTheTruth_iff_short_payload :
    TellsTheTruth id some [5, 200] ↔
      ¬(threshold ≤ [5, 200].length ∧
        (id [5, 200] : Bytes).length = [5, 200].length) :=
  tellsTheTruth_iff (fun _ => rfl) [5, 200]

theorem one_before_zeros (n : Nat) :
    (1 :: List.replicate (n + 1) 0 : Bytes) ≠
      (1 :: List.replicate (n + 1) 0 : Bytes).reverse := by
  intro same
  have heads := congrArg List.head? same
  rw [List.head?_reverse, List.getLast?_cons, List.getLast?_replicate] at heads
  simp at heads

/--
A compressor that returns as many bytes as it was given: what it returned goes
out unmarked, and the node takes it for the payload.
-/
theorem as_many_bytes_go_out_unmarked :
    ∃ (deflate : Bytes → Bytes) (inflate : Bytes → Option Bytes)
        (payload : Bytes),
      (∀ data, inflate (deflate data) = some data) ∧
        ¬TellsTheTruth deflate inflate payload ∧
        ¬Recovers inflate (tcpMasterMsg deflate payload) payload := by
  obtain ⟨payload, long, differs⟩ :
      ∃ payload : Bytes,
        payload.length = 1024 ∧ payload ≠ payload.reverse :=
    ⟨1 :: List.replicate 1023 0, by
      rw [List.length_cons, List.length_replicate], one_before_zeros 1022⟩
  have isDeflated :
      compress List.reverse payload = (payload.reverse, true) := by
    rw [compress, if_neg (by rw [long]; decide)]
  refine ⟨List.reverse, fun data => some data.reverse, payload,
    fun data => congrArg some data.reverse_reverse, ?_, ?_⟩
  · intro truth
    rw [TellsTheTruth, has_compressed_tcpMasterMsg, isDeflated] at truth
    exact truth.1.mpr rfl List.length_reverse
  · rintro ⟨received, isReceived, isPayload⟩
    have unmarked :=
      receive_tcpMasterMsg List.reverse (fun data => some data.reverse) payload
    rw [isReceived, isDeflated, if_neg (by simp)] at unmarked
    exact differs (isPayload.symm.trans (Option.some.inj unmarked))

end MeFuzz.Tcp.Client
