import MeFuzz.ByteStream

namespace MeFuzz.Tcp

open ByteStream

/-!
# Length-prefixed frames on a TCP connection

The master writes every message as a four-byte big-endian length followed by
the message.  Its reader fills the body with a loop of reads, but takes the
header with a single read, so it depends on how the stream is cut into chunks.
The node's reader fills both.
-/

/-- The bytes that `SendMessage` writes: `uint32(len(msg))`, then the body. -/
def sendMessage (msg : Bytes) : Bytes :=
  BigEndian.encode 4 msg.length ++ msg

/--
`RecvMessage`: one read into a zeroed four-byte buffer, then reads until the
body is complete.  `none` is the error of a read at the end of the stream.
-/
def recvMessage (chunks : Chunks) : Option (Bytes × Chunks) :=
  match readOnce 4 chunks with
  | none => none
  | some (got, rest) =>
      let msgLenBytes := got ++ List.replicate (4 - got.length) 0
      readFull (BigEndian.decode msgLenBytes) rest

/-- The node's `recv_tcp_msg`: both parts are read to the full. -/
def recvTcpMsg (chunks : Chunks) : Option (Bytes × Chunks) :=
  match readFull 4 chunks with
  | none => none
  | some (sizeBytes, rest) =>
      readFull (BigEndian.decode sizeBytes) rest

/-- One successful call of a message reader. -/
def receiveStep
    (receive : Chunks → Option (Bytes × Chunks)) :
    StepRelation Chunks Bytes :=
  fun chunks msg rest => receive chunks = some (msg, rest)

/-- Successive calls return exactly these messages, and then no other. -/
def Receives
    (receive : Chunks → Option (Bytes × Chunks))
    (chunks : Chunks)
    (msgs : List Bytes) : Prop :=
  ∃ final,
    Run (receiveStep receive) chunks msgs final ∧
      receive final = none

/-- The byte stream of a list of messages. -/
def frames (payloads : List Bytes) : Bytes :=
  payloads.flatMap sendMessage

/--
No chunk boundary falls inside a frame header: the chunk in which each frame
starts holds its whole header.
-/
def HeadersWhole : List Bytes → Chunks → Prop
  | [], _ => True
  | payload :: rest, chunks =>
      4 ≤ (chunks.headD []).length ∧
        HeadersWhole rest (skip payload.length (skip 4 chunks))

@[simp] theorem frames_cons
    (payload : Bytes)
    (rest : List Bytes) :
    frames (payload :: rest) =
      BigEndian.encode 4 payload.length ++ (payload ++ frames rest) := by
  simp [frames, sendMessage]

/--
A list whose every entry is a fixed value, or a copy of an earlier entry,
holds that value throughout.
-/
theorem eq_replicate_of_copied
    {items : List β}
    {value : β}
    (copied :
      ∀ index, index < items.length →
        items[index]? = some value ∨
          ∃ earlier, earlier < index ∧
            items[index]? = items[earlier]?) :
    items = List.replicate items.length value := by
  have everywhere :
      ∀ index, index < items.length →
        items[index]? = some value := by
    intro index
    induction index using Nat.strongRecOn with
    | _ index ih =>
        intro inRange
        rcases copied index inRange with isValue | ⟨earlier, before, same⟩
        · exact isValue
        · exact same.trans
            (ih earlier before (by omega))
  apply List.eq_replicate_of_mem
  intro item member
  obtain ⟨index, inRange, rfl⟩ := List.getElem_of_mem member
  have entry := everywhere index inRange
  rw [List.getElem?_eq_getElem inRange] at entry
  exact Option.some.inj entry

/-- What one call of `RecvMessage` read from a stream without empty chunks. -/
structure RecvSpec
    (chunks : Chunks)
    (msg : Bytes)
    (final : Chunks)
    (got : Bytes)
    (rest : Chunks) : Prop where
  header : ReadSpec 4 chunks got rest
  length_eq :
    BigEndian.decode (got ++ List.replicate (4 - got.length) 0) =
      msg.length
  body_eq : rest.flatten = msg ++ final.flatten
  final_eq : final = skip msg.length rest

/-- Every successful call of `RecvMessage` meets its specification. -/
theorem recvMessage_spec
    {chunks final : Chunks}
    {msg : Bytes}
    (nonempty : NoEmptyChunk chunks)
    (received : recvMessage chunks = some (msg, final)) :
    ∃ got rest, RecvSpec chunks msg final got rest := by
  unfold recvMessage at received
  cases taken : readOnce 4 chunks with
  | none =>
      simp [taken] at received
  | some result =>
      obtain ⟨got, rest⟩ := result
      have header := readOnce_spec (by omega) nonempty taken
      simp only [taken, readFull_eq] at received
      split at received
      · rename_i enough
        simp only [Option.some.injEq, Prod.mk.injEq] at received
        obtain ⟨rfl, rfl⟩ := received
        refine ⟨got, rest, header, ?_, ?_, ?_⟩
        · simp only [List.length_take]
          omega
        · simp
        · congr 1
          simp only [List.length_take]
          omega
      · cases received

variable {chunks final rest : Chunks}

theorem RecvSpec.padded_eq
    {msg got : Bytes}
    (spec : RecvSpec chunks msg final got rest) :
    got ++ List.replicate (4 - got.length) 0 =
      BigEndian.encode 4 msg.length := by
  have short : got.length ≤ 4 := by
    rw [spec.header.length_eq]
    omega
  have fourBytes :
      (got ++ List.replicate (4 - got.length) (0 : UInt8)).length = 4 := by
    simp
    omega
  have recovered :=
    BigEndian.encode_decode (got ++ List.replicate (4 - got.length) 0)
  rw [fourBytes, spec.length_eq] at recovered
  exact recovered.symm

/-- A received body is shorter than `2 ^ 32` bytes. -/
theorem RecvSpec.length_lt
    {msg got : Bytes}
    (spec : RecvSpec chunks msg final got rest) :
    msg.length < 2 ^ 32 := by
  have short : got.length ≤ 4 := by
    rw [spec.header.length_eq]
    omega
  have bound :=
    BigEndian.decode_lt (got ++ List.replicate (4 - got.length) 0)
  have fourBytes :
      (got ++ List.replicate (4 - got.length) (0 : UInt8)).length = 4 := by
    simp
    omega
  rw [spec.length_eq, fourBytes] at bound
  omega

@[simp] theorem decode_zeros
    (count : Nat) :
    BigEndian.decode (List.replicate count 0) = 0 := by
  induction count with
  | zero =>
      rfl
  | succ count ih =>
      rw [List.replicate_succ', BigEndian.decode_snoc,
        ih]
      rfl

variable {slack : Nat}

/--
If stray zero bytes precede a frame and the reader still returns its body, the
frame is empty: its header repeats the zeros in front of it.
-/
theorem body_eq_nil_of_slack
    {msg got stray later : Bytes}
    (positive : 0 < slack)
    (padded :
      got ++ List.replicate (4 - got.length) 0 =
        BigEndian.encode 4 msg.length)
    (stream :
      got ++ stray =
        List.replicate slack 0 ++
          (BigEndian.encode 4 msg.length ++ later))
    (fits : msg.length < 2 ^ 32) :
    msg = [] := by
  have copied :
      BigEndian.encode 4 msg.length =
        List.replicate (BigEndian.encode 4 msg.length).length 0 := by
    apply eq_replicate_of_copied
    intro index inRange
    have fourBytes : index < 4 := by simpa using inRange
    have headerEntry := congrArg (fun bytes => bytes[index]?) padded
    have streamEntry := congrArg (fun bytes => bytes[index]?) stream
    by_cases wasRead : index < got.length
    · by_cases inSlack : index < slack
      · left
        simp only [List.getElem?_append, wasRead, if_true,
          List.length_replicate, inSlack] at headerEntry streamEntry
        rw [← headerEntry, streamEntry]
        simp [inSlack]
      · right
        have inHeader : index - slack < 4 := by omega
        simp only [List.getElem?_append, wasRead, if_true,
          List.length_replicate, inSlack, if_false,
          BigEndian.length_encode, inHeader] at headerEntry streamEntry
        exact ⟨index - slack, by omega, headerEntry ▸ streamEntry⟩
    · left
      simp only [List.getElem?_append, wasRead, if_false] at headerEntry
      rw [← headerEntry, List.getElem?_replicate]
      simp
      omega
  have zeroLength : msg.length = 0 := by
    have decoded :
        BigEndian.decode (BigEndian.encode 4 msg.length) = msg.length :=
      BigEndian.decode_encode_of_lt (by omega)
    rw [copied, decode_zeros] at decoded
    exact decoded.symm
  exact List.length_eq_zero_iff.mp zeroLength

/--
If the body returned for a frame starts early, by the header bytes that one
read missed, then these bytes and the whole body are zeros.
-/
theorem body_zeros_of_shift
    {shift : Nat}
    {msg later final : Bytes}
    (positive : 0 < shift)
    (stream :
      List.replicate shift 0 ++ (msg ++ later) = msg ++ final) :
    final = List.replicate shift 0 ++ later := by
  have zeros : msg = List.replicate msg.length 0 := by
    apply eq_replicate_of_copied
    intro index inRange
    have entry := congrArg (fun bytes => bytes[index]?) stream
    by_cases inShift : index < shift
    · left
      simp only [List.getElem?_append, List.length_replicate, inShift,
        if_true, inRange] at entry
      rw [← entry]
      simp [inShift]
    · right
      have inBody : index - shift < msg.length := by omega
      simp only [List.getElem?_append, List.length_replicate, inShift,
        if_false, inBody, if_true, inRange] at entry
      exact ⟨index - shift, by omega, entry.symm⟩
  have swapped :
      List.replicate shift 0 ++ msg = msg ++ List.replicate shift 0 := by
    rw [zeros]
    simp [Nat.add_comm]
  rw [← List.append_assoc, swapped, List.append_assoc] at stream
  exact (List.append_cancel_left stream).symm

theorem slack_after_frame
    {msg got later : Bytes}
    (spec : RecvSpec chunks msg final got rest)
    (stream :
      chunks.flatten =
        List.replicate slack 0 ++
          (BigEndian.encode 4 msg.length ++ (msg ++ later))) :
    final.flatten =
      List.replicate (slack + (4 - got.length)) 0 ++ later := by
  have short : got.length ≤ 4 := by
    rw [spec.header.length_eq]
    omega
  have padded := spec.padded_eq
  have split :
      got ++ rest.flatten =
        List.replicate slack 0 ++
          (BigEndian.encode 4 msg.length ++ (msg ++ later)) := by
    rw [← spec.header.flatten_eq, stream]
  by_cases aligned : slack = 0
  · subst slack
    simp only [List.replicate_zero, List.nil_append, ← padded,
      List.append_assoc, List.append_cancel_left_eq] at split
    rw [spec.body_eq] at split
    by_cases shifted : 4 - got.length = 0
    · simp only [shifted, List.replicate_zero, List.nil_append,
        List.append_cancel_left_eq] at split ⊢
      simpa using split
    · simpa using
        body_zeros_of_shift (by omega) split.symm
  · have empty : msg = [] :=
      body_eq_nil_of_slack (by omega) padded split spec.length_lt
    subst msg
    have zeroHeader : BigEndian.encode 4 0 = List.replicate 4 0 := rfl
    have total :
        slack + 4 = got.length + (slack + (4 - got.length)) := by
      omega
    simp only [List.length_nil, zeroHeader, List.nil_append] at split
    rw [← List.append_assoc, List.replicate_append_replicate, total,
      ← List.replicate_append_replicate, List.append_assoc] at split
    have body := List.append_inj_right split (by simp)
    simpa [spec.body_eq] using body

variable {payloads : List Bytes}

/--
Whatever stray zeros precede the frames, a reader that returns exactly the
payloads saw no stray byte and no split header.
-/
theorem headersWhole_of_receives
    {chunks : Chunks}
    (nonempty : NoEmptyChunk chunks)
    (stream :
      chunks.flatten = List.replicate slack 0 ++ frames payloads)
    (received : Receives recvMessage chunks payloads) :
    slack = 0 ∧
      (∀ payload ∈ payloads, payload.length < 2 ^ 32) ∧
      HeadersWhole payloads chunks := by
  obtain ⟨final, run, ended⟩ := received
  induction payloads generalizing chunks slack with
  | nil =>
      cases run
      refine ⟨?_, by simp, trivial⟩
      cases taken : readOnce 4 final with
      | none =>
          rw [readOnce_eq_none] at taken
          subst final
          have lengths := congrArg List.length stream
          simp [frames] at lengths
          omega
      | some result =>
          -- Left-over zeros would be returned as one more, empty message.
          obtain ⟨got, rest⟩ := result
          have header := readOnce_spec (by omega) nonempty taken
          have allZeros :
              got ++ rest.flatten = List.replicate slack 0 := by
            rw [← header.flatten_eq, stream]
            simp [frames]
          have gotZeros := (List.append_eq_replicate_iff.mp allZeros).2.1
          rw [recvMessage, taken, gotZeros] at ended
          simp [readFull] at ended
  | cons payload payloads ih =>
      cases run with
      | @cons _ next _ _ _ taken restRun =>
          obtain ⟨got, rest, spec⟩ := recvMessage_spec nonempty taken
          rw [frames_cons] at stream
          have nextNonempty : NoEmptyChunk next := by
            rw [spec.final_eq, spec.header.rest_eq]
            exact noEmptyChunk_skip (noEmptyChunk_skip nonempty)
          obtain ⟨noSlack, bounds, whole⟩ :=
            ih nextNonempty
              (slack_after_frame spec stream) restRun
          have headerLength := spec.header.length_eq
          have fourBytes : got.length = 4 := by omega
          refine ⟨by omega, ?_, by omega, ?_⟩
          · intro item member
            rcases List.mem_cons.mp member with isHead | inRest
            · subst item
              exact spec.length_lt
            · exact bounds item inRest
          · rw [← fourBytes, ← spec.header.rest_eq, ← spec.final_eq]
            exact whole

theorem receives_of_headersWhole
    {chunks : Chunks}
    (nonempty : NoEmptyChunk chunks)
    (stream : chunks.flatten = frames payloads)
    (bounds : ∀ payload ∈ payloads, payload.length < 2 ^ 32)
    (whole : HeadersWhole payloads chunks) :
    Receives recvMessage chunks payloads := by
  induction payloads generalizing chunks with
  | nil =>
      have noChunk : chunks = [] := by
        cases chunks with
        | nil =>
            rfl
        | cons chunk rest =>
            have chunkNonempty := nonempty chunk (by simp)
            simp [frames, chunkNonempty] at stream
      subst chunks
      exact ⟨[], .nil [], rfl⟩
  | cons payload payloads ih =>
      obtain ⟨headLong, restWhole⟩ := whole
      cases taken : readOnce 4 chunks with
      | none =>
          rw [readOnce_eq_none] at taken
          simp [taken] at headLong
      | some result =>
          obtain ⟨got, rest⟩ := result
          have header := readOnce_spec (by omega) nonempty taken
          have fourBytes : got.length = 4 := by
            rw [header.length_eq]
            omega
          have split :
              got ++ rest.flatten =
                BigEndian.encode 4 payload.length ++
                  (payload ++ frames payloads) := by
            rw [← header.flatten_eq, stream, frames_cons]
          obtain ⟨gotEq, restEq⟩ :=
            List.append_inj split (by simp [fourBytes])
          have payloadBound : payload.length < 256 ^ 4 := by
            have bound := bounds payload (by simp)
            omega
          have received :
              recvMessage chunks =
                some (payload, skip payload.length (skip 4 chunks)) := by
            have restSkip : rest = skip 4 chunks := by
              rw [header.rest_eq, fourBytes]
            simp only [recvMessage, taken, fourBytes, Nat.sub_self,
              List.replicate_zero, List.append_nil]
            rw [gotEq, BigEndian.decode_encode_of_lt payloadBound,
              readFull_eq, restEq]
            simp [restSkip]
          have restStream :
              (skip payload.length (skip 4 chunks)).flatten =
                frames payloads := by
            rw [← fourBytes, ← header.rest_eq, flatten_skip, restEq]
            simp
          obtain ⟨final, restRun, ended⟩ :=
            ih
              (noEmptyChunk_skip (noEmptyChunk_skip nonempty))
              restStream
              (fun item member => bounds item (List.mem_cons_of_mem _ member))
              restWhole
          exact ⟨final, .cons received restRun, ended⟩

/--
`RecvMessage` is transparent to chunking exactly when every payload length
fits the header and no header is split between two reads.
-/
theorem recvMessage_transparent_iff
    (payloads : List Bytes)
    (chunks : Chunks)
    (nonempty : NoEmptyChunk chunks)
    (stream : chunks.flatten = frames payloads) :
    Receives recvMessage chunks payloads ↔
      (∀ payload ∈ payloads, payload.length < 2 ^ 32) ∧
        HeadersWhole payloads chunks := by
  constructor
  · intro received
    have noSlack :
        chunks.flatten = List.replicate 0 0 ++ frames payloads := by
      simpa using stream
    exact (headersWhole_of_receives nonempty noSlack received).2
  · rintro ⟨bounds, whole⟩
    exact receives_of_headersWhole nonempty stream bounds whole

/-- Two frames whose headers arrive whole, the second body in two pieces. -/
theorem recvMessage_transparent_whole_headers :
    Receives recvMessage
      [[0, 0, 0, 1], [7, 0, 0, 0, 2, 8], [9]] [[7], [8, 9]] ↔
      (∀ payload ∈ ([[7], [8, 9]] : List Bytes),
          payload.length < 2 ^ 32) ∧
        HeadersWhole [[7], [8, 9]]
          [[0, 0, 0, 1], [7, 0, 0, 0, 2, 8], [9]] :=
  recvMessage_transparent_iff _ _ (by simp [NoEmptyChunk]) (by decide)

/-- A one-byte payload whose header arrives in two pieces is lost. -/
theorem split_header_loses_payload :
    NoEmptyChunk [[0, 0], [0, 1, 7]] ∧
      ([[0, 0], [0, 1, 7]] : Chunks).flatten = frames [[7]] ∧
      ¬ Receives recvMessage [[0, 0], [0, 1, 7]] [[7]] := by
  refine ⟨by simp [NoEmptyChunk], by decide, ?_⟩
  rintro ⟨final, run, _⟩
  cases run with
  | cons taken _ =>
      have first :
          recvMessage [[0, 0], [0, 1, 7]] = some ([], [[0, 1, 7]]) := by
        decide
      simp [receiveStep, first] at taken

/--
The node's reader does not depend on chunk boundaries at all: payloads that
fit their header come back whole from every chunking.
-/
theorem recvTcpMsg_receives
    {chunks : Chunks}
    (nonempty : NoEmptyChunk chunks)
    (stream : chunks.flatten = frames payloads)
    (bounds : ∀ payload ∈ payloads, payload.length < 2 ^ 32) :
    Receives recvTcpMsg chunks payloads := by
  induction payloads generalizing chunks with
  | nil =>
      have empty : chunks.flatten.length = 0 := by simp [stream, frames]
      refine ⟨chunks, .nil chunks, ?_⟩
      simp [recvTcpMsg, readFull_eq, empty]
  | cons payload payloads ih =>
      have payloadBound : payload.length < 256 ^ 4 := by
        have bound := bounds payload (by simp)
        omega
      rw [frames_cons] at stream
      have received :
          recvTcpMsg chunks =
            some (payload, skip payload.length (skip 4 chunks)) := by
        simp [recvTcpMsg, readFull_eq, stream,
          BigEndian.decode_encode_of_lt payloadBound]
      have restStream :
          (skip payload.length (skip 4 chunks)).flatten =
            frames payloads := by
        simp [stream]
      obtain ⟨final, restRun, ended⟩ :=
        ih
          (noEmptyChunk_skip (noEmptyChunk_skip nonempty))
          restStream
          (fun item member => bounds item (List.mem_cons_of_mem _ member))
      exact ⟨final, .cons received restRun, ended⟩

end MeFuzz.Tcp
