import MeFuzz.ConcolicMessages

namespace MeFuzz.Concolic

open Procedure

/-!
# The file of a concolic trace

The length of the trace stands before its messages.  It is written again after
each path constraint, by seeking to it and back.  The writer notes the medium
after each of its operations, since the process that writes may die after any of
them.
-/

/-- The little-endian bytes of a `u64`. -/
def toLeBytes (value : Nat) : Bytes :=
  (BigEndian.encode 8 value).reverse

/-- The `u64` of little-endian bytes. -/
def fromLeBytes (bytes : Bytes) : Nat :=
  BigEndian.decode bytes.reverse

@[simp] theorem length_toLeBytes
    (value : Nat) :
    (toLeBytes value).length = 8 := by
  simp [toLeBytes]

theorem fromLeBytes_toLeBytes
    {value : Nat}
    (fits : value < 2 ^ 64) :
    fromLeBytes (toLeBytes value) = value := by
  rw [fromLeBytes, toLeBytes, List.reverse_reverse]
  exact BigEndian.decode_encode_of_lt fits

/-- What is written to: a cursor on bytes that cannot grow beyond a capacity. -/
structure Medium where
  bytes : Bytes
  position : Nat
  capacity : UInt64
  deriving DecidableEq

namespace Medium

/-- The bytes with others written at the position. -/
def overlay (medium : Medium) (buffer : Bytes) : Bytes :=
  let padded :=
    medium.bytes ++ List.replicate (medium.position - medium.bytes.length) 0
  padded.take medium.position ++ buffer ++
    padded.drop (medium.position + buffer.length)

/-- Whether a buffer can be written at the position. -/
def HasRoom (medium : Medium) (buffer : Bytes) : Prop :=
  medium.position + buffer.length ≤ medium.capacity.toNat

instance (medium : Medium) (buffer : Bytes) :
    Decidable (medium.HasRoom buffer) :=
  inferInstanceAs (Decidable (_ ≤ _))

/-- `write_all` where there is room. -/
def written (medium : Medium) (buffer : Bytes) : Medium :=
  { medium with
    bytes := medium.overlay buffer
    position := medium.position + buffer.length }

/-- `write_all` where the room ends: what fits is written. -/
def writtenPartly (medium : Medium) (buffer : Bytes) : Medium :=
  { medium with
    bytes :=
      medium.overlay
        (buffer.take (medium.capacity.toNat - medium.position)) }

end Medium

/-- How a call of the writer fails. -/
inductive Failure where
  | io
  | panicked
  deriving Repr, DecidableEq

/--
`MessageFileWriter`.  The history holds the medium after each operation on it.
-/
structure MessageFileWriter where
  idCounter : Nat
  writer : Medium
  writerStartPosition : Nat
  history : List Medium
  deriving DecidableEq

/-- Serialization and deserialization of single messages. -/
structure Bincode where
  serializeInto : SymExpr → List Bytes
  deserializeFrom : Bytes → Option (Except Unit (SymExpr × Bytes))

namespace MessageFileWriter

/-- A procedure of the writer. -/
abbrev Writing (Value : Type) :=
  Procedure Failure MessageFileWriter Value

/-- The writer after an operation on its medium. -/
def moved
    (self : MessageFileWriter)
    (medium : Medium) : MessageFileWriter :=
  { self with writer := medium, history := self.history ++ [medium] }

/-- `stream_position`. -/
def streamPosition : Writing Nat := do
  let self ← get
  set (self.moved self.writer)
  pure self.writer.position

/-- `seek(SeekFrom::Start(position))`. -/
def seek (position : Nat) : Writing Unit :=
  modify fun self => self.moved { self.writer with position := position }

/-- `write_all`. -/
def writeAll (buffer : Bytes) : Writing Unit := do
  let self ← get
  if self.writer.HasRoom buffer then
    set (self.moved (self.writer.written buffer))
  else
    set (self.moved (self.writer.writtenPartly buffer))
    throw .io

/-- `from_writer`. -/
def fromWriter (writer : Medium) : Option MessageFileWriter :=
  if writer.HasRoom (toLeBytes 0) then
    some
      { idCounter := 1
        writer := writer.written (toLeBytes 0)
        writerStartPosition := writer.position
        history := [] }
  else none

/-- `write_trace_size`. -/
def writeTraceSize : Writing Unit := do
  let endPos ← streamPosition
  let self ← get
  let traceHeaderLen := 8
  if endPos < self.writerStartPosition + traceHeaderLen then throw .panicked
  else
    let traceLength := endPos - self.writerStartPosition - traceHeaderLen
    seek self.writerStartPosition
    writeAll (toLeBytes traceLength)
    seek endPos

/-- `update_trace_header`. -/
def updateTraceHeader : Writing Unit :=
  writeTraceSize

/-- The writes of `serialize_into`. -/
def serializeInto : List Bytes → Writing Unit
  | [] => pure ()
  | buffer :: rest => do
      writeAll buffer
      serializeInto rest

/-- `write_message`. -/
def writeMessage
    (bincode : Bincode)
    (message : SymExpr) : Writing Nat := do
  let self ← get
  match convert (distance self.idCounter) message with
  | none => throw .panicked
  | some (stored, grows) => do
      modify fun self => { self with idCounter := self.idCounter + grows }
      serializeInto (bincode.serializeInto stored)
      if stored.isPathConstraint then writeTraceSize
      pure self.idCounter

/-- Messages written one after the other, with the ids that are returned. -/
def writeMessages (bincode : Bincode) : List SymExpr → Writing (List Nat)
  | [] => pure []
  | message :: rest => do
      let id ← writeMessage bincode message
      let ids ← writeMessages bincode rest
      pure (id :: ids)

end MessageFileWriter

/-- `MessageFileReader`, with the bytes that it has not read yet. -/
structure MessageFileReader where
  reader : Bytes
  currentId : Nat
  deriving DecidableEq

namespace MessageFileReader

/-- What `next_message` comes to. -/
inductive Next where
  | depleted
  | failed
  | panicked
  | message (id : Nat) (message : SymExpr) (reader : MessageFileReader)

/-- `from_buffer`. -/
def fromBuffer (buffer : Bytes) : MessageFileReader :=
  ⟨buffer, 1⟩

/-- `from_length_prefixed_buffer`; `none` when it fails. -/
def fromLengthPrefixedBuffer (buffer : Bytes) : Option MessageFileReader :=
  if buffer.length < 8 then none
  else
    let bufferLen := fromLeBytes (buffer.take 8)
    let buffer := buffer.drop 8
    if buffer.length < bufferLen then none
    else some (fromBuffer (buffer.take bufferLen))

/-- `next_message`. -/
def nextMessage
    (bincode : Bincode)
    (self : MessageFileReader) : Next :=
  match bincode.deserializeFrom self.reader with
  | none => .depleted
  | some (.error _) => .failed
  | some (.ok (stored, rest)) =>
      match convert (distance self.currentId) stored with
      | none => .panicked
      | some (message, grows) =>
          .message self.currentId message ⟨rest, self.currentId + grows⟩

/-- The reader returns these messages with their ids, and then it is depleted. -/
inductive Reads (bincode : Bincode) :
    MessageFileReader → List (Nat × SymExpr) → Prop where
  | depleted
      {self : MessageFileReader} :
      nextMessage bincode self = .depleted →
      Reads bincode self []
  | message
      {self next : MessageFileReader}
      {id : Nat}
      {message : SymExpr}
      {rest : List (Nat × SymExpr)} :
      nextMessage bincode self = .message id message next →
      Reads bincode next rest →
      Reads bincode self ((id, message) :: rest)

end MessageFileReader

end MeFuzz.Concolic
