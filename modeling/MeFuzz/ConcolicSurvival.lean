import MeFuzz.ConcolicTrace

namespace MeFuzz.Concolic.Survival

open MessageFileReader (fromBuffer)

/-!
# Traces of any bytes

A target that crashes or is corrupted leaves any bytes in the buffer.  The reader
is called again and again here, after errors too, and so its deserializer tells
what it leaves of the bytes in any case.
-/

/-- What the deserializer comes to. -/
inductive Deserialized where
  | depleted
  | failed
  | message (stored : SymExpr)
  deriving DecidableEq

/-- `deserialize_from`, with the bytes that it leaves. -/
abbrev Deserializer :=
  Bytes → Deserialized × Bytes

/-- What a call of `next_message` comes to. -/
inductive Returned where
  | depleted
  | failed
  | panicked
  | message (id : Nat) (message : SymExpr)
  deriving DecidableEq

/-- `from_length_prefixed_buffer`; `split_at` panics behind the end. -/
def fromLengthPrefixedBuffer
    (buffer : Bytes) : Except Failure MessageFileReader :=
  if buffer.length < 8 then .error .io
  else
    let bufferLen := fromLeBytes (buffer.take 8)
    let buffer := buffer.drop 8
    if buffer.length < bufferLen then .error .panicked
    else .ok (fromBuffer (buffer.take bufferLen))

/-- `next_message`, with the reader that it leaves. -/
def nextMessage
    (deserialize : Deserializer)
    (self : MessageFileReader) : Returned × MessageFileReader :=
  match deserialize self.reader with
  | (.depleted, rest) => (.depleted, { self with reader := rest })
  | (.failed, rest) => (.failed, { self with reader := rest })
  | (.message stored, rest) =>
      match MessageFileReader.convert (distance self.currentId) stored with
      | none => (.panicked, { self with reader := rest })
      | some (message, grows) =>
          (.message self.currentId message, ⟨rest, self.currentId + grows⟩)

/-- What a number of calls returns, unless one of them panics. -/
def callsOf
    (deserialize : Deserializer) :
    Nat → MessageFileReader → List Returned
  | 0, _ => []
  | calls + 1, self =>
      match nextMessage deserialize self with
      | (.panicked, _) => [.panicked]
      | (returned, next) => returned :: callsOf deserialize calls next

/-- A deserializer, without what it leaves of bytes that are no message. -/
def ofDeserializer
    (serializeInto : SymExpr → List Bytes)
    (deserialize : Deserializer) : Bincode where
  serializeInto := serializeInto
  deserializeFrom bytes :=
    match deserialize bytes with
    | (.depleted, _) => none
    | (.failed, _) => some (.error ())
    | (.message stored, rest) => some (.ok (stored, rest))

theorem toOption_fromLengthPrefixedBuffer
    (buffer : Bytes) :
    (fromLengthPrefixedBuffer buffer).toOption =
      MessageFileReader.fromLengthPrefixedBuffer buffer := by
  unfold fromLengthPrefixedBuffer MessageFileReader.fromLengthPrefixedBuffer
  split
  · rfl
  · dsimp only
    split <;> rfl

theorem nextMessage_ofDeserializer
    (serializeInto : SymExpr → List Bytes)
    (deserialize : Deserializer)
    (self : MessageFileReader) :
    MessageFileReader.nextMessage (ofDeserializer serializeInto deserialize)
        self =
      match nextMessage deserialize self with
      | (.depleted, _) => .depleted
      | (.failed, _) => .failed
      | (.panicked, _) => .panicked
      | (.message id message, next) => .message id message next := by
  unfold MessageFileReader.nextMessage nextMessage ofDeserializer
  dsimp only
  rcases deserialize self.reader with ⟨_ | _ | stored, rest⟩
  · rfl
  · rfl
  · dsimp only
    cases MessageFileReader.convert (distance self.currentId) stored <;> rfl

/-- The bytes behind the prefix are as many as it says at least. -/
def PrefixFits (buffer : Bytes) : Prop :=
  8 ≤ buffer.length → fromLeBytes (buffer.take 8) ≤ (buffer.drop 8).length

/-- What a number of deserializations from bytes comes to. -/
def deserialized
    (deserialize : Deserializer) :
    Nat → Bytes → List Deserialized
  | 0, _ => []
  | calls + 1, bytes =>
      (deserialize bytes).1 :: deserialized deserialize calls (deserialize bytes).2

/-- Every distance is less than the number of the message that has it. -/
def DistancesFit : Nat → List Deserialized → Prop
  | _, [] => True
  | id, .message stored :: rest =>
      (∀ op ∈ stored.operands, op.val < id) ∧ DistancesFit (id + grows stored) rest
  | id, _ :: rest => DistancesFit id rest

theorem reader_convert
    (convert : Conversion)
    (message : SymExpr) :
    MessageFileReader.convert convert message =
      MessageFileWriter.convert convert message := by
  cases message <;> rfl

theorem grows_of_reader_convert
    {convert : Conversion}
    {stored message : SymExpr}
    {growth : Nat}
    (converts : MessageFileReader.convert convert stored = some (message, growth)) :
    growth = grows stored := by
  rw [reader_convert] at converts
  exact (converts_of_convert converts).grows

/-- A reference has a distance just if it is less than the counter. -/
theorem distance_eq_some_iff
    {counter : Nat}
    {op : SymExprRef} :
    (∃ converted, distance counter op = some converted) ↔ op.val < counter := by
  unfold distance
  split
  · rename_i below
    simp [below]
  · rename_i above
    simp [above]

theorem each_of_mapM
    {convert : Conversion}
    {exprs converted : List SymExprRef}
    (converts : exprs.mapM convert = some converted) :
    ∀ op ∈ exprs, ∃ converted, convert op = some converted := by
  induction exprs generalizing converted with
  | nil =>
      simp
  | cons expr rest ih =>
      rw [List.mapM_cons] at converts
      obtain ⟨first, isFirst, later⟩ := Option.bind_eq_some_iff.mp converts
      obtain ⟨others, areOthers, _⟩ := Option.bind_eq_some_iff.mp later
      exact List.forall_mem_cons.mpr
        ⟨⟨first, isFirst⟩, ih areOthers⟩

theorem each_of_convert
    {convert : Conversion}
    {message stored : SymExpr}
    {growth : Nat}
    (converts :
      MessageFileWriter.convert convert message = some (stored, growth)) :
    ∀ op ∈ message.operands, ∃ converted, convert op = some converted := by
  cases message
  case pathConstraint op taken location =>
    obtain ⟨converted, isConverted, _⟩ := Option.bind_eq_some_iff.mp converts
    simpa [SymExpr.operands] using ⟨converted.val, converted.property, isConverted⟩
  case expressionsUnreachable exprs =>
    obtain ⟨converted, areConverted, _⟩ := Option.bind_eq_some_iff.mp converts
    exact each_of_mapM areConverted
  all_goals first
    | exact fun op isOp => absurd isOp List.not_mem_nil
    | obtain ⟨converted, isConverted, _⟩ := convertUnary_eq_some converts
      exact List.forall_mem_singleton.mpr ⟨converted, isConverted⟩
    | obtain ⟨first, second, isFirst, isSecond, _⟩ :=
        convertBinary_eq_some converts
      exact List.forall_mem_cons.mpr
        ⟨⟨first, isFirst⟩, List.forall_mem_singleton.mpr ⟨second, isSecond⟩⟩

/-- A message is converted just if its distances are less than the counter. -/
theorem isSome_convert_iff
    (counter : Nat)
    (stored : SymExpr) :
    (MessageFileReader.convert (distance counter) stored).isSome ↔
      ∀ op ∈ stored.operands, op.val < counter := by
  rw [reader_convert]
  constructor
  · intro converts op isOp
    obtain ⟨⟨message, growth⟩, converted⟩ := Option.isSome_iff_exists.mp converts
    exact distance_eq_some_iff.mp (each_of_convert converted op isOp)
  · intro small
    obtain ⟨message, growth, converted⟩ :=
      exists_convert fun op isOp => distance_eq_some_iff.mpr (small op isOp)
    exact Option.isSome_iff_exists.mpr ⟨_, converted⟩

theorem no_panic_iff
    (deserialize : Deserializer)
    (calls : Nat)
    (self : MessageFileReader) :
    .panicked ∉ callsOf deserialize calls self ↔
      DistancesFit self.currentId (deserialized deserialize calls self.reader) := by
  induction calls generalizing self with
  | zero =>
      simp [callsOf, deserialized, DistancesFit]
  | succ calls ih =>
      unfold callsOf deserialized nextMessage
      rcases deserialize self.reader with ⟨_ | _ | stored, rest⟩
      · simp [DistancesFit, ih]
      · simp [DistancesFit, ih]
      · dsimp only
        have isSome := isSome_convert_iff self.currentId stored
        cases converts :
            MessageFileReader.convert (distance self.currentId) stored with
        | none =>
            rw [converts] at isSome
            have large := mt isSome.mpr (by simp)
            exact iff_of_false (by simp) fun fits => large fits.1
        | some converted =>
            obtain ⟨message, growth⟩ := converted
            obtain rfl := grows_of_reader_convert converts
            rw [converts] at isSome
            rw [DistancesFit, and_iff_right (isSome.mp rfl)]
            simp [ih]

/-- Whatever is called on a buffer, it returns an error or the end at most. -/
structure Survives (deserialize : Deserializer) (buffer : Bytes) : Prop where
  starts : fromLengthPrefixedBuffer buffer ≠ .error .panicked
  reads :
    ∀ self, fromLengthPrefixedBuffer buffer = .ok self →
      ∀ calls, .panicked ∉ callsOf deserialize calls self

/-- The trace in a buffer, if the prefix fits. -/
def traceIn (buffer : Bytes) : Bytes :=
  (buffer.drop 8).take (fromLeBytes (buffer.take 8))

/-- A buffer without a whole prefix is an error, and one that is cut a panic. -/
theorem starts_iff
    (buffer : Bytes) :
    fromLengthPrefixedBuffer buffer ≠ .error .panicked ↔ PrefixFits buffer := by
  unfold fromLengthPrefixedBuffer PrefixFits
  split
  · rename_i short
    simp [short]
  · rename_i long
    dsimp only
    split
    · rename_i cut
      simp only [ne_eq, not_true_eq_false, false_iff]
      omega
    · rename_i whole
      simp only [ne_eq, reduceCtorEq, not_false_eq_true, true_iff]
      omega

theorem fromLengthPrefixedBuffer_eq_ok_iff
    {buffer : Bytes}
    {self : MessageFileReader} :
    fromLengthPrefixedBuffer buffer = .ok self ↔
      8 ≤ buffer.length ∧ PrefixFits buffer ∧
        self = fromBuffer (traceIn buffer) := by
  unfold fromLengthPrefixedBuffer PrefixFits
  split
  · rename_i short
    simp only [reduceCtorEq, false_iff]
    omega
  · rename_i long
    dsimp only
    split
    · rename_i cut
      simp only [reduceCtorEq, false_iff]
      omega
    · rename_i whole
      rw [Except.ok.injEq]
      constructor
      · rintro rfl
        exact ⟨by omega, fun _ => by omega, rfl⟩
      · rintro ⟨_, _, rfl⟩
        rfl

/--
The reader survives a buffer just if its prefix counts no more bytes than there are,
and the messages that are deserialized refer back to earlier ones only.
-/
theorem survives_iff
    (deserialize : Deserializer)
    (buffer : Bytes) :
    Survives deserialize buffer ↔
      PrefixFits buffer ∧
        (8 ≤ buffer.length →
          ∀ calls,
            DistancesFit 1 (deserialized deserialize calls (traceIn buffer))) := by
  constructor
  · rintro ⟨starts, reads⟩
    have fits := (starts_iff buffer).mp starts
    refine ⟨fits, fun long calls => ?_⟩
    have noPanic :=
      reads _ (fromLengthPrefixedBuffer_eq_ok_iff.mpr ⟨long, fits, rfl⟩) calls
    exact (no_panic_iff deserialize calls _).mp noPanic
  · rintro ⟨fits, distances⟩
    refine ⟨(starts_iff buffer).mpr fits, fun self started calls => ?_⟩
    obtain ⟨long, _, rfl⟩ := fromLengthPrefixedBuffer_eq_ok_iff.mp started
    exact (no_panic_iff deserialize calls _).mpr (distances long calls)

/-- A prefix that counts one byte more than there are panics. -/
theorem cut_buffer_panics :
    fromLengthPrefixedBuffer [1, 0, 0, 0, 0, 0, 0, 0] = .error .panicked ∧
      ∀ deserialize, ¬Survives deserialize [1, 0, 0, 0, 0, 0, 0, 0] := by
  have panics :
      fromLengthPrefixedBuffer [1, 0, 0, 0, 0, 0, 0, 0] = .error .panicked := by
    simp [fromLengthPrefixedBuffer, fromLeBytes, BigEndian.decode]
  exact ⟨panics, fun _ survives => survives.starts panics⟩

end MeFuzz.Concolic.Survival
