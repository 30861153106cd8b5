import MeFuzz.TransitionRun

namespace MeFuzz

/-!
# Byte streams delivered in chunks

A stream socket hands out its bytes in pieces whose boundaries carry no
meaning.  A stream is modelled by the list of chunks its reads will find: one
read takes at most the requested number of bytes and never crosses a chunk
boundary.  The module relates single reads, reads repeated until a buffer is
full, and the concatenated stream, and it provides fixed-width big-endian
numbers.
-/

/-- Raw bytes. -/
abbrev Bytes := List UInt8

namespace BigEndian

/-- The `width` low bytes of a number, most significant byte first. -/
def encode : Nat → Nat → Bytes
  | 0, _ => []
  | width + 1, value =>
      encode width (value / 256) ++ [UInt8.ofNat value]

/-- The number denoted by bytes, most significant byte first. -/
def decode (bytes : Bytes) : Nat :=
  bytes.foldl (fun value byte => value * 256 + byte.toNat) 0

@[simp] theorem length_encode
    (width value : Nat) :
    (encode width value).length = width := by
  induction width generalizing value with
  | zero =>
      rfl
  | succ width ih =>
      simp [encode, ih]

@[simp] theorem decode_snoc
    (bytes : Bytes)
    (byte : UInt8) :
    decode (bytes ++ [byte]) = decode bytes * 256 + byte.toNat := by
  simp [decode]

/-- Decoding keeps exactly the low bytes that were encoded. -/
theorem decode_encode
    (width value : Nat) :
    decode (encode width value) = value % 256 ^ width := by
  induction width generalizing value with
  | zero =>
      simp [encode, decode, Nat.mod_one]
  | succ width ih =>
      have lowByte : (UInt8.ofNat value).toNat = value % 256 := by
        simp
      rw [encode, decode_snoc, ih, lowByte, pow_succ,
        Nat.mul_comm (256 ^ width) 256, Nat.mod_mul]
      omega

theorem decode_encode_of_lt
    {width value : Nat}
    (fits : value < 256 ^ width) :
    decode (encode width value) = value := by
  rw [decode_encode, Nat.mod_eq_of_lt fits]

/-- Bytes of any fixed width are recovered from the number they denote. -/
theorem encode_decode
    (bytes : Bytes) :
    encode bytes.length (decode bytes) = bytes := by
  induction bytes using List.reverseRecOn with
  | nil =>
      rfl
  | append_singleton front byte ih =>
      have byteBound := byte.toNat_lt
      have quotient :
          (decode front * 256 + byte.toNat) / 256 = decode front := by
        omega
      have lowByte :
          UInt8.ofNat (decode front * 256 + byte.toNat) = byte := by
        apply UInt8.toNat_inj.mp
        rw [UInt8.toNat_ofNat']
        omega
      rw [decode_snoc, List.length_append, List.length_singleton, encode,
        quotient, ih, lowByte]

theorem decode_lt
    (bytes : Bytes) :
    decode bytes < 256 ^ bytes.length := by
  induction bytes using List.reverseRecOn with
  | nil =>
      simp [decode]
  | append_singleton front byte ih =>
      have byteBound := byte.toNat_lt
      rw [decode_snoc, List.length_append, List.length_singleton, pow_succ]
      omega

end BigEndian

namespace ByteStream

/-- The chunks that the reads of a stream will find. -/
abbrev Chunks := List Bytes

/-- No read finds an empty chunk. -/
def NoEmptyChunk (chunks : Chunks) : Prop :=
  ∀ chunk ∈ chunks, chunk ≠ []

/-- One read into a buffer of the given size; `none` is the end of stream. -/
def readOnce
    (size : Nat) :
    Chunks → Option (Bytes × Chunks)
  | [] => none
  | chunk :: rest =>
      if chunk.length ≤ size then
        some (chunk, rest)
      else
        some (chunk.take size, chunk.drop size :: rest)

/-- Reads repeated until the buffer is full. -/
def readFull :
    Nat → Chunks → Option (Bytes × Chunks)
  | 0, chunks => some ([], chunks)
  | _ + 1, [] => none
  | size + 1, chunk :: rest =>
      if chunk.length ≤ size + 1 then
        match readFull (size + 1 - chunk.length) rest with
        | none => none
        | some (bytes, left) => some (chunk ++ bytes, left)
      else
        some (chunk.take (size + 1), chunk.drop (size + 1) :: rest)

/-- Drop bytes from the front of a chunked stream. -/
def skip :
    Nat → Chunks → Chunks
  | 0, chunks => chunks
  | _ + 1, [] => []
  | size + 1, chunk :: rest =>
      if chunk.length ≤ size + 1 then
        skip (size + 1 - chunk.length) rest
      else
        chunk.drop (size + 1) :: rest

/-- `readFull` is the loop that reads into what is left of its buffer. -/
theorem readFull_eq_loop
    {size : Nat}
    (positive : 0 < size)
    (chunks : Chunks) :
    readFull size chunks =
      match readOnce size chunks with
      | none => none
      | some (bytes, rest) =>
          match readFull (size - bytes.length) rest with
          | none => none
          | some (more, left) => some (bytes ++ more, left) := by
  obtain ⟨size, rfl⟩ := Nat.exists_eq_succ_of_ne_zero positive.ne'
  cases chunks with
  | nil =>
      rfl
  | cons chunk rest =>
      by_cases whole : chunk.length ≤ size + 1
      · simp [readFull, readOnce, whole]
      · have filled : size + 1 - (chunk.take (size + 1)).length = 0 := by
          simp
          omega
        simp only [readFull, readOnce, whole, if_false, Nat.succ_eq_add_one,
          filled, List.append_nil]

@[simp] theorem flatten_skip
    (size : Nat)
    (chunks : Chunks) :
    (skip size chunks).flatten = chunks.flatten.drop size := by
  induction chunks generalizing size with
  | nil =>
      cases size <;> simp [skip]
  | cons chunk rest ih =>
      cases size with
      | zero =>
          simp [skip]
      | succ size =>
          by_cases whole : chunk.length ≤ size + 1
          · simp only [skip, whole, if_true, ih,
              List.flatten_cons, List.drop_append]
            simp [List.drop_eq_nil_of_le whole]
          · have inside : size + 1 - chunk.length = 0 := by omega
            simp only [skip, whole, if_false, List.flatten_cons,
              List.drop_append, inside, List.drop_zero]

theorem noEmptyChunk_skip
    {size : Nat}
    {chunks : Chunks}
    (nonempty : NoEmptyChunk chunks) :
    NoEmptyChunk (skip size chunks) := by
  induction chunks generalizing size with
  | nil =>
      cases size <;> simp [skip, NoEmptyChunk]
  | cons chunk rest ih =>
      have restNonempty : NoEmptyChunk rest :=
        fun piece member => nonempty piece (List.mem_cons_of_mem _ member)
      cases size with
      | zero =>
          exact nonempty
      | succ size =>
          by_cases whole : chunk.length ≤ size + 1
          · simpa only [skip, whole, if_true] using
              ih restNonempty
          · simp only [skip, whole, if_false]
            intro piece member
            rcases List.mem_cons.mp member with isHead | inRest
            · subst piece
              simp only [ne_eq, List.drop_eq_nil_iff]
              omega
            · exact restNonempty piece inRest

theorem readFull_eq
    (size : Nat)
    (chunks : Chunks) :
    readFull size chunks =
      if size ≤ chunks.flatten.length then
        some (chunks.flatten.take size, skip size chunks)
      else
        none := by
  induction chunks generalizing size with
  | nil =>
      cases size <;> simp [readFull, skip]
  | cons chunk rest ih =>
      cases size with
      | zero =>
          simp [readFull, skip]
      | succ size =>
          by_cases whole : chunk.length ≤ size + 1
          · have moved :
                size + 1 ≤ chunk.length + rest.flatten.length ↔
                  size + 1 - chunk.length ≤ rest.flatten.length := by
              omega
            simp only [readFull, skip, whole, if_true, ih,
              List.flatten_cons, List.length_append, moved,
              List.take_append]
            split <;> simp_all [List.take_of_length_le whole]
          · have enough :
                size + 1 ≤ chunk.length + rest.flatten.length := by
              omega
            have inside : size + 1 - chunk.length = 0 := by omega
            simp only [readFull, skip, whole, if_false, List.flatten_cons,
              List.length_append, enough, if_true, List.take_append,
              inside, List.take_zero, List.append_nil]

/-- What one read takes from a stream without empty chunks. -/
structure ReadSpec
    (size : Nat)
    (chunks : Chunks)
    (bytes : Bytes)
    (rest : Chunks) : Prop where
  nonempty : bytes ≠ []
  length_eq : bytes.length = min size (chunks.headD []).length
  flatten_eq : chunks.flatten = bytes ++ rest.flatten
  rest_eq : rest = skip bytes.length chunks

theorem readOnce_spec
    {size : Nat}
    {chunks rest : Chunks}
    {bytes : Bytes}
    (positive : 0 < size)
    (nonempty : NoEmptyChunk chunks)
    (taken : readOnce size chunks = some (bytes, rest)) :
    ReadSpec size chunks bytes rest := by
  cases chunks with
  | nil =>
      simp [readOnce] at taken
  | cons chunk later =>
      have chunkNonempty : chunk ≠ [] := nonempty chunk (by simp)
      have chunkPositive := List.length_pos_iff.mpr chunkNonempty
      obtain ⟨size, rfl⟩ := Nat.exists_eq_succ_of_ne_zero positive.ne'
      by_cases whole : chunk.length ≤ size + 1
      · simp only [readOnce, whole, if_true, Option.some.injEq,
          Prod.mk.injEq] at taken
        obtain ⟨rfl, rfl⟩ := taken
        obtain ⟨length, lengthEq⟩ :=
          Nat.exists_eq_succ_of_ne_zero chunkPositive.ne'
        refine ⟨chunkNonempty, by simp [whole], by simp, ?_⟩
        simp [lengthEq, skip]
      · simp only [readOnce, whole, if_false, Option.some.injEq,
          Prod.mk.injEq] at taken
        obtain ⟨rfl, rfl⟩ := taken
        have takenLength : (chunk.take (size + 1)).length = size + 1 := by
          simp
          omega
        refine ⟨?_, by simp, ?_, ?_⟩
        · intro empty
          simp [empty] at takenLength
        · simp [← List.append_assoc]
        · simp only [takenLength, skip, whole, if_false]

theorem readOnce_eq_none
    {size : Nat}
    {chunks : Chunks} :
    readOnce size chunks = none ↔ chunks = [] := by
  cases chunks with
  | nil =>
      simp [readOnce]
  | cons chunk rest =>
      simp only [readOnce, reduceCtorEq, iff_false]
      split <;> simp

end ByteStream

end MeFuzz
