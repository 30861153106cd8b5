import MeFuzz.ByteStream

namespace MeFuzz.MessagePack

/-!
# MessagePack

The binary format in which both sides of the wire write their records: values
without floats, timestamps, and extensions.  The encoder always chooses the
shortest form; the decoder accepts every form.  Decoding an encoded value gives
the value back, whatever follows it.
-/

/--
A value.  A map is the list of its keys and values in turn, so its length is
even.
-/
inductive Value where
  | nil
  | bool (value : Bool)
  | int (value : Int)
  | str (bytes : Bytes)
  | bin (bytes : Bytes)
  | array (items : List Value)
  | map (items : List Value)
  deriving Repr

/-- A tag byte followed by a big-endian number. -/
def header (tag width value : Nat) : Bytes :=
  UInt8.ofNat tag :: BigEndian.encode width value

/-- An integer in its shortest form. -/
def packInt (value : Int) : Bytes :=
  if 0 ≤ value then
    if value < 2 ^ 7 then [UInt8.ofNat value.toNat]
    else if value < 2 ^ 8 then header 0xcc 1 value.toNat
    else if value < 2 ^ 16 then header 0xcd 2 value.toNat
    else if value < 2 ^ 32 then header 0xce 4 value.toNat
    else header 0xcf 8 value.toNat
  else
    if -2 ^ 5 ≤ value then [UInt8.ofNat (value + 2 ^ 8).toNat]
    else if -2 ^ 7 ≤ value then header 0xd0 1 (value + 2 ^ 8).toNat
    else if -2 ^ 15 ≤ value then header 0xd1 2 (value + 2 ^ 16).toNat
    else if -2 ^ 31 ≤ value then header 0xd2 4 (value + 2 ^ 32).toNat
    else header 0xd3 8 (value + 2 ^ 64).toNat

/-- The header of a string of this length. -/
def packStrHeader (length : Nat) : Bytes :=
  if length < 2 ^ 5 then [UInt8.ofNat (0xa0 + length)]
  else if length < 2 ^ 8 then header 0xd9 1 length
  else if length < 2 ^ 16 then header 0xda 2 length
  else header 0xdb 4 length

/-- The header of a byte array of this length. -/
def packBinHeader (length : Nat) : Bytes :=
  if length < 2 ^ 8 then header 0xc4 1 length
  else if length < 2 ^ 16 then header 0xc5 2 length
  else header 0xc6 4 length

/-- The header of an array of this length. -/
def packArrayHeader (length : Nat) : Bytes :=
  if length < 2 ^ 4 then [UInt8.ofNat (0x90 + length)]
  else if length < 2 ^ 16 then header 0xdc 2 length
  else header 0xdd 4 length

/-- The header of a map with this many entries. -/
def packMapHeader (length : Nat) : Bytes :=
  if length < 2 ^ 4 then [UInt8.ofNat (0x80 + length)]
  else if length < 2 ^ 16 then header 0xde 2 length
  else header 0xdf 4 length

mutual

/-- The bytes of a value. -/
def pack : Value → Bytes
  | .nil => [0xc0]
  | .bool false => [0xc2]
  | .bool true => [0xc3]
  | .int value => packInt value
  | .str bytes => packStrHeader bytes.length ++ bytes
  | .bin bytes => packBinHeader bytes.length ++ bytes
  | .array items => packArrayHeader items.length ++ packAll items
  | .map items => packMapHeader (items.length / 2) ++ packAll items

/-- The bytes of consecutive values. -/
def packAll : List Value → Bytes
  | [] => []
  | value :: rest => pack value ++ packAll rest

end

/-- Take exactly this many bytes. -/
def takeExactly (count : Nat) (bytes : Bytes) : Option (Bytes × Bytes) :=
  if count ≤ bytes.length then some (bytes.take count, bytes.drop count)
  else none

/-- Read a big-endian number of this width. -/
def readNat (width : Nat) (bytes : Bytes) : Option (Nat × Bytes) :=
  (takeExactly width bytes).map fun taken =>
    (BigEndian.decode taken.1, taken.2)

/-- Read values one after the other. -/
def unpackMany
    (unpackOne : Bytes → Option (Value × Bytes)) :
    Nat → Bytes → Option (List Value × Bytes)
  | 0, bytes => some ([], bytes)
  | count + 1, bytes =>
      match unpackOne bytes with
      | none => none
      | some (value, rest) =>
          (unpackMany unpackOne count rest).map fun result =>
            (value :: result.1, result.2)

/-- The kinds of values whose tag is followed by a length. -/
inductive Sized where
  | str
  | bin
  | array
  | map
  deriving Repr, DecidableEq

/-- What a tag byte announces. -/
inductive Tag where
  | done (value : Value)
  | unsigned (width : Nat)
  | signed (width : Nat)
  | fixed (kind : Sized) (length : Nat)
  | sized (kind : Sized) (width : Nat)
  | unknown

/-- Read a tag byte. -/
def readTag (tag : Nat) : Tag :=
  if tag < 0x80 then .done (.int tag)
  else if tag < 0x90 then .fixed .map (tag - 0x80)
  else if tag < 0xa0 then .fixed .array (tag - 0x90)
  else if tag < 0xc0 then .fixed .str (tag - 0xa0)
  else if tag < 0xe0 then
    match tag with
    | 0xc0 => .done .nil
    | 0xc2 => .done (.bool false)
    | 0xc3 => .done (.bool true)
    | 0xc4 => .sized .bin 1
    | 0xc5 => .sized .bin 2
    | 0xc6 => .sized .bin 4
    | 0xcc => .unsigned 1
    | 0xcd => .unsigned 2
    | 0xce => .unsigned 4
    | 0xcf => .unsigned 8
    | 0xd0 => .signed 1
    | 0xd1 => .signed 2
    | 0xd2 => .signed 4
    | 0xd3 => .signed 8
    | 0xd9 => .sized .str 1
    | 0xda => .sized .str 2
    | 0xdb => .sized .str 4
    | 0xdc => .sized .array 2
    | 0xdd => .sized .array 4
    | 0xde => .sized .map 2
    | 0xdf => .sized .map 4
    | _ => .unknown
  else .done (.int (tag - 2 ^ 8))

/-- Read the contents of a value of known length. -/
def unpackBody
    (unpackOne : Bytes → Option (Value × Bytes))
    (kind : Sized)
    (length : Nat)
    (bytes : Bytes) : Option (Value × Bytes) :=
  match kind with
  | .str =>
      (takeExactly length bytes).map fun taken => (.str taken.1, taken.2)
  | .bin =>
      (takeExactly length bytes).map fun taken => (.bin taken.1, taken.2)
  | .array =>
      (unpackMany unpackOne length bytes).map fun taken =>
        (.array taken.1, taken.2)
  | .map =>
      (unpackMany unpackOne (2 * length) bytes).map fun taken =>
        (.map taken.1, taken.2)

/-- Read one value; the fuel bounds the nesting. -/
def unpackOne : Nat → Bytes → Option (Value × Bytes)
  | 0, _ => none
  | _ + 1, [] => none
  | fuel + 1, tag :: rest =>
      match readTag tag.toNat with
      | .done value => some (value, rest)
      | .unsigned width =>
          (readNat width rest).map fun taken => (.int taken.1, taken.2)
      | .signed width =>
          (readNat width rest).map fun taken =>
            (.int ((taken.1 : Int).bmod (2 ^ (8 * width))), taken.2)
      | .fixed kind length => unpackBody (unpackOne fuel) kind length rest
      | .sized kind width =>
          match readNat width rest with
          | none => none
          | some (length, body) =>
              unpackBody (unpackOne fuel) kind length body
      | .unknown => none

/-- Decode a value; what follows it is ignored. -/
def unpack (bytes : Bytes) : Option Value :=
  (unpackOne bytes.length bytes).map Prod.fst

mutual

/-- The value fits the format. -/
def Encodable : Value → Prop
  | .nil => True
  | .bool _ => True
  | .int value => -2 ^ 63 ≤ value ∧ value < 2 ^ 64
  | .str bytes => bytes.length < 2 ^ 32
  | .bin bytes => bytes.length < 2 ^ 32
  | .array items => items.length < 2 ^ 32 ∧ AllEncodable items
  | .map items =>
      items.length % 2 = 0 ∧ items.length / 2 < 2 ^ 32 ∧
        AllEncodable items

/-- All the values fit the format. -/
def AllEncodable : List Value → Prop
  | [] => True
  | value :: rest => Encodable value ∧ AllEncodable rest

end

/-- Consecutive integers. -/
def intsOf : List Value → Option (List Int)
  | [] => some []
  | .int value :: rest => (intsOf rest).map (value :: ·)
  | _ :: _ => none

namespace Value

/-- An array of integers. -/
def ofInts (values : List Int) : Value :=
  .array (values.map .int)

/-- Read an array of integers. -/
def ints? : Value → Option (List Int)
  | .array items => intsOf items
  | _ => none

/-- Bytes written as an array of integers. -/
def ofBytes (bytes : Bytes) : Value :=
  ofInts (bytes.map fun byte => (byte.toNat : Int))

/-- Integers that all fit a byte. -/
def bytesOf : List Int → Option Bytes
  | [] => some []
  | value :: rest =>
      if 0 ≤ value ∧ value < 256 then
        (bytesOf rest).map (UInt8.ofNat value.toNat :: ·)
      else none

/-- Read bytes written as an array of integers. -/
def bytes? (value : Value) : Option Bytes :=
  value.ints?.bind bytesOf

@[simp] theorem ints?_ofInts (values : List Int) :
    (ofInts values).ints? = some values := by
  induction values with
  | nil => rfl
  | cons value rest ih =>
      simp only [ofInts, ints?, List.map_cons, intsOf] at *
      simp [ih]

@[simp] theorem bytesOf_toNat (bytes : Bytes) :
    bytesOf (bytes.map fun byte => (byte.toNat : Int)) = some bytes := by
  induction bytes with
  | nil => rfl
  | cons byte rest ih =>
      have bound := byte.toNat_lt
      have inRange :
          (0 : Int) ≤ byte.toNat ∧ (byte.toNat : Int) < 256 := by
        omega
      simp [bytesOf, inRange, ih]

@[simp] theorem bytes?_ofBytes (bytes : Bytes) :
    (ofBytes bytes).bytes? = some bytes := by
  simp [bytes?, ofBytes]

theorem encodable_ofInts
    {values : List Int}
    (short : values.length < 2 ^ 32)
    (fit : ∀ value ∈ values, -2 ^ 63 ≤ value ∧ value < 2 ^ 64) :
    Encodable (ofInts values) := by
  refine ⟨by simpa using short, ?_⟩
  clear short
  induction values with
  | nil => trivial
  | cons value rest ih =>
      refine ⟨fit value (by simp), ?_⟩
      exact ih fun other member =>
        fit other (List.mem_cons_of_mem _ member)

theorem encodable_ofBytes
    {bytes : Bytes}
    (short : bytes.length < 2 ^ 32) :
    Encodable (ofBytes bytes) := by
  apply encodable_ofInts (by simpa using short)
  intro value member
  obtain ⟨byte, _, rfl⟩ := List.mem_map.mp member
  have bound := byte.toNat_lt
  omega

end Value

theorem takeExactly_append
    (bytes rest : Bytes) :
    takeExactly bytes.length (bytes ++ rest) = some (bytes, rest) := by
  simp [takeExactly]

theorem readNat_encode
    {width value : Nat}
    (fits : value < 256 ^ width)
    (rest : Bytes) :
    readNat width (BigEndian.encode width value ++ rest) =
      some (value, rest) := by
  have taken := takeExactly_append (BigEndian.encode width value) rest
  rw [BigEndian.length_encode] at taken
  simp [readNat, taken, BigEndian.decode_encode_of_lt fits]

theorem unpackOne_done
    {tag : Nat}
    {value : Value}
    (small : tag < 256)
    (announced : readTag tag = .done value)
    (fuel : Nat)
    (rest : Bytes) :
    unpackOne (fuel + 1) ([UInt8.ofNat tag] ++ rest) =
      some (value, rest) := by
  have tagByte : (UInt8.ofNat tag).toNat = tag := by
    simp
    omega
  simp [unpackOne, tagByte, announced]

theorem unpackOne_unsigned
    {tag width value : Nat}
    (small : tag < 256)
    (announced : readTag tag = .unsigned width)
    (fits : value < 256 ^ width)
    (fuel : Nat)
    (rest : Bytes) :
    unpackOne (fuel + 1) (header tag width value ++ rest) =
      some (.int value, rest) := by
  have tagByte : (UInt8.ofNat tag).toNat = tag := by
    simp
    omega
  simp [unpackOne, header, tagByte, announced, readNat_encode fits]

theorem unpackOne_signed
    {tag width half : Nat}
    {value : Int}
    (small : tag < 256)
    (announced : readTag tag = .signed width)
    (capacity : 2 * half = 2 ^ (8 * width))
    (negative : value < 0)
    (fits : -half ≤ value)
    (fuel : Nat)
    (rest : Bytes) :
    unpackOne (fuel + 1)
        (header tag width (value + (2 * half : Nat)).toNat ++ rest) =
      some (.int value, rest) := by
  have bytes : 256 ^ width = 2 * half := by
    rw [capacity, pow_mul]
    norm_num
  have inRange : (value + (2 * half : Nat)).toNat < 256 ^ width := by
    omega
  have complement :
      ((value + (2 * half : Nat)).toNat : Int).bmod (2 * half) = value := by
    rw [Int.toNat_of_nonneg (by omega), Int.add_bmod_right]
    exact Int.bmod_eq_of_le_mul_two (by omega) (by omega)
  have tagByte : (UInt8.ofNat tag).toNat = tag := by
    simp
    omega
  simp only [unpackOne, header, List.cons_append, tagByte, announced,
    readNat_encode inRange, Option.map_some, ← capacity, complement]

/-- A header that announces a body of this kind and length. -/
def Announces (bytes : Bytes) (kind : Sized) (length : Nat) : Prop :=
  ∀ fuel body,
    unpackOne (fuel + 1) (bytes ++ body) =
      unpackBody (unpackOne fuel) kind length body

theorem announces_fixed
    {tag length : Nat}
    {kind : Sized}
    (small : tag < 256)
    (announced : readTag tag = .fixed kind length) :
    Announces [UInt8.ofNat tag] kind length := by
  intro fuel body
  have tagByte : (UInt8.ofNat tag).toNat = tag := by
    simp
    omega
  simp [unpackOne, tagByte, announced]

theorem announces_sized
    {tag width length : Nat}
    {kind : Sized}
    (small : tag < 256)
    (announced : readTag tag = .sized kind width)
    (fits : length < 256 ^ width) :
    Announces (header tag width length) kind length := by
  intro fuel body
  have tagByte : (UInt8.ofNat tag).toNat = tag := by
    simp
    omega
  simp [unpackOne, header, tagByte, announced, readNat_encode fits]

theorem announces_packStrHeader
    {length : Nat}
    (fits : length < 2 ^ 32) :
    Announces (packStrHeader length) .str length := by
  unfold packStrHeader
  split
  · apply announces_fixed (by omega)
    simp only [readTag]
    split_ifs <;> simp_all <;> omega
  · split
    · exact announces_sized (by omega) rfl (by omega)
    · split
      · exact announces_sized (by omega) rfl (by omega)
      · exact announces_sized (by omega) rfl (by omega)

theorem announces_packBinHeader
    {length : Nat}
    (fits : length < 2 ^ 32) :
    Announces (packBinHeader length) .bin length := by
  unfold packBinHeader
  split
  · exact announces_sized (by omega) rfl (by omega)
  · split
    · exact announces_sized (by omega) rfl (by omega)
    · exact announces_sized (by omega) rfl (by omega)

theorem announces_packArrayHeader
    {length : Nat}
    (fits : length < 2 ^ 32) :
    Announces (packArrayHeader length) .array length := by
  unfold packArrayHeader
  split
  · apply announces_fixed (by omega)
    simp only [readTag]
    split_ifs <;> simp_all <;> omega
  · split
    · exact announces_sized (by omega) rfl (by omega)
    · exact announces_sized (by omega) rfl (by omega)

theorem announces_packMapHeader
    {length : Nat}
    (fits : length < 2 ^ 32) :
    Announces (packMapHeader length) .map length := by
  unfold packMapHeader
  split
  · apply announces_fixed (by omega)
    simp only [readTag]
    split_ifs <;> simp_all <;> omega
  · split
    · exact announces_sized (by omega) rfl (by omega)
    · exact announces_sized (by omega) rfl (by omega)

theorem unpackOne_packInt
    {value : Int}
    (atLeast : -2 ^ 63 ≤ value)
    (atMost : value < 2 ^ 64)
    (fuel : Nat)
    (rest : Bytes) :
    unpackOne (fuel + 1) (packInt value ++ rest) =
      some (.int value, rest) := by
  have complement : ∀ {half : Nat} {capacity : Int},
      ((2 * half : Nat) : Int) = capacity →
        value + (2 * half : Nat) = value + capacity := by
    intro half capacity same
    rw [same]
  unfold packInt
  split
  · rename_i nonnegative
    have asNat : (value.toNat : Int) = value :=
      Int.toNat_of_nonneg nonnegative
    have unsigned : ∀ {tag width : Nat},
        tag < 256 → readTag tag = .unsigned width →
          value.toNat < 256 ^ width →
            unpackOne (fuel + 1) (header tag width value.toNat ++ rest) =
              some (.int value, rest) := by
      intro tag width small announced fits
      rw [unpackOne_unsigned small announced fits, asNat]
    split
    · apply unpackOne_done (by omega)
      have small : value.toNat < 0x80 := by omega
      simp [readTag, small, asNat]
    · split
      · exact unsigned (by omega) rfl (by omega)
      · split
        · exact unsigned (by omega) rfl (by omega)
        · split
          · exact unsigned (by omega) rfl (by omega)
          · exact unsigned (by omega) rfl (by omega)
  · rename_i negative
    have below : value < 0 := by omega
    split
    · apply unpackOne_done (by omega)
      have large : ∀ bound, bound ≤ 0xe0 →
          ¬ (value + 2 ^ 8).toNat < bound := by
        intro bound _
        omega
      simp only [readTag, large 0x80 (by omega), large 0x90 (by omega),
        large 0xa0 (by omega), large 0xc0 (by omega),
        large 0xe0 (by omega), if_false, Tag.done.injEq,
        Value.int.injEq]
      omega
    · split
      · rw [← complement (show ((2 * 2 ^ 7 : Nat) : Int) = 2 ^ 8 by
          norm_num)]
        exact unpackOne_signed (by omega) rfl (by norm_num) below
          (by omega) fuel rest
      · split
        · rw [← complement (show ((2 * 2 ^ 15 : Nat) : Int) = 2 ^ 16 by
            norm_num)]
          exact unpackOne_signed (by omega) rfl (by norm_num) below
            (by omega) fuel rest
        · split
          · rw [← complement (show ((2 * 2 ^ 31 : Nat) : Int) = 2 ^ 32 by
              norm_num)]
            exact unpackOne_signed (by omega) rfl (by norm_num) below
              (by omega) fuel rest
          · rw [← complement (show ((2 * 2 ^ 63 : Nat) : Int) = 2 ^ 64 by
              norm_num)]
            exact unpackOne_signed (by omega) rfl (by norm_num) below
              (by omega) fuel rest

theorem length_header_pos (length : Nat) :
    0 < (packStrHeader length).length ∧
      0 < (packBinHeader length).length ∧
      0 < (packArrayHeader length).length ∧
      0 < (packMapHeader length).length := by
  refine ⟨?_, ?_, ?_, ?_⟩
  · unfold packStrHeader
    split_ifs <;> simp [header]
  · unfold packBinHeader
    split_ifs <;> simp [header]
  · unfold packArrayHeader
    split_ifs <;> simp [header]
  · unfold packMapHeader
    split_ifs <;> simp [header]

theorem length_pack_pos (value : Value) :
    0 < (pack value).length := by
  cases value with
  | nil => simp [pack]
  | bool value => cases value <;> simp [pack]
  | int value =>
      simp only [pack, packInt]
      split_ifs <;> simp [header]
  | str bytes =>
      have headers := length_header_pos bytes.length
      simp only [pack, List.length_append]
      omega
  | bin bytes =>
      have headers := length_header_pos bytes.length
      simp only [pack, List.length_append]
      omega
  | array items =>
      have headers := length_header_pos items.length
      simp only [pack, List.length_append]
      omega
  | map items =>
      have headers := length_header_pos (items.length / 2)
      simp only [pack, List.length_append]
      omega

mutual

theorem unpackOne_pack
    (value : Value)
    (encodable : Encodable value)
    (fuel : Nat)
    (enough : (pack value).length ≤ fuel)
    (rest : Bytes) :
    unpackOne fuel (pack value ++ rest) = some (value, rest) := by
  have positive := length_pack_pos value
  obtain ⟨inner, rfl⟩ : ∃ inner, fuel = inner + 1 :=
    ⟨fuel - 1, by omega⟩
  cases value with
  | nil =>
      exact unpackOne_done (by decide) rfl inner rest
  | bool value =>
      cases value with
      | false => exact unpackOne_done (by decide) rfl inner rest
      | true => exact unpackOne_done (by decide) rfl inner rest
  | int value =>
      exact unpackOne_packInt encodable.1 encodable.2 inner rest
  | str bytes =>
      have announced := announces_packStrHeader encodable inner
        (bytes ++ rest)
      simpa [pack, unpackBody, takeExactly_append] using announced
  | bin bytes =>
      have announced := announces_packBinHeader encodable inner
        (bytes ++ rest)
      simpa [pack, unpackBody, takeExactly_append] using announced
  | array items =>
      obtain ⟨fits, allEncodable⟩ := encodable
      have headers := length_header_pos items.length
      rw [pack, List.length_append] at enough
      have announced := announces_packArrayHeader fits inner
        (packAll items ++ rest)
      have contents := unpackMany_packAll items allEncodable inner
        (by omega) rest
      simpa [pack, unpackBody, contents] using announced
  | map items =>
      obtain ⟨even, fits, allEncodable⟩ := encodable
      have headers := length_header_pos (items.length / 2)
      rw [pack, List.length_append] at enough
      have announced := announces_packMapHeader fits inner
        (packAll items ++ rest)
      have contents := unpackMany_packAll items allEncodable inner
        (by omega) rest
      have length : 2 * (items.length / 2) = items.length := by omega
      simpa [pack, unpackBody, length, contents] using announced

theorem unpackMany_packAll
    (items : List Value)
    (encodable : AllEncodable items)
    (fuel : Nat)
    (enough : (packAll items).length ≤ fuel)
    (rest : Bytes) :
    unpackMany (unpackOne fuel) items.length (packAll items ++ rest) =
      some (items, rest) := by
  cases items with
  | nil =>
      rfl
  | cons value later =>
      obtain ⟨headEncodable, laterEncodable⟩ := encodable
      rw [packAll, List.length_append] at enough
      have first := unpackOne_pack value headEncodable fuel (by omega)
        (packAll later ++ rest)
      have others := unpackMany_packAll later laterEncodable fuel
        (by omega) rest
      simp [packAll, unpackMany, first, others]

end

theorem unpack_pack
    {value : Value}
    (encodable : Encodable value) :
    unpack (pack value) = some value := by
  have readBack := unpackOne_pack value encodable (pack value).length
    (Nat.le_refl _) []
  simp only [List.append_nil] at readBack
  simp [unpack, readBack]

end MeFuzz.MessagePack
