import MeFuzz.ByteStream
import MeFuzz.Procedures

namespace MeFuzz.Concolic

/-!
# The messages of a concolic trace

A trace is a stream of messages.  Those that produce a value are numbered, and
later messages refer to them by their numbers.  In the stream a reference is the
distance back to the message that it refers to.
-/

/-- `SymExprRef`, a number that is not zero. -/
abbrev SymExprRef := { id : Nat // 0 < id }

/-- `Location`. -/
abbrev Location := Nat

/-- `SymExpr`. -/
inductive SymExpr where
  | inputByte (offset : Nat) (value : UInt8)
  | integer (value : UInt64) (bits : UInt8)
  | integer128 (high low : UInt64)
  | float (value : Float) (isDouble : Bool)
  | nullPointer
  | true
  | false
  | bool (value : Bool)
  | neg (op : SymExprRef)
  | add (a b : SymExprRef)
  | sub (a b : SymExprRef)
  | mul (a b : SymExprRef)
  | unsignedDiv (a b : SymExprRef)
  | signedDiv (a b : SymExprRef)
  | unsignedRem (a b : SymExprRef)
  | signedRem (a b : SymExprRef)
  | shiftLeft (a b : SymExprRef)
  | logicalShiftRight (a b : SymExprRef)
  | arithmeticShiftRight (a b : SymExprRef)
  | signedLessThan (a b : SymExprRef)
  | signedLessEqual (a b : SymExprRef)
  | signedGreaterThan (a b : SymExprRef)
  | signedGreaterEqual (a b : SymExprRef)
  | unsignedLessThan (a b : SymExprRef)
  | unsignedLessEqual (a b : SymExprRef)
  | unsignedGreaterThan (a b : SymExprRef)
  | unsignedGreaterEqual (a b : SymExprRef)
  | not (op : SymExprRef)
  | equal (a b : SymExprRef)
  | notEqual (a b : SymExprRef)
  | boolAnd (a b : SymExprRef)
  | boolOr (a b : SymExprRef)
  | boolXor (a b : SymExprRef)
  | and (a b : SymExprRef)
  | or (a b : SymExprRef)
  | xor (a b : SymExprRef)
  | floatOrdered (a b : SymExprRef)
  | floatOrderedGreaterThan (a b : SymExprRef)
  | floatOrderedGreaterEqual (a b : SymExprRef)
  | floatOrderedLessThan (a b : SymExprRef)
  | floatOrderedLessEqual (a b : SymExprRef)
  | floatOrderedEqual (a b : SymExprRef)
  | floatOrderedNotEqual (a b : SymExprRef)
  | floatUnordered (a b : SymExprRef)
  | floatUnorderedGreaterThan (a b : SymExprRef)
  | floatUnorderedGreaterEqual (a b : SymExprRef)
  | floatUnorderedLessThan (a b : SymExprRef)
  | floatUnorderedLessEqual (a b : SymExprRef)
  | floatUnorderedEqual (a b : SymExprRef)
  | floatUnorderedNotEqual (a b : SymExprRef)
  | floatAbs (op : SymExprRef)
  | floatAdd (a b : SymExprRef)
  | floatSub (a b : SymExprRef)
  | floatMul (a b : SymExprRef)
  | floatDiv (a b : SymExprRef)
  | floatRem (a b : SymExprRef)
  | sext (op : SymExprRef) (bits : UInt8)
  | zext (op : SymExprRef) (bits : UInt8)
  | trunc (op : SymExprRef) (bits : UInt8)
  | intToFloat (op : SymExprRef) (isDouble isSigned : Bool)
  | floatToFloat (op : SymExprRef) (toDouble : Bool)
  | bitsToFloat (op : SymExprRef) (toDouble : Bool)
  | floatToBits (op : SymExprRef)
  | floatToSignedInteger (op : SymExprRef) (bits : UInt8)
  | floatToUnsignedInteger (op : SymExprRef) (bits : UInt8)
  | boolToBit (op : SymExprRef)
  | concat (a b : SymExprRef)
  | extract (op : SymExprRef) (firstBit lastBit : Nat)
  | insert (target toInsert : SymExprRef) (offset : UInt64) (littleEndian : Bool)
  | pathConstraint (constraint : SymExprRef) (taken : Bool) (location : Location)
  | expressionsUnreachable (exprs : List SymExprRef)
  | call (location : Location)
  | ret (location : Location)
  | basicBlock (location : Location)
  deriving DecidableEq

namespace SymExpr

/-- Whether a message is a `PathConstraint`. -/
def isPathConstraint : SymExpr → Bool
  | .pathConstraint _ _ _ => Bool.true
  | _ => Bool.false

/-- Whether a message produces a value, which its number stands for. -/
def producesValue : SymExpr → Bool
  | .pathConstraint _ _ _ | .expressionsUnreachable _ => Bool.false
  | .call _ | .ret _ | .basicBlock _ => Bool.false
  | _ => Bool.true

/-- The references in a message. -/
def operands : SymExpr → List SymExprRef
  | .inputByte _ _ | .integer _ _ | .integer128 _ _ | .float _ _ => []
  | .nullPointer | .true | .false | .bool _ => []
  | .neg op | .floatAbs op | .not op | .sext op _ | .zext op _ => [op]
  | .trunc op _ | .intToFloat op _ _ | .floatToFloat op _ => [op]
  | .bitsToFloat op _ | .floatToBits op | .floatToSignedInteger op _ => [op]
  | .floatToUnsignedInteger op _ | .boolToBit op | .extract op _ _ => [op]
  | .add a b | .sub a b | .mul a b | .unsignedDiv a b => [a, b]
  | .signedDiv a b | .unsignedRem a b | .signedRem a b => [a, b]
  | .shiftLeft a b | .logicalShiftRight a b => [a, b]
  | .arithmeticShiftRight a b | .signedLessThan a b => [a, b]
  | .signedLessEqual a b | .signedGreaterThan a b => [a, b]
  | .signedGreaterEqual a b | .unsignedLessThan a b => [a, b]
  | .unsignedLessEqual a b | .unsignedGreaterThan a b => [a, b]
  | .unsignedGreaterEqual a b | .equal a b | .notEqual a b => [a, b]
  | .boolAnd a b | .boolOr a b | .boolXor a b => [a, b]
  | .and a b | .or a b | .xor a b => [a, b]
  | .floatOrdered a b | .floatOrderedGreaterThan a b => [a, b]
  | .floatOrderedGreaterEqual a b | .floatOrderedLessThan a b => [a, b]
  | .floatOrderedLessEqual a b | .floatOrderedEqual a b => [a, b]
  | .floatOrderedNotEqual a b | .floatUnordered a b => [a, b]
  | .floatUnorderedGreaterThan a b | .floatUnorderedGreaterEqual a b => [a, b]
  | .floatUnorderedLessThan a b | .floatUnorderedLessEqual a b => [a, b]
  | .floatUnorderedEqual a b | .floatUnorderedNotEqual a b => [a, b]
  | .floatAdd a b | .floatSub a b | .floatMul a b | .floatDiv a b => [a, b]
  | .floatRem a b | .concat a b | .insert a b _ _ => [a, b]
  | .pathConstraint op _ _ => [op]
  | .expressionsUnreachable exprs => exprs
  | .call _ | .ret _ | .basicBlock _ => []

end SymExpr

/-- A conversion of references, which panics where it is `none`. -/
abbrev Conversion := SymExprRef → Option SymExprRef

/--
The conversion of `make_relative` and `make_absolute`: the distance to the
counter, where `SymExprRef::new` is unwrapped.
-/
def distance (counter : Nat) : Conversion :=
  fun expr =>
    if below : expr.val < counter then
      some ⟨counter - expr.val, Nat.sub_pos_of_lt below⟩
    else none

/-- A message with one reference that produces a value. -/
def convertUnary
    (make : SymExprRef → SymExpr)
    (convert : Conversion)
    (op : SymExprRef) : Option (SymExpr × Nat) := do
  let op ← convert op
  some (make op, 1)

/-- A message with two references that produces a value. -/
def convertBinary
    (make : SymExprRef → SymExprRef → SymExpr)
    (convert : Conversion)
    (a b : SymExprRef) : Option (SymExpr × Nat) := do
  let a ← convert a
  let b ← convert b
  some (make a b, 1)

/--
The match of `MessageFileWriter::write_message`: the message with its references
converted, and by how much the counter grows.
-/
def MessageFileWriter.convert
    (makeRelative : Conversion) : SymExpr → Option (SymExpr × Nat)
  | .inputByte offset value => some (.inputByte offset value, 1)
  | .integer value bits => some (.integer value bits, 1)
  | .integer128 high low => some (.integer128 high low, 1)
  | .float value isDouble => some (.float value isDouble, 1)
  | .nullPointer => some (.nullPointer, 1)
  | .true => some (.true, 1)
  | .false => some (.false, 1)
  | .bool value => some (.bool value, 1)
  | .neg op => convertUnary .neg makeRelative op
  | .floatAbs op => convertUnary .floatAbs makeRelative op
  | .not op => convertUnary .not makeRelative op
  | .sext op bits => convertUnary (.sext · bits) makeRelative op
  | .zext op bits => convertUnary (.zext · bits) makeRelative op
  | .trunc op bits => convertUnary (.trunc · bits) makeRelative op
  | .intToFloat op isDouble isSigned =>
      convertUnary (.intToFloat · isDouble isSigned) makeRelative op
  | .floatToFloat op toDouble =>
      convertUnary (.floatToFloat · toDouble) makeRelative op
  | .bitsToFloat op toDouble =>
      convertUnary (.bitsToFloat · toDouble) makeRelative op
  | .floatToBits op => convertUnary .floatToBits makeRelative op
  | .floatToSignedInteger op bits =>
      convertUnary (.floatToSignedInteger · bits) makeRelative op
  | .floatToUnsignedInteger op bits =>
      convertUnary (.floatToUnsignedInteger · bits) makeRelative op
  | .boolToBit op => convertUnary .boolToBit makeRelative op
  | .extract op firstBit lastBit =>
      convertUnary (.extract · firstBit lastBit) makeRelative op
  | .add a b => convertBinary .add makeRelative a b
  | .sub a b => convertBinary .sub makeRelative a b
  | .mul a b => convertBinary .mul makeRelative a b
  | .unsignedDiv a b => convertBinary .unsignedDiv makeRelative a b
  | .signedDiv a b => convertBinary .signedDiv makeRelative a b
  | .unsignedRem a b => convertBinary .unsignedRem makeRelative a b
  | .signedRem a b => convertBinary .signedRem makeRelative a b
  | .shiftLeft a b => convertBinary .shiftLeft makeRelative a b
  | .logicalShiftRight a b =>
      convertBinary .logicalShiftRight makeRelative a b
  | .arithmeticShiftRight a b =>
      convertBinary .arithmeticShiftRight makeRelative a b
  | .signedLessThan a b => convertBinary .signedLessThan makeRelative a b
  | .signedLessEqual a b => convertBinary .signedLessEqual makeRelative a b
  | .signedGreaterThan a b => convertBinary .signedGreaterThan makeRelative a b
  | .signedGreaterEqual a b =>
      convertBinary .signedGreaterEqual makeRelative a b
  | .unsignedLessThan a b => convertBinary .unsignedLessThan makeRelative a b
  | .unsignedLessEqual a b => convertBinary .unsignedLessEqual makeRelative a b
  | .unsignedGreaterThan a b =>
      convertBinary .unsignedGreaterThan makeRelative a b
  | .unsignedGreaterEqual a b =>
      convertBinary .unsignedGreaterEqual makeRelative a b
  | .equal a b => convertBinary .equal makeRelative a b
  | .notEqual a b => convertBinary .notEqual makeRelative a b
  | .boolAnd a b => convertBinary .boolAnd makeRelative a b
  | .boolOr a b => convertBinary .boolOr makeRelative a b
  | .boolXor a b => convertBinary .boolXor makeRelative a b
  | .and a b => convertBinary .and makeRelative a b
  | .or a b => convertBinary .or makeRelative a b
  | .xor a b => convertBinary .xor makeRelative a b
  | .floatOrdered a b => convertBinary .floatOrdered makeRelative a b
  | .floatOrderedGreaterThan a b =>
      convertBinary .floatOrderedGreaterThan makeRelative a b
  | .floatOrderedGreaterEqual a b =>
      convertBinary .floatOrderedGreaterEqual makeRelative a b
  | .floatOrderedLessThan a b =>
      convertBinary .floatOrderedLessThan makeRelative a b
  | .floatOrderedLessEqual a b =>
      convertBinary .floatOrderedLessEqual makeRelative a b
  | .floatOrderedEqual a b => convertBinary .floatOrderedEqual makeRelative a b
  | .floatOrderedNotEqual a b =>
      convertBinary .floatOrderedNotEqual makeRelative a b
  | .floatUnordered a b => convertBinary .floatUnordered makeRelative a b
  | .floatUnorderedGreaterThan a b =>
      convertBinary .floatUnorderedGreaterThan makeRelative a b
  | .floatUnorderedGreaterEqual a b =>
      convertBinary .floatUnorderedGreaterEqual makeRelative a b
  | .floatUnorderedLessThan a b =>
      convertBinary .floatUnorderedLessThan makeRelative a b
  | .floatUnorderedLessEqual a b =>
      convertBinary .floatUnorderedLessEqual makeRelative a b
  | .floatUnorderedEqual a b =>
      convertBinary .floatUnorderedEqual makeRelative a b
  | .floatUnorderedNotEqual a b =>
      convertBinary .floatUnorderedNotEqual makeRelative a b
  | .floatAdd a b => convertBinary .floatAdd makeRelative a b
  | .floatSub a b => convertBinary .floatSub makeRelative a b
  | .floatMul a b => convertBinary .floatMul makeRelative a b
  | .floatDiv a b => convertBinary .floatDiv makeRelative a b
  | .floatRem a b => convertBinary .floatRem makeRelative a b
  | .concat a b => convertBinary .concat makeRelative a b
  | .insert a b offset littleEndian =>
      convertBinary (.insert · · offset littleEndian) makeRelative a b
  | .pathConstraint op taken location => do
      let op ← makeRelative op
      some (.pathConstraint op taken location, 0)
  | .expressionsUnreachable exprs => do
      let exprs ← exprs.mapM makeRelative
      some (.expressionsUnreachable exprs, 0)
  | .call location => some (.call location, 0)
  | .ret location => some (.ret location, 0)
  | .basicBlock location => some (.basicBlock location, 0)

/-- The match of `MessageFileReader::transform_message`, in the same way. -/
def MessageFileReader.convert
    (makeAbsolute : Conversion) : SymExpr → Option (SymExpr × Nat)
  | .inputByte offset value => some (.inputByte offset value, 1)
  | .integer value bits => some (.integer value bits, 1)
  | .integer128 high low => some (.integer128 high low, 1)
  | .float value isDouble => some (.float value isDouble, 1)
  | .nullPointer => some (.nullPointer, 1)
  | .true => some (.true, 1)
  | .false => some (.false, 1)
  | .bool value => some (.bool value, 1)
  | .neg op => convertUnary .neg makeAbsolute op
  | .floatAbs op => convertUnary .floatAbs makeAbsolute op
  | .not op => convertUnary .not makeAbsolute op
  | .sext op bits => convertUnary (.sext · bits) makeAbsolute op
  | .zext op bits => convertUnary (.zext · bits) makeAbsolute op
  | .trunc op bits => convertUnary (.trunc · bits) makeAbsolute op
  | .intToFloat op isDouble isSigned =>
      convertUnary (.intToFloat · isDouble isSigned) makeAbsolute op
  | .floatToFloat op toDouble =>
      convertUnary (.floatToFloat · toDouble) makeAbsolute op
  | .bitsToFloat op toDouble =>
      convertUnary (.bitsToFloat · toDouble) makeAbsolute op
  | .floatToBits op => convertUnary .floatToBits makeAbsolute op
  | .floatToSignedInteger op bits =>
      convertUnary (.floatToSignedInteger · bits) makeAbsolute op
  | .floatToUnsignedInteger op bits =>
      convertUnary (.floatToUnsignedInteger · bits) makeAbsolute op
  | .boolToBit op => convertUnary .boolToBit makeAbsolute op
  | .extract op firstBit lastBit =>
      convertUnary (.extract · firstBit lastBit) makeAbsolute op
  | .add a b => convertBinary .add makeAbsolute a b
  | .sub a b => convertBinary .sub makeAbsolute a b
  | .mul a b => convertBinary .mul makeAbsolute a b
  | .unsignedDiv a b => convertBinary .unsignedDiv makeAbsolute a b
  | .signedDiv a b => convertBinary .signedDiv makeAbsolute a b
  | .unsignedRem a b => convertBinary .unsignedRem makeAbsolute a b
  | .signedRem a b => convertBinary .signedRem makeAbsolute a b
  | .shiftLeft a b => convertBinary .shiftLeft makeAbsolute a b
  | .logicalShiftRight a b =>
      convertBinary .logicalShiftRight makeAbsolute a b
  | .arithmeticShiftRight a b =>
      convertBinary .arithmeticShiftRight makeAbsolute a b
  | .signedLessThan a b => convertBinary .signedLessThan makeAbsolute a b
  | .signedLessEqual a b => convertBinary .signedLessEqual makeAbsolute a b
  | .signedGreaterThan a b => convertBinary .signedGreaterThan makeAbsolute a b
  | .signedGreaterEqual a b =>
      convertBinary .signedGreaterEqual makeAbsolute a b
  | .unsignedLessThan a b => convertBinary .unsignedLessThan makeAbsolute a b
  | .unsignedLessEqual a b => convertBinary .unsignedLessEqual makeAbsolute a b
  | .unsignedGreaterThan a b =>
      convertBinary .unsignedGreaterThan makeAbsolute a b
  | .unsignedGreaterEqual a b =>
      convertBinary .unsignedGreaterEqual makeAbsolute a b
  | .equal a b => convertBinary .equal makeAbsolute a b
  | .notEqual a b => convertBinary .notEqual makeAbsolute a b
  | .boolAnd a b => convertBinary .boolAnd makeAbsolute a b
  | .boolOr a b => convertBinary .boolOr makeAbsolute a b
  | .boolXor a b => convertBinary .boolXor makeAbsolute a b
  | .and a b => convertBinary .and makeAbsolute a b
  | .or a b => convertBinary .or makeAbsolute a b
  | .xor a b => convertBinary .xor makeAbsolute a b
  | .floatOrdered a b => convertBinary .floatOrdered makeAbsolute a b
  | .floatOrderedGreaterThan a b =>
      convertBinary .floatOrderedGreaterThan makeAbsolute a b
  | .floatOrderedGreaterEqual a b =>
      convertBinary .floatOrderedGreaterEqual makeAbsolute a b
  | .floatOrderedLessThan a b =>
      convertBinary .floatOrderedLessThan makeAbsolute a b
  | .floatOrderedLessEqual a b =>
      convertBinary .floatOrderedLessEqual makeAbsolute a b
  | .floatOrderedEqual a b => convertBinary .floatOrderedEqual makeAbsolute a b
  | .floatOrderedNotEqual a b =>
      convertBinary .floatOrderedNotEqual makeAbsolute a b
  | .floatUnordered a b => convertBinary .floatUnordered makeAbsolute a b
  | .floatUnorderedGreaterThan a b =>
      convertBinary .floatUnorderedGreaterThan makeAbsolute a b
  | .floatUnorderedGreaterEqual a b =>
      convertBinary .floatUnorderedGreaterEqual makeAbsolute a b
  | .floatUnorderedLessThan a b =>
      convertBinary .floatUnorderedLessThan makeAbsolute a b
  | .floatUnorderedLessEqual a b =>
      convertBinary .floatUnorderedLessEqual makeAbsolute a b
  | .floatUnorderedEqual a b =>
      convertBinary .floatUnorderedEqual makeAbsolute a b
  | .floatUnorderedNotEqual a b =>
      convertBinary .floatUnorderedNotEqual makeAbsolute a b
  | .floatAdd a b => convertBinary .floatAdd makeAbsolute a b
  | .floatSub a b => convertBinary .floatSub makeAbsolute a b
  | .floatMul a b => convertBinary .floatMul makeAbsolute a b
  | .floatDiv a b => convertBinary .floatDiv makeAbsolute a b
  | .floatRem a b => convertBinary .floatRem makeAbsolute a b
  | .concat a b => convertBinary .concat makeAbsolute a b
  | .insert a b offset littleEndian =>
      convertBinary (.insert · · offset littleEndian) makeAbsolute a b
  | .pathConstraint op taken location => do
      let op ← makeAbsolute op
      some (.pathConstraint op taken location, 0)
  | .expressionsUnreachable exprs => do
      let exprs ← exprs.mapM makeAbsolute
      some (.expressionsUnreachable exprs, 0)
  | .call location => some (.call location, 0)
  | .ret location => some (.ret location, 0)
  | .basicBlock location => some (.basicBlock location, 0)

/-- A conversion that takes back another one. -/
def TakesBack (back convert : Conversion) : Prop :=
  ∀ ref converted, convert ref = some converted → back converted = some ref

theorem takesBack_distance
    (counter : Nat) :
    TakesBack (distance counter) (distance counter) := by
  intro ref converted converts
  unfold distance at converts ⊢
  split at converts
  · rename_i below
    cases converts
    have positive := ref.property
    rw [dif_pos (by dsimp only; omega)]
    congr
    dsimp only
    omega
  · cases converts

/-- What the writer makes of a message, as far as its kind goes. -/
structure Converts
    (message stored : SymExpr)
    (grows : Nat) : Prop where
  grows : grows = if message.producesValue then 1 else 0
  isPathConstraint : stored.isPathConstraint = message.isPathConstraint

section

variable {convert back : Conversion}
variable {message stored : SymExpr}
variable {grows : Nat}

theorem convertUnary_eq_some
    {make : SymExprRef → SymExpr}
    {op : SymExprRef}
    (converts : convertUnary make convert op = some (stored, grows)) :
    ∃ converted,
      convert op = some converted ∧ stored = make converted ∧ grows = 1 := by
  obtain ⟨converted, isConverted, same⟩ := Option.bind_eq_some_iff.mp converts
  cases same
  exact ⟨converted, isConverted, rfl, rfl⟩

theorem convertBinary_eq_some
    {make : SymExprRef → SymExprRef → SymExpr}
    {a b : SymExprRef}
    (converts : convertBinary make convert a b = some (stored, grows)) :
    ∃ first second,
      convert a = some first ∧ convert b = some second ∧
        stored = make first second ∧ grows = 1 := by
  obtain ⟨first, isFirst, later⟩ := Option.bind_eq_some_iff.mp converts
  obtain ⟨second, isSecond, same⟩ := Option.bind_eq_some_iff.mp later
  cases same
  exact ⟨first, second, isFirst, isSecond, rfl, rfl⟩

theorem convertUnary_back
    {make : SymExprRef → SymExpr}
    {op converted : SymExprRef}
    (takesBack : TakesBack back convert)
    (isConverted : convert op = some converted) :
    convertUnary make back converted = some (make op, 1) := by
  rw [convertUnary, takesBack op converted isConverted]
  rfl

theorem convertBinary_back
    {make : SymExprRef → SymExprRef → SymExpr}
    {a b first second : SymExprRef}
    (takesBack : TakesBack back convert)
    (isFirst : convert a = some first)
    (isSecond : convert b = some second) :
    convertBinary make back first second = some (make a b, 1) := by
  rw [convertBinary, takesBack a first isFirst, takesBack b second isSecond]
  rfl

theorem mapM_back
    (takesBack : TakesBack back convert)
    {exprs converted : List SymExprRef}
    (converts : exprs.mapM convert = some converted) :
    converted.mapM back = some exprs := by
  induction exprs generalizing converted with
  | nil =>
      cases converts
      rfl
  | cons expr rest ih =>
      rw [List.mapM_cons] at converts
      obtain ⟨first, isFirst, later⟩ := Option.bind_eq_some_iff.mp converts
      obtain ⟨others, areOthers, same⟩ := Option.bind_eq_some_iff.mp later
      cases same
      rw [List.mapM_cons, takesBack expr first isFirst,
        ih areOthers]
      rfl

theorem converts_of_convert
    (converts :
      MessageFileWriter.convert convert message = some (stored, grows)) :
    Converts message stored grows := by
  cases message
  case pathConstraint op taken location =>
    obtain ⟨converted, _, same⟩ := Option.bind_eq_some_iff.mp converts
    cases same
    exact ⟨rfl, rfl⟩
  case expressionsUnreachable exprs =>
    obtain ⟨converted, _, same⟩ := Option.bind_eq_some_iff.mp converts
    cases same
    exact ⟨rfl, rfl⟩
  all_goals first
    | cases converts
      exact ⟨rfl, rfl⟩
    | obtain ⟨converted, _, rfl, rfl⟩ := convertUnary_eq_some converts
      exact ⟨rfl, rfl⟩
    | obtain ⟨first, second, _, _, rfl, rfl⟩ := convertBinary_eq_some converts
      exact ⟨rfl, rfl⟩

theorem convert_back
    (takesBack : TakesBack back convert)
    (converts :
      MessageFileWriter.convert convert message = some (stored, grows)) :
    MessageFileReader.convert back stored = some (message, grows) := by
  cases message
  case pathConstraint op taken location =>
    obtain ⟨converted, isConverted, same⟩ :=
      Option.bind_eq_some_iff.mp converts
    cases same
    rw [MessageFileReader.convert, takesBack op converted isConverted]
    rfl
  case expressionsUnreachable exprs =>
    obtain ⟨converted, isConverted, same⟩ :=
      Option.bind_eq_some_iff.mp converts
    cases same
    rw [MessageFileReader.convert, mapM_back takesBack isConverted]
    rfl
  all_goals first
    | cases converts
      rfl
    | obtain ⟨converted, isConverted, rfl, rfl⟩ :=
        convertUnary_eq_some converts
      exact convertUnary_back takesBack isConverted
    | obtain ⟨first, second, isFirst, isSecond, rfl, rfl⟩ :=
        convertBinary_eq_some converts
      exact convertBinary_back takesBack isFirst isSecond

theorem exists_convert
    (convertible :
      ∀ op ∈ message.operands, ∃ converted, convert op = some converted) :
    ∃ stored grows,
      MessageFileWriter.convert convert message = some (stored, grows) := by
  have unary :
      ∀ make op, (∃ converted, convert op = some converted) →
        ∃ stored grows,
          convertUnary make convert op = some (stored, grows) := by
    rintro make op ⟨converted, isConverted⟩
    exact ⟨_, _, by rw [convertUnary, isConverted]; rfl⟩
  have binary :
      ∀ make a b,
        (∀ op ∈ [a, b], ∃ converted, convert op = some converted) →
          ∃ stored grows,
            convertBinary make convert a b = some (stored, grows) := by
    intro make a b each
    obtain ⟨first, isFirst⟩ := each a (by simp)
    obtain ⟨second, isSecond⟩ := each b (by simp)
    exact ⟨_, _, by rw [convertBinary, isFirst, isSecond]; rfl⟩
  cases message
  case pathConstraint op taken location =>
    obtain ⟨converted, isConverted⟩ := convertible op (by simp [SymExpr.operands])
    exact ⟨_, _, by rw [MessageFileWriter.convert, isConverted]; rfl⟩
  case expressionsUnreachable exprs =>
    obtain ⟨converted, isConverted⟩ :
        ∃ converted, exprs.mapM convert = some converted := by
      change ∀ op ∈ exprs, _ at convertible
      induction exprs with
      | nil =>
          exact ⟨[], rfl⟩
      | cons expr rest ih =>
          obtain ⟨first, isFirst⟩ := convertible expr List.mem_cons_self
          obtain ⟨others, areOthers⟩ :=
            ih fun op isOp =>
              convertible op (List.mem_cons_of_mem _ isOp)
          exact ⟨first :: others, by
            rw [List.mapM_cons, isFirst, areOthers]
            rfl⟩
    exact ⟨_, _, by rw [MessageFileWriter.convert, isConverted]; rfl⟩
  all_goals first
    | exact ⟨_, _, rfl⟩
    | exact unary _ _ (convertible _ List.mem_cons_self)
    | exact binary _ _ _ convertible

end

end MeFuzz.Concolic
