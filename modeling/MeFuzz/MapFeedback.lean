import Mathlib

namespace MeFuzz.Feedbacks

/-!
# Map feedbacks

A map feedback keeps a history of the maps that the target left behind.  A map is
interesting when reducing one of its entries into the history is novel.  Maps of
bytes whose maximum is kept have an `is_interesting` of their own on nightly
compilers, which goes over sixteen entries at once.

Reads that are out of bounds panic or are undefined; both are `none` here.
-/

/-- `MapObserver`. -/
structure MapObserver (T : Type) where
  asSlice : List T
  usableCount : Nat
  len : Nat
  initial : T
  deriving DecidableEq

/-- `as_iter`. -/
def MapObserver.asIter
    {T : Type}
    (observer : MapObserver T) : Option (List T) :=
  if observer.usableCount ≤ observer.asSlice.length then
    some (observer.asSlice.take observer.usableCount)
  else none

/-- A feedback, with the history that its metadata hold. -/
structure MapFeedback (T : Type) where
  indexes : Bool
  novelties : Option (List Nat)
  historyMap : List T
  deriving DecidableEq

/-- `Vec::resize`, where the history is shorter than the map. -/
def resized
    {T : Type}
    (historyMap : List T)
    (len : Nat)
    (value : T) : List T :=
  historyMap ++ List.replicate (len - historyMap.length) value

/-- `OrReducer::reduce`. -/
def OrReducer.reduce
    {T : Type}
    [OrOp T]
    (history new : T) : T :=
  history ||| new

/-- `MaxReducer::reduce`. -/
def MaxReducer.reduce
    {T : Type}
    [LT T]
    [DecidableLT T]
    (first second : T) : T :=
  if second < first then first else second

/-- `DifferentIsNovel::is_novel`. -/
def DifferentIsNovel.isNovel
    {T : Type}
    [DecidableEq T]
    (old new : T) : Bool :=
  old ≠ new

/-- What `saturating_next_power_of_two` uses of a primitive integer type. -/
class PrimInt (T : Type) where
  one : T
  maxValue : T
  sub : T → T → T
  saturatingAdd : T → T → T
  shiftRight : T → Nat → T
  leadingZeros : T → Nat

/-- `saturating_next_power_of_two`. -/
def saturatingNextPowerOfTwo
    {T : Type}
    [LE T]
    [DecidableLE T]
    [PrimInt T]
    (n : T) : T :=
  if n ≤ PrimInt.one then PrimInt.one
  else
    PrimInt.saturatingAdd
      (PrimInt.shiftRight PrimInt.maxValue
        (PrimInt.leadingZeros (PrimInt.sub n PrimInt.one)))
      PrimInt.one

/-- `NextPow2IsNovel::is_novel`. -/
def NextPow2IsNovel.isNovel
    {T : Type}
    [LE T]
    [DecidableLE T]
    [PrimInt T]
    (old new : T) : Bool :=
  if new ≤ old then false
  else saturatingNextPowerOfTwo (PrimInt.saturatingAdd old PrimInt.one) ≤ new

/-- The unsigned integers of a width. -/
instance (width : Nat) : PrimInt (BitVec width) where
  one := 1
  maxValue := BitVec.allOnes width
  sub := (· - ·)
  saturatingAdd a b :=
    if a.toNat + b.toNat < 2 ^ width then a + b else BitVec.allOnes width
  shiftRight := (· >>> ·)
  leadingZeros n := width - n.toNat.size

example : NextPow2IsNovel.isNovel (2 : BitVec 8) 3 = false := by decide

example : NextPow2IsNovel.isNovel (254 : BitVec 8) 255 = true := by decide

/-- The entries of a map that are not initial, with their indices. -/
def touched
    {T : Type}
    [DecidableEq T]
    (initial : T)
    (items : List T) : List (T × Nat) :=
  items.zipIdx.filter fun cell => cell.1 ≠ initial

/-- A loop that stops at the first element with a property. -/
def findsOne
    {Element : Type*}
    (found : Element → Option Bool) : List Element → Option Bool
  | [] => some false
  | element :: rest => do
      if ← found element then some true else findsOne found rest

/-- The body of a loop that tracks the elements with a property. -/
def track
    {Element : Type*}
    (found : Element → Option Bool)
    (index : Element → Nat)
    (tracked : Bool × List Nat)
    (element : Element) : Option (Bool × List Nat) := do
  if ← found element then some (true, tracked.2 ++ [index element])
  else some tracked

section

variable {T : Type}
variable (reduce : T → T → T)
variable (isNovel : T → T → Bool)
variable (historyMap : List T)

/-- Whether an entry of the map is a novelty. -/
def isNovelty (cell : T × Nat) : Option Bool := do
  let existing ← historyMap[cell.2]?
  some (isNovel existing (reduce existing cell.1))

end

section

variable {T : Type}
variable [DecidableEq T]
variable (reduce : T → T → T)
variable (isNovel : T → T → Bool)

/-- `is_interesting_default`. -/
def isInterestingDefault
    (observer : MapObserver T)
    (self : MapFeedback T) : Option (Bool × MapFeedback T) := do
  let historyMap := resized self.historyMap observer.len observer.initial
  let items ← observer.asIter
  let cells := touched observer.initial items
  if self.novelties.isSome then
    let (interesting, novelties) ←
      cells.foldlM (track (isNovelty reduce isNovel historyMap) Prod.snd)
        (false, [])
    some (interesting, { self with historyMap, novelties := some novelties })
  else
    let interesting ← findsOne (isNovelty reduce isNovel historyMap) cells
    some (interesting, { self with historyMap })

/-- The history after the entries of a map were reduced into it. -/
def reduceInto (historyMap : List T) : List (T × Nat) → Option (List T)
  | [] => some historyMap
  | cell :: rest => do
      let existing ← historyMap[cell.2]?
      reduceInto (historyMap.set cell.2 (reduce existing cell.1)) rest

/-- What `append_metadata` adds to a testcase. -/
structure TestcaseMetadata where
  novelties : Option (List Nat)
  indexes : Option (List Nat)
  deriving DecidableEq

/-- `append_metadata`. -/
def appendMetadata
    (observer : MapObserver T)
    (self : MapFeedback T) : Option (TestcaseMetadata × MapFeedback T) := do
  let items ← observer.asIter
  let cells := touched observer.initial items
  let historyMap ← reduceInto reduce self.historyMap cells
  let indexes := if self.indexes then some (cells.map Prod.snd) else none
  some
    (⟨self.novelties, indexes⟩,
      { self with historyMap, novelties := self.novelties.map fun _ => [] })

end

namespace Simd

/-- `VectorType::LANES`. -/
def lanes : Nat := 16

/-- `VectorType::from_slice`, of the slice from an index on. -/
def fromSlice
    (slice : List UInt8)
    (i : Nat) : Option (List UInt8) :=
  if i + lanes ≤ slice.length then some ((slice.drop i).take lanes) else none

/-- `simd_max`. -/
def simdMax (items history : List UInt8) : List UInt8 :=
  List.zipWith max items history

section

variable (map historyMap : List UInt8)

/-- Whether the entry of the map is above the history. -/
def isAbove (j : Nat) : Option Bool := do
  let item ← map[j]?
  let existing ← historyMap[j]?
  some (existing < item)

/-- Whether one of the entries of a step is above the history. -/
def stepIsAbove (step : Nat) : Option Bool := do
  let i := step * lanes
  let history ← fromSlice historyMap i
  let items ← fromSlice map i
  some (simdMax items history ≠ history)

/-- An index is a novelty when its entry is above the history. -/
def pushAbove
    (novelties : List Nat)
    (j : Nat) : Option (List Nat) := do
  if ← isAbove map historyMap j then some (novelties ++ [j])
  else some novelties

/-- The loop over the steps that tracks novelties, for one step. -/
def trackStep
    (tracked : Bool × List Nat)
    (step : Nat) : Option (Bool × List Nat) := do
  if ← stepIsAbove map historyMap step then
    let novelties ←
      (List.range' (step * lanes) lanes).foldlM (pushAbove map historyMap) tracked.2
    some (true, novelties)
  else some tracked

end

/-- `is_interesting` for maps of bytes whose maximum is kept. -/
def isInteresting
    (observer : MapObserver UInt8)
    (self : MapFeedback UInt8) : Option (Bool × MapFeedback UInt8) := do
  let size := observer.usableCount
  let historyMap := resized self.historyMap observer.len 0
  let map := observer.asSlice
  if map.length < size then none
  else
    let steps := List.range (size / lanes)
    let left := List.range' (size - size % lanes) (size % lanes)
    if self.novelties.isSome then
      let tracked ← steps.foldlM (trackStep map historyMap) (false, [])
      let (interesting, novelties) ←
        left.foldlM (track (isAbove map historyMap) id) tracked
      some (interesting, { self with historyMap, novelties := some novelties })
    else
      let interesting ← findsOne (stepIsAbove map historyMap) steps
      let interesting ←
        if interesting then some true
        else findsOne (isAbove map historyMap) left
      some (interesting, { self with historyMap })

end Simd

end MeFuzz.Feedbacks
