import MeFuzz.InputRanges

namespace MeFuzz.Mutators

open Corpus (CorpusId)

/-!
# Byte mutators

The mutators of inputs with a vector of bytes.  Words are in little-endian order
where the source speaks of the native one.
-/

/-- What mutators read: the size limit, and the corpus with its inputs. -/
structure Context (Item : Type) where
  maxSize : Nat
  count : Nat
  nth : Nat → Option CorpusId
  nth_isSome : ∀ i < count, (nth i).isSome = true
  current : Option CorpusId
  loadInput : CorpusId → Except Corpus.Error (List Item)

/-- A mutator of an input of bytes. -/
abbrev ByteMutation :=
  Mutation (Mutating UInt8) MutationResult

section

variable {Item : Type}

/-- An item that is chosen is changed. -/
def changeChosen
    (changed : Item → Mutation (Mutating Item) Item) :
    Mutation (Mutating Item) MutationResult := do
  let index ← below (← input).length
  let item ← unwrap (← input)[index]?
  let item ← changed item
  setInput ((← input).set index item)
  pure .mutated

/-- What is skipped for an empty input. -/
def unlessEmpty
    (mutation : Mutation (Mutating Item) MutationResult) :
    Mutation (Mutating Item) MutationResult := do
  if (← input).isEmpty then pure .skipped
  else mutation

end

/-- `BitFlipMutator::mutate`. -/
def bitFlip : ByteMutation :=
  unlessEmpty do
    let bit ← choose (List.range 8)
    changeChosen fun byte => pure (byte ^^^ UInt8.ofNat (1 <<< bit))

/-- `ByteFlipMutator::mutate`. -/
def byteFlip : ByteMutation :=
  unlessEmpty (changeChosen fun byte => pure (byte ^^^ 0xff))

/-- `ByteIncMutator::mutate`. -/
def byteInc : ByteMutation :=
  unlessEmpty (changeChosen fun byte => pure (byte + 1))

/-- `ByteDecMutator::mutate`. -/
def byteDec : ByteMutation :=
  unlessEmpty (changeChosen fun byte => pure (byte - 1))

/-- `ByteNegMutator::mutate`. -/
def byteNeg : ByteMutation :=
  unlessEmpty (changeChosen fun byte => pure (~~~byte + 1))

/-- `ByteRandMutator::mutate`. -/
def byteRand : ByteMutation :=
  unlessEmpty
    (changeChosen fun byte => do
      pure (byte ^^^ UInt8.ofNat (1 + (← below 254))))

/-- `from_ne_bytes`. -/
def fromNeBytes (bytes : Bytes) : Nat :=
  BigEndian.decode bytes.reverse

/-- `to_ne_bytes`. -/
def toNeBytes (size value : Nat) : Bytes :=
  (BigEndian.encode size value).reverse

/-- `swap_bytes`. -/
def swapBytes (size value : Nat) : Nat :=
  BigEndian.decode (toNeBytes size value)

/-- `wrapping_add`. -/
def wrappingAdd (size value num : Nat) : Nat :=
  (value + num) % 256 ^ size

/-- `wrapping_sub`. -/
def wrappingSub (size value num : Nat) : Nat :=
  (value + 256 ^ size - num % 256 ^ size) % 256 ^ size

/-- `ARITH_MAX`. -/
def arithMax : Nat := 35

/-- The word that an addition mutator writes. -/
def addedWord (size value num : Nat) : Nat → Nat
  | 0 => wrappingAdd size value num
  | 1 => wrappingSub size value num
  | 2 => swapBytes size (wrappingAdd size (swapBytes size value) num)
  | _ => swapBytes size (wrappingSub size (swapBytes size value) num)

/-- `add_mutator_impl`, for a word of some bytes. -/
def addMutator (size : Nat) : ByteMutation := do
  let bytes ← input
  if bytes.length < size then pure .skipped
  else
    let index ← below (bytes.length + 1 - size)
    let window ← unwrap (slice bytes ⟨index, index + size⟩)
    let num := 1 + (← below arithMax)
    let newVal := addedWord size (fromNeBytes window) num (← below 4)
    setInput (overwrite bytes index (toNeBytes size newVal))
    pure .mutated

/-- `ByteAddMutator`. -/
def byteAdd : ByteMutation := addMutator 1

/-- `WordAddMutator`. -/
def wordAdd : ByteMutation := addMutator 2

/-- `DwordAddMutator`. -/
def dwordAdd : ByteMutation := addMutator 4

/-- `QwordAddMutator`. -/
def qwordAdd : ByteMutation := addMutator 8

/-- `INTERESTING_8`. -/
def interesting8 : List Int :=
  [-128, -1, 0, 1, 16, 32, 64, 100, 127]

/-- `INTERESTING_16`. -/
def interesting16 : List Int :=
  [-128, -1, 0, 1, 16, 32, 64, 100, 127, -32768, -129, 128, 255, 256, 512, 1000,
    1024, 4096, 32767]

/-- `INTERESTING_32`. -/
def interesting32 : List Int :=
  [-128, -1, 0, 1, 16, 32, 64, 100, 127, -32768, -129, 128, 255, 256, 512, 1000,
    1024, 4096, 32767, -2147483648, -100663046, -32769, 32768, 65535, 65536,
    100663045, 2147483647]

/-- A number of a signed type as one of the unsigned type. -/
def castUnsigned (size : Nat) (value : Int) : Nat :=
  (value % (256 ^ size : Nat)).toNat

/-- `interesting_mutator_impl`, for a word of some bytes. -/
def interestingMutator
    (size : Nat)
    (interesting : List Int) : ByteMutation := do
  let bytes ← input
  if bytes.length < size then pure .skipped
  else
    let idx ← below (bytes.length + 1 - size)
    let val := castUnsigned size (← choose interesting)
    let newBytes :=
      if (← choose [0, 1]) = 0 then BigEndian.encode size val
      else toNeBytes size val
    let _ ← unwrap (slice bytes ⟨idx, idx + size⟩)
    setInput (overwrite bytes idx newBytes)
    pure .mutated

/-- `ByteInterestingMutator`. -/
def byteInteresting : ByteMutation := interestingMutator 1 interesting8

/-- `WordInterestingMutator`. -/
def wordInteresting : ByteMutation := interestingMutator 2 interesting16

/-- `DwordInterestingMutator`. -/
def dwordInteresting : ByteMutation := interestingMutator 4 interesting32

/-- `BytesDeleteMutator::mutate`. -/
def bytesDelete : ByteMutation := do
  let size := (← input).length
  if size ≤ 2 then pure .skipped
  else
    let range ← randRange size size
    if range.isEmpty then pure .skipped
    else
      let _ ← drainInput range
      pure .mutated

/-- `BytesExpandMutator::mutate`. -/
def bytesExpand (context : Context UInt8) : ByteMutation := do
  let size := (← input).length
  if size = 0 ∨ context.maxSize ≤ size then pure .skipped
  else
    let range ← randRange size (min (context.maxSize - size) 16)
    if range.isEmpty then pure .skipped
    else
      let newSize := range.len + size
      setInput (resize (← input) newSize 0)
      setInput
        (← unwrap (copyWithin (← input) { range with stop := size } range.stop))
      pure .mutated

/-- `BytesInsertMutator::mutate`. -/
def bytesInsert (context : Context UInt8) : ByteMutation := do
  let size := (← input).length
  if size = 0 ∨ context.maxSize ≤ size then pure .skipped
  else
    let amount := 1 + (← below (min (context.maxSize - size) 16))
    let offset ← below (size + 1)
    let index ← below size
    let val ← unwrap (← input)[index]?
    spliceInput ⟨offset, offset⟩ (List.replicate amount val)
    pure .mutated

/-- `BytesRandInsertMutator::mutate`. -/
def bytesRandInsert (context : Context UInt8) : ByteMutation := do
  let size := (← input).length
  if context.maxSize ≤ size then pure .skipped
  else
    let amount := 1 + (← below (min (context.maxSize - size) 16))
    let offset ← below (size + 1)
    let val := UInt8.ofNat (← next)
    spliceInput ⟨offset, offset⟩ (List.replicate amount val)
    pure .mutated

/-- `BytesSetMutator::mutate`. -/
def bytesSet : ByteMutation := do
  let size := (← input).length
  if size = 0 then pure .skipped
  else
    let range ← randRange size (min size 16)
    if range.isEmpty then pure .skipped
    else
      let val ← choose (← input)
      spliceInput range (List.replicate range.len val)
      pure .mutated

/-- `BytesRandSetMutator::mutate`. -/
def bytesRandSet : ByteMutation := do
  let size := (← input).length
  if size = 0 then pure .skipped
  else
    let range ← randRange size (min size 16)
    if range.isEmpty then pure .skipped
    else
      let val := UInt8.ofNat (← next)
      spliceInput range (List.replicate range.len val)
      pure .mutated

/-- `BytesCopyMutator::mutate`. -/
def bytesCopy : ByteMutation := do
  let size := (← input).length
  if size ≤ 1 then pure .skipped
  else
    let target ← below size
    let range ← randRange size (size - target)
    setInput (← unwrap (copyWithin (← input) range target))
    pure .mutated

/-- `BytesInsertCopyMutator::mutate`. -/
def bytesInsertCopy (context : Context UInt8) : ByteMutation := do
  let size := (← input).length
  if size ≤ 1 ∨ size = context.maxSize then pure .skipped
  else
    let target ← below size
    let room ← subUsize context.maxSize size
    let maxInsertLen := min (size - target) room
    let range ← randRange size maxInsertLen
    setTmpBuf (← unwrap (slice (← input) range))
    spliceInput ⟨target, target⟩ (← own).tmpBuf
    setTmpBuf []
    pure .mutated

/-- The exchange of `BytesSwapMutator` with a range in front of the first. -/
def swapWithFront (first second : Range) : ByteMutation := do
  setTmpBuf (← drainInput first)
  let copied ← unwrap (slice (← input) second)
  setTmpBuf ((← own).tmpBuf ++ copied)
  let tmpBuf := (← own).tmpBuf
  setTmpBuf (tmpBuf.take first.len)
  spliceInput ⟨first.start, first.start⟩ (tmpBuf.drop first.len)
  spliceInput second (← own).tmpBuf
  setTmpBuf []
  pure .mutated

/-- The exchange of `BytesSwapMutator` with a range behind the first. -/
def swapWithBack (first second : Range) : ByteMutation := do
  setTmpBuf (← drainInput second)
  let copied ← unwrap (slice (← input) first)
  setTmpBuf ((← own).tmpBuf ++ copied)
  let tmpBuf := (← own).tmpBuf
  setTmpBuf (tmpBuf.take second.len)
  spliceInput ⟨second.start, second.start⟩ (tmpBuf.drop second.len)
  spliceInput first (← own).tmpBuf
  setTmpBuf []
  pure .mutated

/-- `BytesSwapMutator::mutate`. -/
def bytesSwap : ByteMutation := do
  let size := (← input).length
  if size ≤ 1 then pure .skipped
  else
    setTmpBuf []
    let first ← randRange size size
    if (← next) % 2 = 0 ∧ first.start ≠ 0 then
      let second ← randRange first.start first.start
      swapWithFront first second
    else if first.stop ≠ size then
      let second ← randRange (size - first.stop) (size - first.stop)
      swapWithBack first
        { start := second.start + first.stop, stop := second.stop + first.stop }
    else pure .skipped

section

variable {Item : Type}
variable (context : Context Item)

/-- `random_corpus_id!`, without the current testcase. -/
def otherCorpusId : Mutation (Mutating Item) (Option CorpusId) := do
  let nth ← below context.count
  let idx ← unwrap (context.nth nth)
  pure (if context.current = some idx then none else some idx)

end

/-- `CrossoverInsertMutator::mutate`. -/
def crossoverInsert (context : Context UInt8) : ByteMutation := do
  let size := (← input).length
  if context.maxSize ≤ size then pure .skipped
  else
    match ← otherCorpusId context with
    | none => pure .skipped
    | some idx => do
        let other ← attempt (context.loadInput idx)
        if other.length < 2 then pure .skipped
        else
          let range ←
            randRange other.length (min other.length (context.maxSize - size))
          let target ← below size
          let copied ← unwrap (slice other range)
          spliceInput ⟨target, target⟩ copied
          pure .mutated

/-- `CrossoverReplaceMutator::mutate`. -/
def crossoverReplace (context : Context UInt8) : ByteMutation := do
  let size := (← input).length
  if size = 0 then pure .skipped
  else
    match ← otherCorpusId context with
    | none => pure .skipped
    | some idx => do
        let other ← attempt (context.loadInput idx)
        if other.length < 2 then pure .skipped
        else
          let target ← below size
          let range ← randRange other.length (min other.length (size - target))
          let copied ← unwrap (slice other range)
          spliceInput ⟨target, target + range.len⟩ copied
          pure .mutated

/-- The loop of `locate_diffs`. -/
def locateDiffsFrom : Nat → Bytes → Bytes → Int × Int → Int × Int
  | i, thisEl :: this, otherEl :: other, (firstDiff, lastDiff) =>
      if thisEl = otherEl then
        locateDiffsFrom (i + 1) this other (firstDiff, lastDiff)
      else
        locateDiffsFrom (i + 1) this other
          (if firstDiff < 0 then i else firstDiff, i)
  | _, _, _, diffs => diffs

/-- `locate_diffs`. -/
def locateDiffs (this other : Bytes) : Int × Int :=
  locateDiffsFrom 0 this other (-1, -1)

/-- The differences that `SpliceMutator` can cut between. -/
def usableDiffs : Int × Int → Option (Nat × Nat)
  | (f, l) => if f ≠ l ∧ 0 ≤ f ∧ 2 ≤ l then some (f.toNat, l.toNat) else none

/-- The loop of `SpliceMutator`; `counter` counts down. -/
def findDiffs (this other : Bytes) : Nat → Option (Nat × Nat)
  | 0 => usableDiffs (locateDiffs this other)
  | counter + 1 =>
      match usableDiffs (locateDiffs this other) with
      | some diffs => some diffs
      | none => findDiffs this other counter

/-- `SpliceMutator::mutate`. -/
def spliceMutator (context : Context UInt8) : ByteMutation := do
  match ← otherCorpusId context with
  | none => pure .skipped
  | some idx => do
      let other ← attempt (context.loadInput idx)
      match findDiffs (← input) other 3 with
      | none => pure .skipped
      | some (firstDiff, lastDiff) => do
          let splitAt ← between firstDiff lastDiff
          let copied ← unwrap (slice other ⟨splitAt, other.length⟩)
          spliceInput ⟨splitAt, (← input).length⟩ copied
          pure .mutated

/-- The mutators of `mutations.rs`. -/
inductive ByteMutator where
  | bitFlip
  | byteFlip
  | byteInc
  | byteDec
  | byteNeg
  | byteRand
  | byteAdd
  | wordAdd
  | dwordAdd
  | qwordAdd
  | byteInteresting
  | wordInteresting
  | dwordInteresting
  | bytesDelete
  | bytesExpand
  | bytesInsert
  | bytesRandInsert
  | bytesSet
  | bytesRandSet
  | bytesCopy
  | bytesInsertCopy
  | bytesSwap
  | crossoverInsert
  | crossoverReplace
  | splice
  deriving DecidableEq

/-- `mutate`. -/
def ByteMutator.mutate (context : Context UInt8) : ByteMutator → ByteMutation
  | .bitFlip => Mutators.bitFlip
  | .byteFlip => Mutators.byteFlip
  | .byteInc => Mutators.byteInc
  | .byteDec => Mutators.byteDec
  | .byteNeg => Mutators.byteNeg
  | .byteRand => Mutators.byteRand
  | .byteAdd => Mutators.byteAdd
  | .wordAdd => Mutators.wordAdd
  | .dwordAdd => Mutators.dwordAdd
  | .qwordAdd => Mutators.qwordAdd
  | .byteInteresting => Mutators.byteInteresting
  | .wordInteresting => Mutators.wordInteresting
  | .dwordInteresting => Mutators.dwordInteresting
  | .bytesDelete => Mutators.bytesDelete
  | .bytesExpand => Mutators.bytesExpand context
  | .bytesInsert => Mutators.bytesInsert context
  | .bytesRandInsert => Mutators.bytesRandInsert context
  | .bytesSet => Mutators.bytesSet
  | .bytesRandSet => Mutators.bytesRandSet
  | .bytesCopy => Mutators.bytesCopy
  | .bytesInsertCopy => Mutators.bytesInsertCopy context
  | .bytesSwap => Mutators.bytesSwap
  | .crossoverInsert => Mutators.crossoverInsert context
  | .crossoverReplace => Mutators.crossoverReplace context
  | .splice => Mutators.spliceMutator context

end MeFuzz.Mutators
