import MeFuzz.ByteMutators

namespace MeFuzz.Mutators

open Corpus (CorpusId)

/-!
# Encoded mutators

The mutators of inputs that are vectors of codes.
-/

/-- A mutator of an input of codes. -/
abbrev CodeMutation :=
  Mutation (Mutating UInt32) MutationResult

/-- Other codes, where a copy is in range. -/
def copyCodes (copied : Option (List UInt32)) : Mutation (Mutating UInt32) Unit := do
  setInput (← unwrap copied)

/-- `EncodedRandMutator::mutate`. -/
def encodedRand : CodeMutation :=
  unlessEmpty (changeChosen fun _ => do pure (UInt32.ofNat (← next)))

/-- `EncodedIncMutator::mutate`. -/
def encodedInc : CodeMutation :=
  unlessEmpty (changeChosen fun val => pure (val + 1))

/-- `EncodedDecMutator::mutate`. -/
def encodedDec : CodeMutation :=
  unlessEmpty (changeChosen fun val => pure (val - 1))

/-- `EncodedAddMutator::mutate`. -/
def encodedAdd : CodeMutation :=
  unlessEmpty
    (changeChosen fun val => do
      let num := UInt32.ofNat (1 + (← below arithMax))
      pure (if (← below 2) = 0 then val + num else val - num))

/-- `EncodedDeleteMutator::mutate`. -/
def encodedDelete : CodeMutation := do
  let size := (← input).length
  if size ≤ 2 then pure .skipped
  else
    let off ← below size
    let len ← below (size - off)
    let _ ← drainInput ⟨off, off + len⟩
    pure .mutated

/-- The length that is inserted, which the size limit may cut. -/
def insertedLen (maxSize size len : Nat) : Option Nat :=
  if maxSize < size + len then
    if size < maxSize then some (maxSize - size) else none
  else some len

/-- `EncodedInsertCopyMutator::mutate`. -/
def encodedInsertCopy (context : Context UInt32) : CodeMutation := do
  let size := (← input).length
  if size = 0 then pure .skipped
  else
    let off ← below (size + 1)
    let len := 1 + (← below (min 16 size))
    match insertedLen context.maxSize size len with
    | none => pure .skipped
    | some len => do
        let source ← if size = len then pure 0 else below (size - len)
        setInput (resize (← input) (size + len) 0)
        setTmpBuf (resize (← own).tmpBuf len 0)
        setTmpBuf (← unwrap (bufferCopy (← own).tmpBuf (← input) source 0 len))
        copyCodes (bufferSelfCopy (← input) off (off + len) (size - off))
        copyCodes (bufferCopy (← input) (← own).tmpBuf 0 off len)
        pure .mutated

/-- `EncodedCopyMutator::mutate`. -/
def encodedCopy : CodeMutation := do
  let size := (← input).length
  if size ≤ 1 then pure .skipped
  else
    let source ← below size
    let target ← below size
    let len := 1 + (← below (size - max source target))
    copyCodes (bufferSelfCopy (← input) source target len)
    pure .mutated

/-- `EncodedCrossoverInsertMutator::mutate`. -/
def encodedCrossoverInsert (context : Context UInt32) : CodeMutation := do
  let size := (← input).length
  match ← otherCorpusId context with
  | none => pure .skipped
  | some idx => do
      let other ← attempt (context.loadInput idx)
      if other.length < 2 then pure .skipped
      else
        let source ← below other.length
        let target ← below size
        let len := 1 + (← below (other.length - source))
        match insertedLen context.maxSize size len with
        | none => pure .skipped
        | some len => do
            setInput (resize (← input) (size + len) 0)
            copyCodes
              (bufferSelfCopy (← input) target (target + len) (size - target))
            copyCodes (bufferCopy (← input) other source target len)
            pure .mutated

/-- `EncodedCrossoverReplaceMutator::mutate`. -/
def encodedCrossoverReplace (context : Context UInt32) : CodeMutation := do
  let size := (← input).length
  if size = 0 then pure .skipped
  else
    match ← otherCorpusId context with
    | none => pure .skipped
    | some idx => do
        let other ← attempt (context.loadInput idx)
        if other.length < 2 then pure .skipped
        else
          let source ← below other.length
          let len ← below (min (other.length - source) size)
          let target ← below (size - len)
          copyCodes (bufferCopy (← input) other source target len)
          pure .mutated

/-- The mutators of `encoded_mutations.rs`. -/
inductive EncodedMutator where
  | rand
  | inc
  | dec
  | add
  | delete
  | insertCopy
  | copy
  | crossoverInsert
  | crossoverReplace
  deriving DecidableEq

/-- `mutate`. -/
def EncodedMutator.mutate (context : Context UInt32) : EncodedMutator → CodeMutation
  | .rand => encodedRand
  | .inc => encodedInc
  | .dec => encodedDec
  | .add => encodedAdd
  | .delete => encodedDelete
  | .insertCopy => encodedInsertCopy context
  | .copy => encodedCopy
  | .crossoverInsert => encodedCrossoverInsert context
  | .crossoverReplace => encodedCrossoverReplace context

end MeFuzz.Mutators
