import MeFuzz.MutatorDraws

namespace MeFuzz.Grimoire

open Corpus (CorpusId)
open Mutators

/-!
# Grimoire mutators

A generalized input is a list of bytes and of gaps, at which something may be
inserted.  The mutators cut such lists at gaps, and put others or tokens behind
or between what is left.
-/

/-- A byte sequence. -/
abbrev Bytes := List UInt8

/-- `GeneralizedItem`. -/
inductive GeneralizedItem where
  | bytes (bytes : Bytes)
  | gap
  deriving DecidableEq

/-- The size of an item. -/
def GeneralizedItem.len : GeneralizedItem → Nat
  | .bytes content => content.length
  | .gap => 1

/-- `generalized_len`. -/
def generalizedLen (generalized : List GeneralizedItem) : Nat :=
  (generalized.map GeneralizedItem.len).sum

/-- The indices of gaps. -/
def gapsOf (generalized : List GeneralizedItem) : List Nat :=
  (generalized.zipIdx.filter fun cell => cell.1 = .gap).map Prod.snd

/--
The corpus, with the generalized input in the metadata of each testcase, and the
tokens.  Each index below the count has an id.
-/
structure Context where
  count : Nat
  nth : Nat → Option CorpusId
  nth_isSome : ∀ i < count, (nth i).isSome = true
  get : CorpusId → Except Corpus.Error (Option (List GeneralizedItem))
  tokens : Option (List Bytes)

/-- The input that is mutated, and the buffers of the mutators. -/
structure Generalizing where
  generalized : List GeneralizedItem
  scratch : List GeneralizedItem
  gapIndices : List Nat
  deriving DecidableEq

/-- Items behind those there are. -/
def extend (items : List GeneralizedItem) : Mutation Generalizing Unit :=
  change fun now => { now with generalized := now.generalized ++ items }

/-- `gap_indices.push` for each gap of an input. -/
def pushGaps (generalized : List GeneralizedItem) :
    Mutation Generalizing (List Nat) := do
  change fun now => { now with gapIndices := now.gapIndices ++ gapsOf generalized }
  pure (← own).gapIndices

/-- `gap_indices.clear`. -/
def clearGaps : Mutation Generalizing Unit :=
  change fun now => { now with gapIndices := [] }

/-- The two assertions behind each extension. -/
def assertGaps : Mutation Generalizing Unit := do
  let items := (← own).generalized
  if items.head? = some .gap ∧ items.getLast? = some .gap then pure ()
  else throw .panicked

/-- `gen[min_idx..=max_idx]`. -/
def slice
    (gen : List GeneralizedItem)
    (minIdx maxIdx : Nat) : Option (List GeneralizedItem) :=
  if minIdx ≤ maxIdx + 1 ∧ maxIdx < gen.length then
    some ((gen.take (maxIdx + 1)).drop minIdx)
  else none

section

variable (context : Context)

/-- `random_corpus_id!`. -/
def randomCorpusId : Mutation Generalizing CorpusId := do
  let nth ← below context.count
  unwrap (context.nth nth)

/-- The part of `extend_with_random_generalized` that takes what is between gaps. -/
def extendWithSlice (idx : CorpusId) : Mutation Generalizing Bool := do
  let rand1 ← next
  let rand2 ← next
  match ← attempt (context.get idx) with
  | none => pure false
  | some gen => do
      let gapIndices ← pushGaps gen
      let first ← unwrap gapIndices[rand1 % gapIndices.length]?
      let second ← unwrap gapIndices[rand2 % gapIndices.length]?
      clearGaps
      let items := (← own).generalized
      let minIdx :=
        if items.getLast? = some .gap then min first second + 1
        else min first second
      let part ← unwrap (slice gen minIdx (max first second))
      extend part
      assertGaps
      pure true

/-- The part of `extend_with_random_generalized` that takes a token. -/
def extendWithToken : Mutation Generalizing Bool := do
  let rand1 ← next
  match context.tokens with
  | none => pure false
  | some tokens =>
      if tokens.isEmpty then pure false
      else do
        let tok ← unwrap tokens[rand1 % tokens.length]?
        let items := (← own).generalized
        if items.getLast? = some .gap then extend [.bytes tok, .gap]
        else extend [.gap, .bytes tok, .gap]
        assertGaps
        pure true

/-- The part of `extend_with_random_generalized` that takes all of an input. -/
def extendWithWhole (idx : CorpusId) : Mutation Generalizing MutationResult := do
  match ← attempt (context.get idx) with
  | none => pure .skipped
  | some gen => do
      let items := (← own).generalized
      if items.getLast? = some .gap ∧ gen.head? = some .gap then extend gen.tail
      else extend gen
      assertGaps
      pure .mutated

/-- `CHOOSE_SUBINPUT_PROB`. -/
def chooseSubinputProb : Nat := 50

/-- The parts of `extend_with_random_generalized` in front of the last. -/
def extendWithSubinput (idx : CorpusId) : Mutation Generalizing Bool := do
  let chance ← below 100
  if chance < 50 then
    if ← extendWithSlice context idx then pure true
    else extendWithToken context
  else extendWithToken context

/-- `extend_with_random_generalized`. -/
def extendWithRandomGeneralized : Mutation Generalizing MutationResult := do
  let idx ← randomCorpusId context
  let chance ← below 100
  if chooseSubinputProb < chance then
    if ← extendWithSubinput context idx then pure .mutated
    else extendWithWhole context idx
  else extendWithWhole context idx

/-- `RECURSIVE_REPLACEMENT_DEPTH`. -/
def recursiveReplacementDepth : List Nat := [2, 4, 8, 16, 32, 64]

/-- `MAX_RECURSIVE_REPLACEMENT_LEN`. -/
def maxRecursiveReplacementLen : Nat := 64 <<< 10

/-- What is done to a gap that was selected. -/
def replaceGap
    (gen : List GeneralizedItem)
    (selected : Nat) : Mutation Generalizing Unit := do
  change fun now =>
    { now with
      scratch := now.scratch ++ gen.drop (selected + 1)
      generalized := gen.take selected }
  if (← extendWithRandomGeneralized context) = .skipped then extend [.gap]
  change fun now =>
    { now with
      generalized := now.generalized ++ now.scratch
      scratch := [] }

/-- The loop of `GrimoireRecursiveReplacementMutator`. -/
def replaceRecursively :
    Nat → MutationResult → Mutation Generalizing MutationResult
  | 0, result => pure result
  | depth + 1, result => do
      let gen := (← own).generalized
      if maxRecursiveReplacementLen ≤ generalizedLen gen then pure result
      else
        let gapIndices ← pushGaps gen
        if gapIndices.isEmpty then pure result
        else
          let selected ← choose gapIndices
          clearGaps
          replaceGap context gen selected
          replaceRecursively depth .mutated

end

/-- The loop that replaces a token in bytes.  It may go on forever. -/
def replaceToken
    (find replacement : Bytes)
    (stopAtFirst : Bool) :
    Nat → Nat → Bytes → MutationResult → Option (Bytes × MutationResult × Bool)
  | 0, _, _, _ => none
  | fuel + 1, i, bytes, result =>
      if find.length ≤ bytes.length ∧ i < bytes.length - find.length then
        if find.isPrefixOf (bytes.drop i) then
          let bytes := bytes.take i ++ replacement ++ bytes.drop (i + find.length)
          if stopAtFirst then some (bytes, .mutated, true)
          else
            replaceToken find replacement stopAtFirst fuel (i + replacement.length)
              bytes .mutated
        else
          replaceToken find replacement stopAtFirst fuel (i + 1) bytes result
      else some (bytes, result, false)

/-- The loop over items, which ends early where one replacement is enough. -/
def replaceInItems
    (fuel : Nat)
    (find replacement : Bytes)
    (stopAtFirst : Bool) :
    List GeneralizedItem → MutationResult →
      Option (List GeneralizedItem × MutationResult)
  | [], result => some ([], result)
  | .gap :: rest, result => do
      let (rest, result) ←
        replaceInItems fuel find replacement stopAtFirst rest result
      some (.gap :: rest, result)
  | .bytes bytes :: rest, result => do
      let (bytes, result, stops) ←
        replaceToken find replacement stopAtFirst fuel 0 bytes result
      if stops then some (.bytes bytes :: rest, result)
      else
        let (rest, result) ←
          replaceInItems fuel find replacement stopAtFirst rest result
        some (.bytes bytes :: rest, result)

/-- What takes more steps than it is given hangs. -/
def finishes {Value : Type} : Option Value → Mutation Generalizing Value
  | some value => pure value
  | none => throw .hangs

/-- The two loops of `GrimoireStringReplacementMutator`. -/
def replaceTokens
    (fuel : Nat)
    (find replacement : Bytes)
    (stopAtFirst : Bool)
    (randIdx : Nat) : Mutation Generalizing MutationResult := do
  let gen := (← own).generalized
  let (front, result) ←
    finishes
      (replaceInItems fuel find replacement stopAtFirst (gen.take randIdx) .skipped)
  change fun now => { now with generalized := front ++ gen.drop randIdx }
  if result = .skipped ∨ stopAtFirst = false then
    let (back, result) ←
      finishes
        (replaceInItems fuel find replacement stopAtFirst (gen.drop randIdx) result)
    change fun now => { now with generalized := front ++ back }
    pure result
  else pure result

/-- `GrimoireStringReplacementMutator::mutate`, with tokens. -/
def replaceStrings
    (fuel : Nat)
    (tokens : List Bytes) : Mutation Generalizing MutationResult := do
  let tokenFind ← below tokens.length
  let drawn ← below tokens.length
  let tokenReplace ← if tokenFind = drawn then below tokens.length else pure drawn
  let stopAtFirst := 50 < (← below 100)
  let randIdx ← next
  let token1 ← unwrap tokens[tokenFind]?
  let token2 ← unwrap tokens[tokenReplace]?
  let gen := (← own).generalized
  if gen.isEmpty then throw .panicked
  else replaceTokens fuel token1 token2 stopAtFirst (randIdx % gen.length)

/-- `gen.drain(min_idx..max_idx)`. -/
def drain
    (gen : List GeneralizedItem)
    (minIdx maxIdx : Nat) : Option (List GeneralizedItem) :=
  if minIdx ≤ maxIdx ∧ maxIdx ≤ gen.length then
    some (gen.take minIdx ++ gen.drop maxIdx)
  else none

/-- `GrimoireRandomDeleteMutator::mutate`. -/
def deleteRandomly : Mutation Generalizing MutationResult := do
  let gen := (← own).generalized
  let gapIndices ← pushGaps gen
  let first ← unwrap gapIndices[(← below gapIndices.length)]?
  let second ← unwrap gapIndices[(← below gapIndices.length)]?
  clearGaps
  if min first second = max first second then pure .skipped
  else
    let drained ← unwrap (drain gen (min first second) (max first second))
    change fun now => { now with generalized := drained }
    pure .mutated

/-- The four mutators. -/
inductive GrimoireMutator where
  | extension
  | recursiveReplacement
  | stringReplacement
  | randomDelete
  deriving DecidableEq

/-- `mutate`. -/
def mutate
    (context : Context)
    (fuel : Nat) : GrimoireMutator → Mutation Generalizing MutationResult
  | .extension => extendWithRandomGeneralized context
  | .recursiveReplacement => do
      let depth ← choose recursiveReplacementDepth
      replaceRecursively context depth .skipped
  | .stringReplacement =>
      match context.tokens with
      | none => pure .skipped
      | some tokens =>
          if tokens.isEmpty then pure .skipped
          else replaceStrings fuel tokens
  | .randomDelete => deleteRandomly

end MeFuzz.Grimoire
