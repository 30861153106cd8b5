import MeFuzz.MutatorDraws

namespace MeFuzz.Mutators.Tuneable

open Procedure

/-!
# The tuneable mutator

What mutations are run, and how often, can be set at run time: as a list of ids or
a fixed count, or as a distribution, of which the cumulative sums are kept.  Sums
are exact here.
-/

/-- The loop of `calculate_cumulative_sum_in_place`. -/
def cumulativeSum
    {T : Type}
    [Add T]
    (acc : T) : List T → List T
  | [] => []
  | val :: rest => (acc + val) :: cumulativeSum (acc + val) rest

/-- `calculate_cumulative_sum_in_place`. -/
def calculateCumulativeSumInPlace
    {T : Type}
    [Add T]
    [Zero T]
    (slice : List T) : List T :=
  cumulativeSum 0 slice

/-- The number that a 64-bit integer becomes as an `f32`: the nearest, ties to even. -/
def asF32 (n : Nat) : Nat :=
  let unit := 2 ^ (n.size - 24)
  let roundsUp :=
    unit < 2 * (n % unit) || (unit = 2 * (n % unit) && n / unit % 2 = 1)
  (n / unit + roundsUp.toNat) * unit

/-- `next as f32 / u64::MAX as f32`. -/
def coin (next : Nat) : ℚ :=
  asF32 next / 2 ^ 64

example : asF32 Rand.maxValue = 2 ^ 64 := by decide +kernel

/-- `TuneableScheduledMutatorMetadata`. -/
structure Metadata where
  mutationIds : List Nat
  nextId : Nat
  mutationProbabilitiesCumulative : List ℚ
  iters : Option Nat
  iterProbabilitiesPowCumulative : List ℚ
  deriving DecidableEq

/-- `TuneableScheduledMutatorMetadata::default`. -/
def Metadata.default : Metadata where
  mutationIds := []
  nextId := 0
  mutationProbabilitiesCumulative := []
  iters := none
  iterProbabilitiesPowCumulative := []

namespace Metadata

/-- `set_iters`. -/
def setIters
    (metadata : Metadata)
    (iters : Nat) : Metadata :=
  { metadata with
    iters := some iters
    iterProbabilitiesPowCumulative := [] }

/-- `set_iter_probabilities_pow`. -/
def setIterProbabilitiesPow
    (metadata : Metadata)
    (iterProbabilitiesPow : List ℚ) : Metadata :=
  { metadata with
    iters := none
    iterProbabilitiesPowCumulative :=
      calculateCumulativeSumInPlace iterProbabilitiesPow }

/-- `set_mutation_ids`. -/
def setMutationIds
    (metadata : Metadata)
    (mutations : List Nat) : Metadata :=
  { metadata with
    mutationIds := mutations
    nextId := 0 }

/-- `set_mutation_probabilities`. -/
def setMutationProbabilities
    (metadata : Metadata)
    (mutationProbabilities : List ℚ) : Metadata :=
  { metadata with
    mutationIds := []
    nextId := 0
    mutationProbabilitiesCumulative :=
      calculateCumulativeSumInPlace mutationProbabilities }

/-- `set_mutation_ids_and_iters`. -/
def setMutationIdsAndIters
    (metadata : Metadata)
    (mutations : List Nat)
    (iters : Nat) : Metadata :=
  { metadata with
    mutationIds := mutations
    nextId := 0
    iters := some iters }

/-- `push_mutation_id`. -/
def pushMutationId
    (metadata : Metadata)
    (mutationId : Nat) : Metadata :=
  { metadata with mutationIds := metadata.mutationIds ++ [mutationId] }

/-- `reset`. -/
def reset (metadata : Metadata) : Metadata :=
  { metadata with
    mutationIds := []
    nextId := 0
    iters := none }

end Metadata

/-- `max_stack_pow`. -/
def maxStackPow : Nat := 7

/-- The first position whose cumulative probability is not below the coin. -/
def sample (cumulative : List ℚ) : Mutation Metadata Nat := do
  let coin := coin (← next)
  unwrap (cumulative.findIdx? (coin ≤ ·))

/-- `1 << bits`, of 64 bits. -/
def shiftedOne (bits : Nat) : Mutation Metadata Nat :=
  if bits < 64 then pure (2 ^ bits) else throw .panicked

/-- `iterations`. -/
def iterations : Mutation Metadata Nat := do
  let metadata ← own
  if metadata.iterProbabilitiesPowCumulative.isEmpty then
    match metadata.iters with
    | some iters => pure iters
    | none => do
        let pow ← below maxStackPow
        shiftedOne (1 + pow)
  else
    let pow ← sample metadata.iterProbabilitiesPowCumulative
    shiftedOne (1 + pow)

/-- The cursor goes on, and back to the start behind the last id. -/
def Metadata.advance (metadata : Metadata) : Metadata :=
  { metadata with
    nextId :=
      if metadata.mutationIds.length ≤ metadata.nextId + 1 then 0
      else metadata.nextId + 1 }

/-- `schedule`, of a number of mutations. -/
def schedule (mutations : Nat) : Mutation Metadata Nat := do
  if mutations = 0 then throw .panicked
  else
    let metadata ← own
    if metadata.mutationIds.isEmpty then
      if metadata.mutationProbabilitiesCumulative.isEmpty then below mutations
      else sample metadata.mutationProbabilitiesCumulative
    else
      let ret ← unwrap metadata.mutationIds[metadata.nextId]?
      change Metadata.advance
      if ret < mutations then pure ret else throw .panicked

end MeFuzz.Mutators.Tuneable
