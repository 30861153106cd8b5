import Mathlib
import MeFuzz.ByteStream

namespace MeFuzz

/-!
# Entities of the orchestration

The records that the master's packages pass to each other: element
identities, testcases, fuzzer configurations, and evaluation results.
-/

abbrev NodeID := UInt32

abbrev OnNodeID := UInt32

/-- `ElementType`; the numbers are those of the source's `iota`. -/
inductive ElementType where
  | undefined
  | broker
  | fuzzer
  | evaler
  deriving Repr, DecidableEq

/-- An element is addressed by its node and by its place on that node. -/
structure ElementID where
  nodeID : NodeID
  onNodeID : OnNodeID
  deriving Repr, DecidableEq

/-- `ElementID.String`. -/
def ElementID.string (id : ElementID) : String :=
  toString id.nodeID ++ "-" ++ toString id.onNodeID

/-- `1 << covSizePow2`. -/
@[irreducible] def CovSize : Nat := 1 <<< 16

/-- An index of the coverage map. -/
abbrev Branch := Fin CovSize

/-- `[CovSize]byte`: hit counts of the branches. -/
abbrev Coverage := Branch → UInt8

/--
`time.Time` without a monotonic reading: seconds since year 1 in 64 bits, and
nanoseconds within the second.
-/
structure Time where
  ext : Int
  nsec : Nat
  deriving Repr, DecidableEq

/-- Seconds from year 1 to the Unix epoch. -/
def unixToInternal : Int := 62135596800

namespace Time

/--
`time.Unix`: nanoseconds outside one second are carried over, and all
arithmetic on seconds wraps at 64 bits.
-/
def unix (sec nsec : Int) : Time where
  ext := (sec + nsec / 1000000000 + unixToInternal).bmod (2 ^ 64)
  nsec := (nsec % 1000000000).toNat

/-- `Time.Unix`: the wrapped seconds since the Unix epoch. -/
def unixSec (time : Time) : Int :=
  (time.ext - unixToInternal).bmod (2 ^ 64)

theorem unix_reads_back
    {sec nsec : Int}
    (sec_range : 0 ≤ sec ∧ sec < 2 ^ 63)
    (nsec_range : 0 ≤ nsec ∧ nsec < 1000000000) :
    (unix sec nsec).unixSec = sec ∧ ((unix sec nsec).nsec : Int) = nsec := by
  constructor
  · have carried : nsec / 1000000000 = 0 := by omega
    simp only [unix, unixSec, carried, Int.add_zero, Int.bmod_sub_bmod]
    rw [Int.add_sub_cancel, Int.bmod_eq_of_le (by omega) (by omega)]
  · simp only [unix]
    omega

/-- `Time.Before`. -/
def before (first second : Time) : Bool :=
  first.ext < second.ext ||
    (first.ext == second.ext && first.nsec < second.nsec)

end Time

structure Testcase where
  id : UInt64
  fuzzerID : ElementID
  inputData : Bytes
  execs : UInt64
  corpusSize : UInt64
  createdAt : Time
  deriving Repr, DecidableEq

structure FuzzerConf where
  mutatorID : String
  scheduleID : String
  poolID : String
  isHavoc : Bool
  isConcolic : Bool
  forkMode : Bool
  deriving Repr, DecidableEq

/-- The result of evaluating one testcase. -/
structure EvaluatingData where
  cov : Coverage
  hasCrash : Bool
  newCov : Nat

/-- The branches that an evaluation hit. -/
def EvaluatingData.branches (evalData : EvaluatingData) : Set Branch :=
  {branch | evalData.cov branch ≠ 0}

end MeFuzz
