import MeFuzz.CoverageAnalysis

namespace MeFuzz.Analysis

/-!
# The advice of an analysis

The master looks for fuzzers that it had better replace: outsiders with a short and
slow coverage vector, and the shortest slow vector of each of the largest clusters.
Among several it prefers those that cover least on their own, and then the shortest.
-/

variable {Number : Type}
variable [AddCommGroup Number]
variable [LinearOrder Number]

/-- `Norm.Norm`. -/
def Norm.norm (n : Norm Number) : Number :=
  n.now

/-- `Norm.Speed`. -/
def Norm.speed (n : Norm Number) : Number :=
  |n.now - n.last|

/-- A fuzzer's norm, or the zero value. -/
def Analyze.normOf (analyze : Analyze Number) (id : ElementID) : Norm Number :=
  (analyze.norms.get id).getD ⟨0, 0⟩

/-- A fuzzer's coverage; one that is not there has no branch. -/
def Analyze.coverageOf (analyze : Analyze Number) (id : ElementID) : Row :=
  (analyze.coverages.get id).getD 0

/-- `badFuzzer`. -/
structure BadFuzzer (Number : Type) where
  norm : Number
  speed : Number
  id : ElementID
  isNoice : Bool
  deriving DecidableEq

/-- `map[entities.ElementID]badFuzzer`. -/
abbrev BadFuzzers (Number : Type) := OrderedMap ElementID (BadFuzzer Number)

/-- `advice`. -/
structure Advice where
  id : ElementID
  why : String
  isNoice : Bool
  deriving DecidableEq

/-- How the analysis ends. -/
inductive Result where
  | returned : Option Advice → Result
  | panicked : Result
  deriving DecidableEq

/-- The bounds that the fuzzers are compared with. -/
structure Bounds (Number : Type) where
  norm : Number
  speed : Number
  clusterSpeed : Number

/-- The quantile estimates that the analysis asks for. -/
def boundsOf
    (libraries : Libraries Number)
    (orders : Orders)
    (analyze : Analyze Number) : Bounds Number :=
  let norms := (orders.norms.walk analyze.norms).map fun entry => entry.2.norm
  let speeds := (orders.norms.walk analyze.norms).map fun entry => entry.2.speed
  { norm := libraries.quantile norms (1 / 2)
    speed := libraries.quantile speeds (1 / 2)
    clusterSpeed := libraries.quantile speeds (66 / 100) }

/-- The body of the loop over the noise. -/
def addNoice
    (analyze : Analyze Number)
    (bounds : Bounds Number)
    (bad : BadFuzzers Number)
    (candidate : ElementID) : BadFuzzers Number :=
  let norm := analyze.normOf candidate
  if norm.norm < bounds.norm ∧ norm.speed < bounds.speed then
    bad.insert candidate
      { norm := norm.norm
        speed := norm.speed
        id := candidate
        isNoice := true }
  else bad

/-- The shortest vector of a cluster so far; at first longer than all. -/
structure Lowest (Number : Type) where
  minNorm : WithTop Number
  minNormID : ElementID
  speed : Number

/-- The body of the loop over a cluster. -/
def lowerOf
    (analyze : Analyze Number)
    (bounds : Bounds Number)
    (lowest : Lowest Number)
    (id : ElementID) : Lowest Number :=
  let norm := analyze.normOf id
  if (norm.norm : WithTop Number) < lowest.minNorm ∧
      norm.speed < bounds.clusterSpeed then
    { minNorm := norm.norm, minNormID := id, speed := norm.speed }
  else lowest

/-- The shortest vector of a cluster among those that are slow. -/
def lowestOf
    (analyze : Analyze Number)
    (bounds : Bounds Number)
    (cluster : List ElementID) : Lowest Number :=
  cluster.foldl (lowerOf analyze bounds)
    { minNorm := ⊤, minNormID := ⟨0, 0⟩, speed := 0 }

/-- The body of the loop over the clusters. -/
def addLowest
    (analyze : Analyze Number)
    (bounds : Bounds Number)
    (maxClusterSize : Int)
    (bad : BadFuzzers Number)
    (cluster : List ElementID) : BadFuzzers Number :=
  if (cluster.length : Int) ≠ maxClusterSize then bad
  else
    let lowest := lowestOf analyze bounds cluster
    if lowest.minNormID = ⟨0, 0⟩ then bad
    else
      bad.insert lowest.minNormID
        { norm := lowest.minNorm.untopD 0
          speed := lowest.speed
          id := lowest.minNormID
          isNoice := false }

/-- The size of the largest cluster. -/
def maxClusterSize (clusters : List (List ElementID)) : Int :=
  clusters.foldl (fun size cluster => max size cluster.length) (-1)

/-- The bad fuzzers of an analysis. -/
def badFuzzers
    (libraries : Libraries Number)
    (orders : Orders)
    (analyze : Analyze Number) : BadFuzzers Number :=
  let bounds := boundsOf libraries orders analyze
  let bad := analyze.clusteringData.noice.foldl (addNoice analyze bounds) .empty
  let clusters :=
    (orders.clusters.walk analyze.clusteringData.clusters).map Prod.snd
  clusters.foldl (addLowest analyze bounds (maxClusterSize clusters)) bad

/-- How many of the fuzzers cover a branch. -/
def commonCoverage
    (analyze : Analyze Number)
    (ids : List ElementID) : Branch → Nat :=
  ids.foldl
    (fun common id branch =>
      if 0 < (analyze.coverageOf id branch).toNat then common branch + 1
      else common branch)
    fun _ => 0

/-- How many branches of a fuzzer are counted once. -/
def uniqueBlocks
    (analyze : Analyze Number)
    (common : Branch → Nat)
    (id : ElementID) : Nat :=
  (Finset.univ.filter fun branch =>
    ¬(analyze.coverageOf id branch).toNat < 1 ∧
      (common branch : Int) - 1 = 0).card

/-- The fuzzers with their counts. -/
def uniqueCounts
    (orders : Orders)
    (bad : BadFuzzers Number)
    (an : Analyze Number) : List (ElementID × Nat) :=
  let common := commonCoverage an ((orders.common.walk bad).map Prod.fst)
  (orders.unique.walk bad).map fun entry =>
    (entry.1, uniqueBlocks an common entry.1)

/-- The comparison of two counts. -/
def countCmp (a b : ElementID × Nat) : Int :=
  (a.2 : Int) - (b.2 : Int)

/-- A bad fuzzer, or the zero value. -/
def badOf (bad : BadFuzzers Number) (id : ElementID) : BadFuzzer Number :=
  (bad.get id).getD ⟨0, 0, ⟨0, 0⟩, false⟩

/-- The fuzzers behind the first one, up to one that covers something alone. -/
def takeZeros (bad : BadFuzzers Number) :
    List (ElementID × Nat) → List (BadFuzzer Number)
  | [] => []
  | ub :: rest =>
      if ub.2 ≠ 0 then [] else badOf bad ub.1 :: takeZeros bad rest

/-- The first of the sorted fuzzers, and those that cover nothing alone, either. -/
def leastUnique
    (bad : BadFuzzers Number)
    (ubs : List (ElementID × Nat)) : List (BadFuzzer Number) :=
  -- If even the best one has nothing of its own, there is no result.
  if (ubs.getLast?.map Prod.snd).getD 0 = 0 then []
  else
    match ubs with
    | [] => []
    | ub :: rest => badOf bad ub.1 :: takeZeros bad rest

/-- `detectByUniqueCoverage`. -/
def detectByUniqueCoverage
    (slices : SliceSort)
    (orders : Orders)
    (bad : BadFuzzers Number)
    (an : Analyze Number) : List (BadFuzzer Number) :=
  leastUnique bad (slices.sortFunc countCmp (uniqueCounts orders bad an))

/-- The comparison of two bad fuzzers. -/
def normCmp (a b : BadFuzzer Number) : Int :=
  if a.id = b.id then 0 else if a.norm < b.norm then -1 else 1

/-- `detectByNormAndSpeed`; the first of no fuzzers is a panic. -/
def detectByNormAndSpeed
    (slices : SliceSort)
    (bad : List (BadFuzzer Number)) : Result :=
  match slices.sortFunc normCmp bad with
  | [] => .panicked
  | b :: _ =>
      .returned (some { id := b.id, why := "worst norm", isNoice := b.isNoice })

/-- The end of the analysis, once the bad fuzzers are known. -/
def adviseOn
    (slices : SliceSort)
    (orders : Orders)
    (analyze : Analyze Number)
    (bad : BadFuzzers Number) : Result :=
  match bad.entries with
  | [] => .returned none
  | [(_, bf)] =>
      .returned
        (some { id := bf.id, why := "only one bad fuzzer", isNoice := bf.isNoice })
  | _ =>
      match detectByUniqueCoverage slices orders bad analyze with
      | [bf] =>
          .returned
            (some { id := bf.id, why := "min unique edges", isNoice := bf.isNoice })
      | badUnique => detectByNormAndSpeed slices badUnique

/-- `startAnalysis`. -/
def startAnalysis
    (libraries : Libraries Number)
    (slices : SliceSort)
    (orders : Orders)
    (analyze : Analyze Number) : Result :=
  adviseOn slices orders analyze (badFuzzers libraries orders analyze)

end MeFuzz.Analysis
