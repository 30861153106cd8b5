import MeFuzz.Entities
import MeFuzz.IterationOrder

namespace MeFuzz.Analysis

/-!
# The analysis of the coverage

From the coverage of each fuzzer the database makes what an analysis works on: the
length of each coverage vector now and at the last analysis, and clusters of fuzzers
whose coverage is similar.  Square roots, quantile estimates and the clustering are
those of libraries.
-/

instance : LinearOrder ElementID :=
  LinearOrder.lift' (fun id => toLex (id.nodeID.toNat, id.onNodeID.toNat)) (by
    rintro ⟨node, onNode⟩ ⟨otherNode, otherOnNode⟩ same
    have parts := Prod.ext_iff.mp (toLex.injective same)
    exact ElementID.mk.injEq .. ▸
      ⟨UInt32.toNat_inj.mp parts.1, UInt32.toNat_inj.mp parts.2⟩)

/-- The coverage of a fuzzer as a vector. -/
abbrev Row := Branch → UInt32

/-- `fuzzer`, with the squared length of its vector at the last analysis. -/
structure Fuzzer where
  cov : Row
  sqNorm : Nat

/-- The fuzzers of `CovData`. -/
abbrev CovData := OrderedMap ElementID Fuzzer

/-- What the analysis takes from libraries; there is one guess for each row. -/
structure Libraries (Number : Type) where
  sqrt : Nat → Number
  quantile : List Number → ℚ → Number
  dbscan : Number → List Row → Option (List Int)
  onePerRow :
    ∀ {eps rows guesses}, dbscan eps rows = some guesses →
      guesses.length = rows.length

/-- The orders of the walks of one analysis. -/
structure Orders where
  fuzzers : WalkOrder
  norms : WalkOrder
  clusters : WalkOrder
  common : WalkOrder
  unique : WalkOrder

/-- `Norm`: the length at the last analysis, and the one now. -/
structure Norm (Number : Type) where
  last : Number
  now : Number
  deriving DecidableEq

/-- `ClusteringData`. -/
structure ClusteringData where
  clusters : OrderedMap Int (List ElementID)
  noice : List ElementID

/-- `Analyze`. -/
structure Analyze (Number : Type) where
  norms : OrderedMap ElementID (Norm Number)
  clusteringData : ClusteringData
  coverages : OrderedMap ElementID Row

/-- The zero value of `ClusteringData`. -/
def ClusteringData.zero : ClusteringData where
  clusters := .empty
  noice := []

/-- The zero value of `Analyze`. -/
def Analyze.zero {Number : Type} : Analyze Number where
  norms := .empty
  clusteringData := .zero
  coverages := .empty

/-- The squared distance of two vectors. -/
def sqDist (f1 f2 : Row) : Nat :=
  ∑ branch, (((f1 branch).toNat : Int) - ((f2 branch).toNat : Int)).natAbs ^ 2

/-- The squared length of a vector. -/
def sqLength (cov : Row) : Nat :=
  ∑ branch, (cov branch).toNat ^ 2

section

variable {Number : Type}

/-- `distFn`. -/
def distFn (libraries : Libraries Number) (f1 f2 : Row) : Number :=
  libraries.sqrt (sqDist f1 f2)

/-- The distances of each row to itself and to those behind it. -/
def distances (libraries : Libraries Number) : List Row → List Number
  | [] => []
  | row :: rest =>
      (row :: rest).map (distFn libraries row) ++ distances libraries rest

/-- The lengths of a fuzzer's vector. -/
def normOf (libraries : Libraries Number) (fuzzer : Fuzzer) : Norm Number where
  last := libraries.sqrt fuzzer.sqNorm
  now := libraries.sqrt (sqLength fuzzer.cov)

/-- `calculate`: the walk, the norms, and the fuzzers with their new lengths. -/
def calculate
    (libraries : Libraries Number)
    (orders : Orders)
    (d : CovData) :
    List (ElementID × Row) × OrderedMap ElementID (Norm Number) × CovData :=
  let entries := orders.fuzzers.walk d
  (entries.map fun entry => (entry.1, entry.2.cov),
    OrderedMap.empty.insertAll
      (entries.map fun entry => (entry.1, normOf libraries entry.2)),
    OrderedMap.empty.insertAll
      (entries.map fun entry =>
        (entry.1, { entry.2 with sqNorm := sqLength entry.2.cov })))

/-- Put a fuzzer into the cluster guessed for it. -/
def ClusteringData.append
    (res : ClusteringData)
    (guess : Int)
    (id : ElementID) : ClusteringData :=
  if guess ≠ -1 then
    { res with
      clusters :=
        res.clusters.insert guess ((res.clusters.get guess).getD [] ++ [id]) }
  else { res with noice := res.noice ++ [id] }

/-- `getClusters`; `none` when the clustering fails. -/
def getClusters
    (libraries : Libraries Number)
    (points : List (ElementID × Row))
    (eps : Number) : Option ClusteringData := do
  let guesses ← libraries.dbscan eps (points.map Prod.snd)
  return (guesses.zip (points.map Prod.fst)).foldl
    (fun res guess => res.append guess.1 guess.2) .zero

/-- A cluster has more than half of the fuzzers. -/
def ClusteringData.HasLarge (data : ClusteringData) (count : Nat) : Prop :=
  ∃ cluster ∈ data.clusters.entries, count < 2 * cluster.2.length

instance (data : ClusteringData) (count : Nat) : Decidable (data.HasLarge count) :=
  inferInstanceAs (Decidable (∃ _ ∈ _, _))

/-- The loop over the quantiles: clusters, unless there are none to use. -/
def chooseClusters
    (libraries : Libraries Number)
    (points : List (ElementID × Row))
    (td : List Number) : List ℚ → Option ClusteringData
  | [] => some .zero
  | level :: rest => do
      let clusteringData ← getClusters libraries points (libraries.quantile td level)
      if clusteringData.HasLarge points.length then
        chooseClusters libraries points td rest
      else if 8 * points.length ≤ 10 * clusteringData.noice.length then
        return .zero
      else return clusteringData

/-- The quantiles from 0.5 down; the rounded 0.1 comes out too small. -/
def quantileLevels : List ℚ :=
  (List.range 20).map fun step => 1 / 2 - step / 50

/-- `CreateAnalyze`, with the fuzzers that it leaves. -/
def createAnalyze
    (libraries : Libraries Number)
    (orders : Orders)
    (d : CovData) : Option (Analyze Number) × CovData :=
  let (points, norms, d) := calculate libraries orders d
  let td := distances libraries (points.map Prod.snd)
  if points.length = 0 then (some .zero, d)
  else
    let analyze := do
      let clusteringData ← chooseClusters libraries points td quantileLevels
      return {
        norms := norms
        clusteringData := clusteringData
        coverages := OrderedMap.empty.insertAll points }
    (analyze, d)

/-- The analysis that the master goes on with: an error leaves it the zero value. -/
def analysis
    (libraries : Libraries Number)
    (orders : Orders)
    (d : CovData) : Analyze Number :=
  (createAnalyze libraries orders d).1.getD .zero

end

end MeFuzz.Analysis
