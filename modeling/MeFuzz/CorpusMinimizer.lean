import MeFuzz.IterationOrder
import MeFuzz.RemovalHooks

namespace MeFuzz.CorpusMinimizer

open Corpus (CorpusId Error InMemoryCorpus)
open Scheduler (Hook Penalty State computePenalty getTestcase orPanic removeTestcase)

/-!
# The corpus minimizer

The minimizer runs every entry, has a solver select entries that together cover what
all of them covered, and removes the others.  The constraints say of each value of each
index of the map that one of the entries with it is selected.
-/

variable {Input Entry : Type}

/-- A formula over seeds. -/
inductive Formula where
  | seed (name : Nat)
  | not (operand : Formula)
  | or (first second : Formula)
  deriving Repr, DecidableEq

/-- `eval`, where a model has a value for each seed. -/
def Formula.eval (model : Nat → Bool) : Formula → Bool
  | .seed name => model name
  | .not operand => !operand.eval model
  | .or first second => first.eval model || second.eval model

/--
The optimizer.  It is given what is asserted, and what is asserted softly with its
weight; what it finds is a model of all hard constraints.
-/
structure Optimize where
  getModel : List Formula → List (Formula × Nat) → Option (Nat → Bool)
  isModel :
    ∀ {hard soft model},
      getModel hard soft = some model → ∀ formula ∈ hard, formula.eval model = true

/-- `cov_map`: the seeds of each value of each index. -/
abbrev CovMap (Entry : Type) [LinearOrder Entry] :=
  OrderedMap Nat (OrderedMap Entry (OrderedMap Nat Unit))

/-- What is gathered from the runs. -/
structure Gathered (Entry : Type) [LinearOrder Entry] where
  seedExprs : OrderedMap Nat (CorpusId × Nat)
  covMap : CovMap Entry
  fresh : Nat

/-- Nothing was run. -/
def Gathered.empty [LinearOrder Entry] : Gathered Entry :=
  ⟨.empty, .empty, 0⟩

/-- `to_u64` of a double. -/
def toU64 (weight : Float) : Option Nat :=
  if -1.0 < weight ∧ weight < 18446744073709551616.0 then
    some weight.toUInt64.toNat
  else
    none

/-- The orders in which the hash maps are walked. -/
structure Orders where
  covMap : WalkOrder
  cov : WalkOrder
  seeds : WalkOrder
  soft : WalkOrder
  removed : WalkOrder

section

variable [LinearOrder Entry]

/-- Store a value of an index; the initial one does not count. -/
def cover
    (initial : Entry)
    (seed : Nat)
    (covMap : CovMap Entry)
    (observed : Entry × Nat) : CovMap Entry :=
  if observed.1 ≠ initial then
    let cov := (covMap.get observed.2).getD .empty
    let seeds := (cov.get observed.1).getD .empty
    covMap.insert observed.2 (cov.insert observed.1 (seeds.insert seed ()))
  else
    covMap

/-- Store the map and the weight of an entry under a fresh seed. -/
def Gathered.store
    (gathered : Gathered Entry)
    (initial : Entry)
    (idx : CorpusId)
    (weight : Nat)
    (map : List Entry) : Gathered Entry where
  seedExprs := gathered.seedExprs.insert gathered.fresh (idx, weight)
  covMap := map.zipIdx.foldl (cover initial gathered.fresh) gathered.covMap
  fresh := gathered.fresh + 1

variable (compute : Penalty Input Float)
variable (execute : Input → Except Error (List Entry))
variable (initial : Entry)

/-- The body of the loop over the entries. -/
def gatherEntry
    (idx : CorpusId)
    (gathered : Gathered Entry) : Hook Input (Gathered Entry) := do
  let testcase ← getTestcase idx
  let weight ← computePenalty compute testcase
  let weight ← orPanic (toU64 weight)
  let input ← orPanic testcase.input
  let map ← execute input
  pure (gathered.store initial idx weight map)

/-- The loop over the entries; it ends within as many rounds as there are entries. -/
def gather : Nat → Option CorpusId → Gathered Entry → Hook Input (Option (Gathered Entry))
  | _, none, gathered => pure (some gathered)
  | 0, some _, _ => pure none
  | rounds + 1, some idx, gathered => do
      let gathered ← gatherEntry compute execute initial idx gathered
      let state ← get
      gather rounds (state.corpus.next idx) gathered

/-- `reduce`. -/
def reduced : List Nat → Option Formula
  | [] => none
  | first :: rest =>
      some (rest.foldl (fun formula seed => .or formula (.seed seed)) (.seed first))

/-- What is asserted: one seed for each value of each index. -/
def hardConstraints
    (orders : Orders)
    (gathered : Gathered Entry) : List Formula :=
  (orders.covMap.walk gathered.covMap).flatMap fun cov =>
    (orders.cov.walk cov.2).filterMap fun seeds =>
      reduced ((orders.seeds.walk seeds.2).map Prod.fst)

/-- What is asserted softly: no seeds, by their weights. -/
def softConstraints
    (orders : Orders)
    (gathered : Gathered Entry) : List (Formula × Nat) :=
  (orders.soft.walk gathered.seedExprs).map fun entry =>
    (.not (.seed entry.1), entry.2.2)

/-- The entries whose seeds are not in the model, from the back to the front. -/
def removedIds
    (orders : Orders)
    (gathered : Gathered Entry)
    (model : Nat → Bool) : List CorpusId :=
  List.insertionSort (fun idx1 idx2 => idx2 ≤ idx1)
    (((orders.removed.walk gathered.seedExprs).filter fun entry =>
      !(Formula.seed entry.1).eval model).map fun entry => entry.2.1)

/-- Remove entries and tell the scheduler; the answer tells whether that ends. -/
def removeAll (hook : RemovalHook Input) : List CorpusId → Hook Input Bool
  | [] => pure true
  | idx :: rest => do
      let removed ← removeTestcase idx
      let ended ← hook.onRemove idx (some removed)
      if ended then removeAll hook rest else pure false

/-- The errors of a minimization. -/
inductive Failure where
  | error (error : Error)
  | unknown (message : String)
  deriving Repr, DecidableEq

/-- `minimize`; the answer tells whether it ends. -/
def minimize
    (solver : Optimize)
    (hook : RemovalHook Input)
    (orders : Orders) : Procedure Failure (State Input) Bool := do
  let state ← get
  let gathered ←
    ExceptT.adapt .error
      (gather compute execute initial state.corpus.count state.corpus.first .empty)
  match gathered with
  | none => pure false
  | some gathered =>
      match
        solver.getModel (hardConstraints orders gathered)
          (softConstraints orders gathered)
      with
      | none => throw (.unknown "Corpus minimization failed; unsat.")
      | some model =>
          ExceptT.adapt .error (removeAll hook (removedIds orders gathered model))

end

end MeFuzz.CorpusMinimizer
