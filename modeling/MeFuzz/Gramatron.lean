import MeFuzz.MutatorDraws

namespace MeFuzz.Gramatron

open Corpus (CorpusId)
open Mutators

/-!
# Gramatron mutators

An input is a list of terminals, each of which records a state of an automaton
and the trigger that was taken there.  The generator walks to the final state;
the mutators cut inputs and put other parts behind or in between.
-/

/-- `Trigger`. -/
structure Trigger where
  dest : Nat
  term : String
  deriving DecidableEq

/-- `Automaton`. -/
structure Automaton where
  finalState : Nat
  initState : Nat
  pda : List (List Trigger)

/-- `Terminal`. -/
structure Terminal where
  state : Nat
  triggerIdx : Nat
  symbol : String
  deriving DecidableEq

section

variable (automaton : Automaton)

/-- The trigger that is drawn in a state. -/
def drawTrigger (state : Nat) : Mutation (List Terminal) (Nat × Trigger) := do
  let triggers ← unwrap automaton.pda[state]?
  let idx ← below triggers.length
  let trigger ← unwrap triggers[idx]?
  pure (idx, trigger)

/-- The loop of `append_generated_terminals`.  It may go on forever. -/
def generateFrom :
    Nat → Nat → Nat → Mutation (List Terminal) Nat
  | 0, _, _ => throw .hangs
  | fuel + 1, currentState, counter =>
      if currentState = automaton.finalState then pure counter
      else do
        let (idx, trigger) ← drawTrigger automaton currentState
        change fun terminals => terminals ++ [⟨currentState, idx, trigger.term⟩]
        generateFrom fuel trigger.dest (counter + 1)

/-- `append_generated_terminals`. -/
def appendGeneratedTerminals (fuel : Nat) : Mutation (List Terminal) Nat := do
  match (← own).getLast? with
  | none => generateFrom automaton fuel automaton.initState 0
  | some last => do
      let (_, trigger) ← drawTrigger automaton last.state
      generateFrom automaton fuel trigger.dest 0

/-- `GramatronGenerator::generate`. -/
def generate (fuel : Nat) : Mutation (List Terminal) MutationResult := do
  change fun _ => []
  let _ ← appendGeneratedTerminals automaton fuel
  pure .mutated

/-- `append_generated_terminals`, and whether it appended any. -/
def regenerate (fuel : Nat) : Mutation (List Terminal) MutationResult := do
  let counter ← appendGeneratedTerminals automaton fuel
  pure (if 0 < counter then .mutated else .skipped)

/-- `GramatronRandomMutator::mutate`. -/
def mutateRandomly (fuel : Nat) : Mutation (List Terminal) MutationResult := do
  let terminals ← own
  if terminals.isEmpty then regenerate automaton fuel
  else
    let size ← below (terminals.length + 1)
    change (·.take size)
    regenerate automaton fuel

end

/-- `GramatronIdxMapMetadata::new`: for each state, the indices of its terminals. -/
def idxMap
    (terminals : List Terminal)
    (state : Nat) : Option (List Nat) :=
  let indices :=
    (terminals.zipIdx.filter fun cell => cell.1.state = state).map Prod.snd
  if indices.isEmpty then none else some indices

/-- A testcase.  Its metadata, where there are any, are those of its input. -/
structure Testcase where
  terminals : List Terminal
  metadata : Option (Nat → Option (List Nat))
  metadata_eq : ∀ map, metadata = some map → map = idxMap terminals

/-- The corpus; each index below the count has an id. -/
structure Context where
  count : Nat
  nth : Nat → Option CorpusId
  nth_isSome : ∀ i < count, (nth i).isSome = true
  get : CorpusId → Except Corpus.Error Testcase

/-- `GramatronSpliceMutator::mutate`. -/
def splice (context : Context) : Mutation (List Terminal) MutationResult := do
  let terminals ← own
  if terminals.isEmpty then pure .skipped
  else
    let nth ← below context.count
    let idx ← unwrap (context.nth nth)
    let insertAt ← below terminals.length
    let randNum ← next
    let other ← attempt (context.get idx)
    let map := other.metadata.getD (idxMap other.terminals)
    let terminal ← unwrap terminals[insertAt]?
    match map terminal.state with
    | none => pure .skipped
    | some splicePoints => do
        let from' ← unwrap splicePoints[randNum % splicePoints.length]?
        change fun terminals =>
          terminals.take insertAt ++ other.terminals.drop from'
        pure .mutated

/-- `RECUR_THRESHOLD`. -/
def recurThreshold : Nat := 5

/-- How often a state occurs, and where first and last. -/
structure Counter where
  count : Nat
  first : Nat
  last : Nat

/-- `counters` and `states`. -/
structure Counters where
  counters : Nat → Option Counter
  states : List Nat

/-- No state has been seen. -/
def Counters.empty : Counters :=
  ⟨fun _ => none, []⟩

/-- The loop that counts, for one terminal. -/
def Counters.see
    (seen : Counters)
    (cell : Terminal × Nat) : Counters :=
  match seen.counters cell.1.state with
  | some entry =>
      { counters :=
          Function.update seen.counters cell.1.state
            (some ⟨entry.count + 1, entry.first, max entry.last cell.2⟩)
        states :=
          if entry.count = 1 then seen.states ++ [cell.1.state] else seen.states }
  | none =>
      { seen with
        counters :=
          Function.update seen.counters cell.1.state (some ⟨1, cell.2, cell.2⟩) }

/-- The counters of an input. -/
def countersOf (terminals : List Terminal) : Counters :=
  terminals.zipIdx.foldl Counters.see .empty

/-- What the loop for the two occurrences knows. -/
structure Occurrences where
  first : Int
  second : Int
  idx1 : Nat
  idx2 : Nat

/-- The loop that looks for the two occurrences. -/
def findOccurrences
    (terminals : List Terminal)
    (chosen : Nat) :
    List Nat → Occurrences → Option Occurrences
  | [], found => some found
  | i :: rest, found => do
      let terminal ← terminals[i]?
      if terminal.state = chosen then
        let found := if found.first = 0 then { found with idx1 := i } else found
        if found.second = 0 then some { found with idx2 := i }
        else
          findOccurrences terminals chosen rest
            { found with first := found.first - 1, second := found.second - 1 }
      else findOccurrences terminals chosen rest found

/-- `GramatronRecursionMutator::mutate`. -/
def recur : Mutation (List Terminal) MutationResult := do
  let terminals ← own
  if terminals.isEmpty then pure .skipped
  else
    let counted := countersOf terminals
    if counted.states.isEmpty then pure .skipped
    else
      let chosen ← choose counted.states
      let counter ← unwrap (counted.counters chosen)
      let first ← below (counter.count - 1)
      let second ← between (first + 1) (counter.count - 1)
      let found ←
        unwrap
          (findOccurrences terminals chosen
            (List.range' counter.first (counter.last + 1 - counter.first))
            ⟨first, second, 0, 0⟩)
      if found.idx1 < found.idx2 ∧ found.idx2 ≤ terminals.length then
        let suffix := terminals.drop found.idx2
        let feature := (terminals.take found.idx2).drop found.idx1
        let times ← below recurThreshold
        change fun _ =>
          terminals.take found.idx1 ++ (List.replicate times feature).flatten ++
            suffix
        pure .mutated
      else throw .panicked

/-- What gives an input. -/
inductive Source where
  | generator
  | random
  | splice
  | recursion
  deriving DecidableEq

/-- `generate` and `mutate`. -/
def produce
    (automaton : Automaton)
    (context : Context)
    (fuel : Nat) : Source → Mutation (List Terminal) MutationResult
  | .generator => generate automaton fuel
  | .random => mutateRandomly automaton fuel
  | .splice => splice context
  | .recursion => recur

end MeFuzz.Gramatron
