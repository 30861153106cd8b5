import MeFuzz.IterationOrder
import MeFuzz.SchedulerRuns

namespace MeFuzz.Scheduler

open Corpus (CorpusId Error InMemoryCorpus)

/-!
# The minimizer scheduler

The scheduler keeps for each map index the entry that covers it with the lowest
penalty, and counts at each entry the indexes that it is kept for.  The entries whose
lists cover all indexes are favored; the base scheduler's other choices are mostly
skipped.
-/

variable {Input Outside Factor : Type}

/-- `TestcaseScore::compute`, with factors that can be compared. -/
abbrev Penalty (Input Factor : Type) :=
  Testcase Input → State Input → Except Error Factor

/-- `F::compute` with the state of the moment. -/
def computePenalty
    (penalty : Penalty Input Factor)
    (testcase : Testcase Input) : Hook Input Factor := do
  let state ← get
  penalty testcase state

namespace MinimizerScheduler

/-- The message where the metadata of the entry itself is missing. -/
def noIndexes (idx : CorpusId) : String :=
  s!"Metadata needed for MinimizerScheduler not found in testcase #{idx}"

/-- The message where the metadata of another entry is missing. -/
def noOtherIndexes (idx : CorpusId) : String :=
  s!"libafl::feedbacks::map::MapIndexesMetadata needed for MinimizerScheduler not found in testcase #{idx}"

/-- One index less that an entry is kept for; without any, the metadata is removed. -/
def released (data : IndexesMetadata) : Option IndexesMetadata :=
  if data.tcref - 1 ≤ 0 then none else some { data with tcref := data.tcref - 1 }

section

variable [LinearOrder Factor]
variable (penalty : Penalty Input Factor)

/-- The body of the loop over the indexes of an entry. -/
def favor
    (idx : CorpusId)
    (factor : Factor)
    (newFavoreds : List Nat)
    (elem : Nat) : Hook Input (List Nat) := do
  let topRateds ← orPanic (← get).topRateds
  match topRateds.get elem with
  | none => pure (newFavoreds ++ [elem])
  | some oldIdx =>
      if oldIdx = idx then pure (newFavoreds ++ [elem])
      else do
        let old ← getTestcase oldIdx
        let oldFactor ← computePenalty penalty old
        if oldFactor < factor then pure newFavoreds
        else do
          let oldMeta ← orKeyNotFound (noOtherIndexes oldIdx) old.mapIndexes
          updateTestcase oldIdx fun testcase =>
            { testcase with mapIndexes := released oldMeta }
          pure (newFavoreds ++ [elem])

/-- `update_score`. -/
def updateScore (idx : CorpusId) : Hook Input Unit := do
  modify fun state =>
    { state with topRateds := some (state.topRateds.getD .empty) }
  let entry ← getTestcase idx
  let factor ← computePenalty penalty entry
  let data ← orKeyNotFound (noIndexes idx) entry.mapIndexes
  let newFavoreds ← data.list.foldlM (favor penalty idx factor) []
  updateTestcase idx fun testcase =>
    { testcase with mapIndexes := some { data with tcref := newFavoreds.length } }
  if newFavoreds.isEmpty then
    updateTestcase idx fun testcase => { testcase with mapIndexes := none }
  else
    modify fun state =>
      { state with
        topRateds :=
          state.topRateds.map fun map =>
            map.insertAll (newFavoreds.map fun elem => (elem, idx)) }

/--
The intersection of the indexes of a removed entry with those of another one.  It goes
on while both have an index left; no fuel, no result.
-/
def intersect
    (factor : Factor)
    (i : CorpusId) :
    Nat → List Nat → List Nat → OrderedMap Nat (Factor × CorpusId) →
      Option (OrderedMap Nat (Factor × CorpusId))
  | 0, _, _, _ => none
  | _ + 1, [], _, map => some map
  | _ + 1, _, [], map => some map
  | fuel + 1, e :: entries, me :: mapEntries, map =>
      if e < me then intersect factor i fuel entries (me :: mapEntries) map
      else if e = me then
        intersect factor i fuel (e :: entries) (me :: mapEntries)
          (match map.get e with
          | some (f, _) => if factor < f then map.insert e (factor, i) else map
          | none => map.insert e (factor, i))
      else intersect factor i fuel (e :: entries) mapEntries map

/-- The body of the loop over the entries that remain. -/
def reassign
    (fuel : Nat)
    (entries : List Nat)
    (map : Option (OrderedMap Nat (Factor × CorpusId)))
    (i : CorpusId) : Hook Input (Option (OrderedMap Nat (Factor × CorpusId))) :=
  match map with
  | none => pure none
  | some map => do
      let old ← getTestcase i
      let factor ← computePenalty penalty old
      match old.mapIndexes with
      | some oldMap => pure (intersect factor i fuel entries oldMap.list map)
      | none => pure (some map)

/-- The indexes that an entry is kept for, which come in order. -/
def owned (topRateds : TopRatedsMetadata) (idx : CorpusId) : List Nat :=
  (topRateds.entries.filter fun entry => entry.2 = idx).map Prod.fst

/-- Look for other entries of the indexes; the answer tells whether that ends. -/
def findOthers (fuel : Nat) (entries : List Nat) : Hook Input Bool := do
  let ids := (← get).corpus.ids
  match ← ids.foldlM (reassign penalty fuel entries) (some .empty) with
  | none => pure false
  | some map => do
      modify fun state =>
        { state with
          topRateds :=
            state.topRateds.map fun topRateds =>
              topRateds.insertAll
                (map.entries.map fun entry => (entry.1, entry.2.2)) }
      pure true

/-- What `on_remove` does after the base scheduler. -/
def reassignAll (fuel : Nat) (idx : CorpusId) : Hook Input Bool := do
  match (← get).topRateds with
  | none => pure true
  | some topRateds => do
      let entries := owned topRateds idx
      modify fun state =>
        { state with topRateds := some (topRateds.eraseAll entries) }
      findOthers penalty fuel entries

/-- The body of the loop over the map of the best entries. -/
def favorEntry
    (acc : Finset Nat)
    (entry : Nat × CorpusId) : Hook Input (Finset Nat) :=
  if entry.1 ∈ acc then pure acc
  else do
    let testcase ← getTestcase entry.2
    let data ← orKeyNotFound (noOtherIndexes entry.2) testcase.mapIndexes
    updateTestcase entry.2 fun testcase => { testcase with isFavored := true }
    pure (acc ∪ data.list.toFinset)

/-- `cull`; the order is the one in which the hash map is walked. -/
def cull (order : WalkOrder) : Hook Input Unit := do
  match (← get).topRateds with
  | none => pure ()
  | some topRateds => do
      let _ ← (order.walk topRateds).foldlM favorEntry ∅

variable (base : Hooks Input Outside)
variable (outside : Outside)
variable (idx : CorpusId)

/-- `on_add`. -/
def onAdd : Hook Input Unit := do
  base.onAdd outside idx
  updateScore penalty idx

/-- `on_replace`. -/
def onReplace (testcase : Testcase Input) : Hook Input Unit := do
  base.onReplace outside idx testcase
  updateScore penalty idx

/-- `on_remove`; the answer tells whether it ends. -/
def onRemove
    (fuel : Nat)
    (testcase : Option (Testcase Input)) : Hook Input Bool := do
  base.onRemove outside idx testcase
  reassignAll penalty fuel idx

end

section

variable (base : Hooks Input Outside)
variable (skipNonFavoredProb : Nat)

/--
The loop of `next`, which mostly skips an entry that is not favored.  Each round takes a
draw below 100 and what the base scheduler draws; it goes on where these are used up.
-/
def skipNonFavored :
    List (Nat × Outside) → CorpusId → Hook Input (Option CorpusId)
  | [], idx => do
      let testcase ← getTestcase idx
      if testcase.isFavored then pure (some idx) else pure none
  | (drawn, outside) :: draws, idx => do
      let testcase ← getTestcase idx
      if testcase.isFavored then pure (some idx)
      else if drawn < skipNonFavoredProb then do
        let idx ← base.next outside
        skipNonFavored draws idx
      else pure (some idx)

/-- `next`. -/
def next
    (order : WalkOrder)
    (outside : Outside)
    (draws : List (Nat × Outside)) : Hook Input (Option CorpusId) := do
  cull order
  let idx ← base.next outside
  skipNonFavored base skipNonFavoredProb draws idx

end

end MinimizerScheduler

end MeFuzz.Scheduler
