import Mathlib.Data.Finmap
import Mathlib.Data.List.TakeWhile
import MeFuzz.OrderedMap

namespace MeFuzz.Corpus

/-!
# The two storages of testcases

A corpus keeps its testcases under ids that count up.  By default they are in a
hash map whose items are linked to their neighbours; with the feature
`corpus_btreemap` they are in an ordered map.  Both also keep the ids in a
sorted vector.
-/

/-- `CorpusId`. -/
abbrev CorpusId := Nat

/--
`Vec::binary_search` on a sorted vector: where the id is, or else where it
would be put in.
-/
def binarySearch (keys : List CorpusId) (id : CorpusId) : Except Nat Nat :=
  let idx := (keys.takeWhile (· < id)).length
  if keys[idx]? = some id then .ok idx else .error idx

/-- `insert_key`. -/
def insertKey (keys : List CorpusId) (id : CorpusId) : List CorpusId :=
  match binarySearch keys id with
  | .ok _ => keys
  | .error idx => keys.insertIdx idx id

/-- `remove_key`. -/
def removeKey (keys : List CorpusId) (id : CorpusId) : List CorpusId :=
  match binarySearch keys id with
  | .ok idx => keys.eraseIdx idx
  | .error _ => keys

section

variable {keys before after : List CorpusId}
variable {id : CorpusId}

theorem insertKey_of_above (above : ∀ other ∈ keys, other < id) :
    insertKey keys id = keys ++ [id] := by
  have all : keys.takeWhile (· < id) = keys := by
    rw [List.takeWhile_eq_self_iff]
    intro other isKey
    simpa using above other isKey
  unfold insertKey binarySearch
  simp [all]

theorem removeKey_of_split
    (sorted : (before ++ id :: after).Pairwise (· < ·)) :
    removeKey (before ++ id :: after) id = before ++ after := by
  rw [List.pairwise_append] at sorted
  obtain ⟨_, _, below⟩ := sorted
  have early :
      (before ++ id :: after).takeWhile (· < id) = before := by
    rw [List.takeWhile_append_of_pos, List.takeWhile_cons_of_neg (by simp),
      List.append_nil]
    intro other isEarly
    simpa using below other isEarly id List.mem_cons_self
  unfold removeKey binarySearch
  simp [early, List.eraseIdx_append_of_length_le]

theorem removeKey_of_absent (absent : id ∉ keys) : removeKey keys id = keys := by
  have notFound : ∀ idx : Nat, keys[idx]? ≠ some id := fun idx found =>
    absent (List.mem_of_getElem? found)
  unfold removeKey binarySearch
  simp [notFound]

theorem removeKey_eq_filter (sorted : keys.Pairwise (· < ·)) :
    removeKey keys id = keys.filter fun other => other ≠ id := by
  by_cases present : id ∈ keys
  · obtain ⟨before, after, rfl⟩ := List.append_of_mem present
    have nodup : (before ++ id :: after).Nodup := sorted.imp Nat.ne_of_lt
    rw [removeKey_of_split sorted, OrderedMap.filter_ne_of_split nodup]
  · rw [removeKey_of_absent present, eq_comm, List.filter_eq_self]
    intro other isKey
    have apart : other ≠ id := fun same => present (same ▸ isKey)
    simpa using apart

end

namespace Linked

/-- `TestcaseStorageItem`. -/
structure TestcaseStorageItem (Testcase : Type*) where
  testcase : Testcase
  prev : Option CorpusId
  next : Option CorpusId
  deriving DecidableEq

/-- `TestcaseStorageMap`. -/
abbrev TestcaseStorageMap (Testcase : Type*) :=
  Finmap fun _ : CorpusId => TestcaseStorageItem Testcase

/-- `TestcaseStorage`. -/
structure TestcaseStorage (Testcase : Type*) where
  map : TestcaseStorageMap Testcase
  keys : List CorpusId
  progressiveIdx : Nat
  firstIdx : Option CorpusId
  lastIdx : Option CorpusId

variable {Testcase : Type*}

/-- Change an item that is there; `none` when it is not, which panics. -/
def updateItem
    (map : TestcaseStorageMap Testcase)
    (id : CorpusId)
    (change : TestcaseStorageItem Testcase → TestcaseStorageItem Testcase) :
    Option (TestcaseStorageMap Testcase) :=
  (map.lookup id).map fun item => map.insert id (change item)

/-- Change the item of a neighbour, if there is one. -/
def updateNeighbour
    (map : TestcaseStorageMap Testcase)
    (change : TestcaseStorageItem Testcase → TestcaseStorageItem Testcase) :
    Option CorpusId → Option (TestcaseStorageMap Testcase)
  | none => some map
  | some id => updateItem map id change

namespace TestcaseStorage

/-- `TestcaseStorage::new`. -/
def new : TestcaseStorage Testcase where
  map := ∅
  keys := []
  progressiveIdx := 0
  firstIdx := none
  lastIdx := none

variable (storage : TestcaseStorage Testcase)

/-- `insert`. -/
def insert
    (testcase : Testcase) : Option (CorpusId × TestcaseStorage Testcase) := do
  let idx := storage.progressiveIdx
  let map ←
    updateNeighbour storage.map ({ · with next := some idx }) storage.lastIdx
  some
    (idx,
      { map :=
          map.insert idx
            { testcase := testcase, prev := storage.lastIdx, next := none }
        keys := insertKey storage.keys idx
        progressiveIdx := storage.progressiveIdx + 1
        firstIdx :=
          if storage.firstIdx.isNone then some idx else storage.firstIdx
        lastIdx := some idx })

/-- `replace`. -/
def replace
    (idx : CorpusId)
    (testcase : Testcase) : Option Testcase × TestcaseStorage Testcase :=
  match storage.map.lookup idx with
  | some entry =>
      (some entry.testcase,
        { storage with
          map := storage.map.insert idx { entry with testcase := testcase } })
  | none => (none, storage)

/-- `remove`. -/
def remove
    (idx : CorpusId) : Option (Option Testcase × TestcaseStorage Testcase) :=
  match storage.map.lookup idx with
  | none => some (none, storage)
  | some item => do
      let map ←
        updateNeighbour (storage.map.erase idx) ({ · with next := item.next })
          item.prev
      let map ← updateNeighbour map ({ · with prev := item.prev }) item.next
      some
        (some item.testcase,
          { storage with
            map := map
            keys := removeKey storage.keys idx
            firstIdx :=
              if item.prev.isNone then item.next else storage.firstIdx
            lastIdx :=
              if item.next.isNone then item.prev else storage.lastIdx })

/-- `get`. -/
def get (idx : CorpusId) : Option Testcase :=
  (storage.map.lookup idx).map TestcaseStorageItem.testcase

/-- `next`. -/
def next (idx : CorpusId) : Option CorpusId :=
  match storage.map.lookup idx with
  | some item => item.next
  | none => none

/-- `prev`. -/
def prev (idx : CorpusId) : Option CorpusId :=
  match storage.map.lookup idx with
  | some item => item.prev
  | none => none

/-- `first`. -/
def first : Option CorpusId :=
  storage.firstIdx

/-- `last`. -/
def last : Option CorpusId :=
  storage.lastIdx

/-- `nth`; `none` when it is out of bounds, which panics. -/
def nth (nth : Nat) : Option CorpusId :=
  storage.keys[nth]?

end TestcaseStorage

end Linked

namespace BTree

/-- `TestcaseStorage`, whose vector lists the ids of the map. -/
structure TestcaseStorage (Testcase : Type*) where
  map : OrderedMap CorpusId Testcase
  keys : List CorpusId
  progressiveIdx : Nat
  keys_eq : keys = map.keys
  below : ∀ id ∈ map.keys, id < progressiveIdx

namespace TestcaseStorage

variable {Testcase : Type*}

/-- `TestcaseStorage::new`. -/
def new : TestcaseStorage Testcase where
  map := .empty
  keys := []
  progressiveIdx := 0
  keys_eq := rfl
  below := by simp

variable (storage : TestcaseStorage Testcase)

/-- The state after `insert`. -/
def inserted (testcase : Testcase) : TestcaseStorage Testcase where
  map := storage.map.insert storage.progressiveIdx testcase
  keys := insertKey storage.keys storage.progressiveIdx
  progressiveIdx := storage.progressiveIdx + 1
  keys_eq := by
    rw [OrderedMap.keys_insert_of_above storage.below, storage.keys_eq,
      insertKey_of_above storage.below]
  below := by
    intro id isKey
    rw [OrderedMap.keys_insert_of_above storage.below] at isKey
    cases List.mem_append.mp isKey with
    | inl old =>
        exact Nat.lt_succ_of_lt (storage.below id old)
    | inr new =>
        exact List.mem_singleton.mp new ▸ Nat.lt_succ_self _

/-- `insert`. -/
def insert (testcase : Testcase) : CorpusId × TestcaseStorage Testcase :=
  (storage.progressiveIdx, storage.inserted testcase)

/-- Change a testcase in place. -/
def modify
    (idx : CorpusId)
    (change : Testcase → Testcase) : TestcaseStorage Testcase :=
  { storage with
    map := storage.map.modify idx change
    keys_eq := by rw [OrderedMap.keys_modify, storage.keys_eq]
    below := by
      rw [OrderedMap.keys_modify]
      exact storage.below }

/-- `replace`. -/
def replace
    (idx : CorpusId)
    (testcase : Testcase) : Option Testcase × TestcaseStorage Testcase :=
  (storage.map.get idx, storage.modify idx fun _ => testcase)

/-- The state after `remove`. -/
def removed (idx : CorpusId) : TestcaseStorage Testcase where
  map := storage.map.erase idx
  keys := removeKey storage.keys idx
  progressiveIdx := storage.progressiveIdx
  keys_eq := by
    rw [storage.keys_eq, removeKey_eq_filter storage.map.sorted_keys,
      OrderedMap.keys_erase]
  below := by
    intro id isKey
    rw [OrderedMap.keys_erase] at isKey
    exact storage.below id (List.mem_of_mem_filter isKey)

/-- `remove`. -/
def remove
    (idx : CorpusId) : Option Testcase × TestcaseStorage Testcase :=
  (storage.map.get idx, storage.removed idx)

/-- `get`. -/
def get (idx : CorpusId) : Option Testcase :=
  storage.map.get idx

/-- `next`. -/
def next (idx : CorpusId) : Option CorpusId :=
  match storage.map.keys.filter (fun id => idx ≤ id) with
  | [] => none
  | thisId :: range => if idx ≠ thisId then none else range.head?

/-- `prev`. -/
def prev (idx : CorpusId) : Option CorpusId :=
  match (storage.map.keys.filter (fun id => id ≤ idx)).reverse with
  | [] => none
  | thisId :: range => if idx ≠ thisId then none else range.head?

/-- `first`. -/
def first : Option CorpusId :=
  storage.map.keys.head?

/-- `last`. -/
def last : Option CorpusId :=
  storage.map.keys.getLast?

/-- `nth`; `none` when it is out of bounds, which panics. -/
def nth (nth : Nat) : Option CorpusId :=
  storage.keys[nth]?

end TestcaseStorage

end BTree

end MeFuzz.Corpus
