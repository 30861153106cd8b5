import MeFuzz.StorageRefinement

namespace MeFuzz.Corpus

/-!
# The corpus in memory

A corpus is a storage of testcases together with the id that was scheduled
last.  It is modelled on the ordered storage; no query tells the linked one
apart.
-/

/-- `Error`, as far as corpora and schedulers use it. -/
inductive Error where
  | keyNotFound (message : String)
  | empty (message : String)
  | illegalArgument (message : String)
  | illegalState (message : String)
  | file
  | panicked
  deriving Repr, DecidableEq

@[simp] theorem ok_bind
    {First Second : Type}
    (value : First)
    (next : First → Except Error Second) :
    (Except.ok value >>= next) = next value :=
  rfl

/-- The error for an id that is not in a corpus. -/
def indexNotFound (idx : CorpusId) : Error :=
  .keyNotFound s!"Index {idx} not found"

/-- `InMemoryCorpus`. -/
structure InMemoryCorpus (Testcase : Type*) where
  storage : BTree.TestcaseStorage Testcase
  current : Option CorpusId

namespace InMemoryCorpus

variable {Testcase : Type*}

/-- `InMemoryCorpus::new`. -/
def new : InMemoryCorpus Testcase where
  storage := .new
  current := none

variable (corpus : InMemoryCorpus Testcase)

/-- `count`. -/
def count : Nat :=
  corpus.storage.map.entries.length

/-- `add`, which never fails. -/
def add (testcase : Testcase) : CorpusId × InMemoryCorpus Testcase :=
  ((corpus.storage.insert testcase).1,
    { corpus with storage := (corpus.storage.insert testcase).2 })

/-- `replace`. -/
def replace
    (idx : CorpusId)
    (testcase : Testcase) :
    Except Error (Testcase × InMemoryCorpus Testcase) :=
  match corpus.storage.replace idx testcase with
  | (some entry, storage) => .ok (entry, { corpus with storage := storage })
  | (none, _) => .error (indexNotFound idx)

/-- `remove`. -/
def remove
    (idx : CorpusId) :
    Except Error (Testcase × InMemoryCorpus Testcase) :=
  match corpus.storage.remove idx with
  | (some entry, storage) => .ok (entry, { corpus with storage := storage })
  | (none, _) => .error (indexNotFound idx)

/-- `get`. -/
def get (idx : CorpusId) : Except Error Testcase :=
  match corpus.storage.get idx with
  | some testcase => .ok testcase
  | none => .error (indexNotFound idx)

/-- Write to a testcase that `get` returned. -/
def modify
    (idx : CorpusId)
    (change : Testcase → Testcase) : InMemoryCorpus Testcase :=
  { corpus with storage := corpus.storage.modify idx change }

/-- `next`. -/
def next (idx : CorpusId) : Option CorpusId :=
  corpus.storage.next idx

/-- `prev`. -/
def prev (idx : CorpusId) : Option CorpusId :=
  corpus.storage.prev idx

/-- `first`. -/
def first : Option CorpusId :=
  corpus.storage.first

/-- `last`. -/
def last : Option CorpusId :=
  corpus.storage.last

/-- `nth`; `none` when it panics. -/
def nth (nth : Nat) : Option CorpusId :=
  corpus.storage.nth nth

/-- `current_mut`. -/
def setCurrent (current : Option CorpusId) : InMemoryCorpus Testcase :=
  { corpus with current := current }

/-- The ids in the order of `first` and `next`. -/
def ids : List CorpusId :=
  corpus.storage.map.keys

/-- The testcase of an id. -/
def find (idx : CorpusId) : Option Testcase :=
  corpus.storage.map.get idx

section

variable {corpus}
variable {idx other : CorpusId}
variable {testcase : Testcase}
variable {change : Testcase → Testcase}

theorem get_eq :
    corpus.get idx =
      match corpus.find idx with
      | some testcase => .ok testcase
      | none => .error (indexNotFound idx) :=
  rfl

theorem get_eq_ok : corpus.get idx = .ok testcase ↔ corpus.find idx = some testcase := by
  rw [get_eq]
  cases corpus.find idx <;> simp

theorem mem_ids : idx ∈ corpus.ids ↔ ∃ testcase, corpus.find idx = some testcase :=
  OrderedMap.mem_keys

theorem find_eq_none : corpus.find idx = none ↔ idx ∉ corpus.ids :=
  OrderedMap.get_eq_none

theorem sorted_ids (corpus : InMemoryCorpus Testcase) :
    corpus.ids.Pairwise (· < ·) :=
  corpus.storage.map.sorted_keys

theorem count_eq (corpus : InMemoryCorpus Testcase) :
    corpus.count = corpus.ids.length :=
  List.length_map _ |>.symm

@[simp] theorem find_new : (new : InMemoryCorpus Testcase).find idx = none :=
  rfl

/-! ### `add` -/

/-- The id that `add` gives out next. -/
def nextId (corpus : InMemoryCorpus Testcase) : CorpusId :=
  corpus.storage.progressiveIdx

theorem lt_nextId (isId : idx ∈ corpus.ids) : idx < corpus.nextId :=
  corpus.storage.below idx isId

@[simp] theorem ids_add :
    (corpus.add testcase).2.ids = corpus.ids ++ [corpus.nextId] :=
  OrderedMap.keys_insert_of_above corpus.storage.below

theorem find_add :
    (corpus.add testcase).2.find idx =
      if idx = corpus.nextId then some testcase else corpus.find idx :=
  OrderedMap.get_insert

/-! ### `replace` and `modify` -/

@[simp] theorem ids_modify : (corpus.modify idx change).ids = corpus.ids :=
  OrderedMap.keys_modify

theorem find_modify :
    (corpus.modify idx change).find other =
      if other = idx then (corpus.find other).map change
      else corpus.find other :=
  OrderedMap.get_modify

theorem replace_eq :
    corpus.replace idx testcase =
      match corpus.find idx with
      | some entry => .ok (entry, corpus.modify idx fun _ => testcase)
      | none => .error (indexNotFound idx) := by
  unfold replace BTree.TestcaseStorage.replace find
  cases corpus.storage.map.get idx <;> rfl

/-! ### `remove` -/

/-- The corpus without an id. -/
def removed (corpus : InMemoryCorpus Testcase) (idx : CorpusId) :
    InMemoryCorpus Testcase :=
  { corpus with storage := corpus.storage.removed idx }

theorem remove_eq :
    corpus.remove idx =
      match corpus.find idx with
      | some entry => .ok (entry, corpus.removed idx)
      | none => .error (indexNotFound idx) := by
  unfold remove BTree.TestcaseStorage.remove find
  cases corpus.storage.map.get idx <;> rfl

@[simp] theorem ids_removed :
    (corpus.removed idx).ids = corpus.ids.filter fun id => id ≠ idx :=
  OrderedMap.keys_erase

theorem find_removed :
    (corpus.removed idx).find other =
      if other = idx then none else corpus.find other :=
  OrderedMap.get_erase

/-! ### Neighbours -/

theorem first_eq (corpus : InMemoryCorpus Testcase) :
    corpus.first = corpus.ids.head? :=
  rfl

theorem next_eq
    {before after : List CorpusId}
    (split : corpus.ids = before ++ idx :: after) :
    corpus.next idx = after.head? :=
  BTree.TestcaseStorage.next_eq split

theorem next_of_absent (absent : idx ∉ corpus.ids) : corpus.next idx = none :=
  BTree.TestcaseStorage.next_of_absent absent

theorem mem_of_next (isNext : corpus.next idx = some other) : other ∈ corpus.ids := by
  by_cases isLive : idx ∈ corpus.ids
  · obtain ⟨earlier, later, split⟩ := List.append_of_mem isLive
    rw [next_eq split] at isNext
    obtain ⟨rest, rfl⟩ := List.head?_eq_some_iff.mp isNext
    simp [split]
  · rw [next_of_absent isLive] at isNext
    cases isNext

theorem mem_of_first (isFirst : corpus.first = some idx) : idx ∈ corpus.ids := by
  rw [first_eq] at isFirst
  exact List.mem_of_head? isFirst

theorem exists_first (notEmpty : corpus.ids ≠ []) : ∃ id, corpus.first = some id := by
  obtain ⟨first, rest, split⟩ := List.exists_cons_of_ne_nil notEmpty
  exact ⟨first, by rw [first_eq, split]; rfl⟩

theorem count_eq_zero : corpus.count = 0 ↔ corpus.ids = [] := by
  rw [count_eq, List.length_eq_zero_iff]

theorem nth_eq (nth : Nat) : corpus.nth nth = corpus.ids[nth]? := by
  unfold InMemoryCorpus.nth BTree.TestcaseStorage.nth ids
  rw [corpus.storage.keys_eq]

end

end InMemoryCorpus

end MeFuzz.Corpus
