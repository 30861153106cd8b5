import Mathlib.Data.List.AList
import Mathlib.Data.List.Count
import Mathlib.Logic.Function.Basic

namespace MeFuzz

/-!
# Reference counts

Values that live as long as they are referred to.  A heap counts the references to
each of its values, and an owner of references is compared with it by the list of
references that it holds.  References are held in tables, so the module also says
what a table holds after an entry is put in or taken out.
-/

/-- A reference. -/
abbrev Reference := Nat

/-- Values with the number of references to each. -/
structure CountedHeap (Value : Type) where
  value : Reference → Option Value
  strong : Reference → Nat
  next : Reference

namespace CountedHeap

variable {Value : Type}

/-- Nothing is allocated. -/
def empty : CountedHeap Value where
  value := fun _ => none
  strong := fun _ => 0
  next := 0

/-- A new value with one reference to it. -/
def alloc (heap : CountedHeap Value) (value : Value) : Reference × CountedHeap Value :=
  (heap.next,
    { value := Function.update heap.value heap.next (some value)
      strong := Function.update heap.strong heap.next 1
      next := heap.next + 1 })

/-- One more reference. -/
def clone (heap : CountedHeap Value) (reference : Reference) : CountedHeap Value :=
  { heap with
    strong :=
      Function.update heap.strong reference (heap.strong reference + 1) }

/-- One reference less. -/
def drop (heap : CountedHeap Value) (reference : Reference) : CountedHeap Value :=
  { heap with
    strong :=
      Function.update heap.strong reference (heap.strong reference - 1) }

/-- One more of each of the references. -/
def cloneAll
    (heap : CountedHeap Value)
    (references : List Reference) : CountedHeap Value :=
  references.foldl clone heap

/-- One less of each of the references. -/
def dropAll
    (heap : CountedHeap Value)
    (references : List Reference) : CountedHeap Value :=
  references.foldl drop heap

/-- The value is still there. -/
def Exists (heap : CountedHeap Value) (reference : Reference) : Prop :=
  0 < heap.strong reference

instance (heap : CountedHeap Value) (reference : Reference) :
    Decidable (heap.Exists reference) :=
  inferInstanceAs (Decidable (0 < _))

@[simp] theorem value_cloneAll
    (heap : CountedHeap Value)
    (references : List Reference) :
    (heap.cloneAll references).value = heap.value := by
  induction references generalizing heap with
  | nil => rfl
  | cons reference rest ih =>
      exact ih (heap.clone reference)

@[simp] theorem next_cloneAll
    (heap : CountedHeap Value)
    (references : List Reference) :
    (heap.cloneAll references).next = heap.next := by
  induction references generalizing heap with
  | nil => rfl
  | cons reference rest ih =>
      exact ih (heap.clone reference)

@[simp] theorem value_dropAll
    (heap : CountedHeap Value)
    (references : List Reference) :
    (heap.dropAll references).value = heap.value := by
  induction references generalizing heap with
  | nil => rfl
  | cons reference rest ih =>
      exact ih (heap.drop reference)

@[simp] theorem next_dropAll
    (heap : CountedHeap Value)
    (references : List Reference) :
    (heap.dropAll references).next = heap.next := by
  induction references generalizing heap with
  | nil => rfl
  | cons reference rest ih =>
      exact ih (heap.drop reference)

/-- Each value is counted as often as its reference is held, and held ones are old. -/
structure Counts (heap : CountedHeap Value) (held : List Reference) : Prop where
  strong : ∀ reference, heap.strong reference = held.count reference
  old : ∀ reference ∈ held, reference < heap.next

namespace Counts

variable {heap : CountedHeap Value}
variable {held other references : List Reference}
variable {reference : Reference}

theorem exists_iff
    (counts : Counts heap held) :
    heap.Exists reference ↔ reference ∈ held := by
  unfold Exists
  rw [counts.strong, List.count_pos_iff]

theorem perm
    (counts : Counts heap held)
    (same : held.Perm other) :
    Counts heap other where
  strong := fun reference =>
    (counts.strong reference).trans (same.count_eq reference)
  old := fun reference isHeld => counts.old reference (same.mem_iff.mpr isHeld)

theorem empty : Counts (CountedHeap.empty : CountedHeap Value) [] where
  strong := fun _ => rfl
  old := fun _ => nofun

theorem alloc
    (counts : Counts heap held)
    (value : Value) :
    Counts (heap.alloc value).2 ((heap.alloc value).1 :: held) where
  strong := by
    intro reference
    unfold CountedHeap.alloc
    dsimp only
    rw [List.count_cons]
    by_cases isNew : reference = heap.next
    · subst isNew
      have unheld : heap.next ∉ held := fun isHeld =>
        Nat.lt_irrefl _ (counts.old _ isHeld)
      rw [Function.update_self, List.count_eq_zero_of_not_mem unheld]
      simp
    · rw [Function.update_of_ne isNew, counts.strong]
      simp [Ne.symm isNew]
  old := by
    intro reference isHeld
    rcases List.mem_cons.mp isHeld with rfl | isOld
    · exact Nat.lt_succ_self _
    · exact Nat.lt_succ_of_lt (counts.old reference isOld)

theorem clone
    (counts : Counts heap held)
    (isHeld : reference ∈ held) :
    Counts (heap.clone reference) (reference :: held) where
  strong := by
    intro other
    unfold CountedHeap.clone
    dsimp only
    rw [List.count_cons]
    by_cases same : other = reference
    · subst same
      rw [Function.update_self, counts.strong]
      simp
    · rw [Function.update_of_ne same, counts.strong]
      simp [Ne.symm same]
  old := by
    intro other isIn
    rcases List.mem_cons.mp isIn with rfl | isOld
    · exact counts.old other isHeld
    · exact counts.old other isOld

theorem drop
    (counts : Counts heap (reference :: held)) :
    Counts (heap.drop reference) held where
  strong := by
    intro other
    have before := counts.strong other
    rw [List.count_cons] at before
    unfold CountedHeap.drop
    dsimp only
    by_cases same : other = reference
    · subst same
      rw [Function.update_self, before]
      simp
    · rw [Function.update_of_ne same, before]
      simp [Ne.symm same]
  old := fun other isHeld => counts.old other (List.mem_cons_of_mem _ isHeld)

theorem cloneAll
    (counts : Counts heap held)
    (areHeld : ∀ reference ∈ references, reference ∈ held) :
    Counts (heap.cloneAll references) (references ++ held) := by
  induction references generalizing heap held with
  | nil =>
      exact counts
  | cons reference rest ih =>
      have one := counts.clone (areHeld reference List.mem_cons_self)
      have all := ih one fun other isIn =>
        List.mem_cons_of_mem _ (areHeld other (List.mem_cons_of_mem _ isIn))
      exact all.perm List.perm_middle

theorem dropAll
    (counts : Counts heap (references ++ held)) :
    Counts (heap.dropAll references) held := by
  induction references generalizing heap with
  | nil =>
      exact counts
  | cons reference rest ih =>
      exact ih counts.drop

end Counts

end CountedHeap

section

variable {Key Entry Item : Type} [DecidableEq Key]

/-- A table of entries. -/
abbrev Table (Key Entry : Type) := AList fun _ : Key => Entry

/-- All that the entries hold. -/
def Table.gather
    (table : Table Key Entry)
    (items : Entry → List Item) : List Item :=
  table.entries.flatMap fun entry => items entry.2

variable {table : Table Key Entry}
variable (items : Entry → List Item)
variable {key : Key}
variable {entry : Entry}

namespace Table

theorem entries_perm_of_lookup
    (isEntry : table.lookup key = some entry) :
    table.entries.Perm (⟨key, entry⟩ :: (table.erase key).entries) := by
  rw [← AList.entries_insert_of_notMem (fun isIn => (AList.mem_erase.mp isIn).1 rfl)]
  apply List.lookup_ext table.nodupKeys (AList.nodupKeys _)
  intro other value
  by_cases same : other = key
  · subst same
    have put :
        ((table.erase other).insert other entry).lookup other = some entry :=
      AList.lookup_insert _
    unfold AList.lookup at put isEntry
    rw [put, isEntry]
  · have kept :
        ((table.erase key).insert key entry).lookup other = table.lookup other :=
      (AList.lookup_insert_ne same).trans (AList.lookup_erase_ne same)
    unfold AList.lookup at kept
    rw [kept]

theorem gather_insert
    (table : Table Key Entry)
    (key : Key)
    (entry : Entry) :
    gather (table.insert key entry) items =
      items entry ++ gather (table.erase key) items := by
  unfold gather
  rw [AList.entries_insert]
  rfl

theorem gather_of_lookup
    (isEntry : table.lookup key = some entry) :
    (gather table items).Perm (items entry ++ gather (table.erase key) items) :=
  (entries_perm_of_lookup isEntry).flatMap_right _

theorem gather_erase_of_lookup_none
    (noEntry : table.lookup key = none) :
    gather (table.erase key) items = gather table items := by
  unfold gather AList.erase
  dsimp only
  rw [List.kerase_of_notMem_keys (AList.lookup_eq_none.mp noEntry)]

variable {items}

theorem mem_gather_of_lookup
    {item : Item}
    (isEntry : table.lookup key = some entry)
    (isItem : item ∈ items entry) :
    item ∈ gather table items :=
  (gather_of_lookup items isEntry).mem_iff.mpr (List.mem_append_left _ isItem)

end Table

end

end MeFuzz
