import Mathlib.Algebra.Order.Group.Int
import Mathlib.Data.List.Sort
import MeFuzz.OrderedMap

namespace MeFuzz

/-!
# Orders that a language leaves open

A walk over a map meets every entry once, in an order that may differ from walk to
walk.  A sort by a comparison puts no element before a smaller one, and leaves open
how it orders those that compare as equal.
-/

/-- An order in which a walk meets the entries of a map. -/
structure WalkOrder where
  arrange : {Item : Type} → List Item → List Item
  perm : ∀ {Item : Type} (items : List Item), (arrange items).Perm items

namespace WalkOrder

/-- The order in which the entries are kept. -/
def inOrder : WalkOrder where
  arrange items := items
  perm _ := .refl _

/-- The other way round. -/
def backwards : WalkOrder where
  arrange items := items.reverse
  perm := List.reverse_perm

variable {Key Value : Type}
variable [LinearOrder Key]
variable {order : WalkOrder}
variable {map : OrderedMap Key Value}

/-- The entries of a map as a walk meets them. -/
def walk (order : WalkOrder) (map : OrderedMap Key Value) : List (Key × Value) :=
  order.arrange map.entries

theorem walk_perm : (order.walk map).Perm map.entries :=
  order.perm _

theorem mem_walk
    {key : Key}
    {value : Value} :
    (key, value) ∈ order.walk map ↔ map.get key = some value :=
  walk_perm.mem_iff.trans OrderedMap.mem_entries

theorem nodup_walk : ((order.walk map).map Prod.fst).Nodup :=
  (walk_perm.map Prod.fst).nodup_iff.mpr map.nodup_keys

theorem get_insertAll_walk
    {Result : Type}
    {change : Value → Result}
    {key : Key} :
    (OrderedMap.empty.insertAll
        ((order.walk map).map fun entry => (entry.1, change entry.2))).get key =
      (map.get key).map change := by
  have sameKeys :
      ((order.walk map).map fun entry => (entry.1, change entry.2)).map Prod.fst =
        (order.walk map).map Prod.fst := by
    rw [List.map_map]
    rfl
  cases isValue : map.get key with
  | none =>
      apply OrderedMap.get_insertAll_of_notMem
      rw [sameKeys, (walk_perm.map Prod.fst).mem_iff]
      exact OrderedMap.get_eq_none.mp isValue
  | some value =>
      apply OrderedMap.get_insertAll_of_mem
      · rw [sameKeys]
        exact nodup_walk
      · exact List.mem_map.mpr ⟨(key, value), mem_walk.mpr isValue, rfl⟩

end WalkOrder

/-- An element compares as less than another if its key is less. -/
def ComparesBy
    {Item Key : Type}
    [LT Key]
    (key : Item → Key)
    (cmp : Item → Item → Int)
    (items : List Item) : Prop :=
  ∀ first ∈ items, ∀ second ∈ items, cmp first second < 0 ↔ key first < key second

/-- A sort that is not promised to be stable. -/
structure SliceSort where
  sortFunc : {Item : Type} → (Item → Item → Int) → List Item → List Item
  perm :
    ∀ {Item : Type} (cmp : Item → Item → Int) (items : List Item),
      (sortFunc cmp items).Perm items
  sorted :
    ∀ {Item Key : Type} [LinearOrder Key] {key : Item → Key}
      {cmp : Item → Item → Int} {items : List Item},
      ComparesBy key cmp items →
        (sortFunc cmp items).Pairwise fun first second => key first ≤ key second

namespace SliceSort

variable {Item Key : Type}
variable [LinearOrder Key]
variable {key : Item → Key}
variable {cmp : Item → Item → Int}
variable {items : List Item}

/-- Swap an element down behind those that are not greater. -/
def insertCmp (cmp : Item → Item → Int) (item : Item) : List Item → List Item
  | [] => [item]
  | first :: rest =>
      if cmp first item < 0 then first :: insertCmp cmp item rest
      else item :: first :: rest

/-- The sort of short slices. -/
def insertionSortCmp (cmp : Item → Item → Int) (items : List Item) : List Item :=
  items.foldr (insertCmp cmp) []

theorem insertCmp_perm
    (cmp : Item → Item → Int)
    (item : Item)
    (items : List Item) :
    (insertCmp cmp item items).Perm (item :: items) := by
  induction items with
  | nil =>
      exact .refl _
  | cons first rest ih =>
      unfold insertCmp
      split
      · exact (ih.cons first).trans (.swap item first rest)
      · exact .refl _

theorem insertionSortCmp_perm
    (cmp : Item → Item → Int)
    (items : List Item) :
    (insertionSortCmp cmp items).Perm items := by
  induction items with
  | nil =>
      exact .refl _
  | cons first rest ih =>
      exact (insertCmp_perm cmp first _).trans (ih.cons first)

theorem sorted_insertCmp
    {item : Item}
    (compares : ComparesBy key cmp (item :: items))
    (sorted : items.Pairwise fun first second => key first ≤ key second) :
    (insertCmp cmp item items).Pairwise fun first second =>
      key first ≤ key second := by
  induction items with
  | nil =>
      exact List.pairwise_singleton _ _
  | cons first rest ih =>
      obtain ⟨below, sortedRest⟩ := List.pairwise_cons.mp sorted
      have isLess :=
        compares first (.tail _ List.mem_cons_self) item List.mem_cons_self
      unfold insertCmp
      split
      · rename_i less
        have comparesRest : ComparesBy key cmp (item :: rest) := by
          have sublist : (item :: rest).Sublist (item :: first :: rest) :=
            (List.sublist_cons_self first rest).cons_cons item
          exact fun one isOne other isOther =>
            compares one (sublist.subset isOne) other (sublist.subset isOther)
        refine List.pairwise_cons.mpr ⟨?_, ih comparesRest sortedRest⟩
        intro other isOther
        cases (insertCmp_perm cmp item rest).mem_iff.mp isOther with
        | head =>
            exact (isLess.mp less).le
        | tail _ later =>
            exact below other later
      · rename_i notLess
        have isBelow : key item ≤ key first := not_lt.mp (mt isLess.mpr notLess)
        refine List.pairwise_cons.mpr ⟨?_, sorted⟩
        intro other isOther
        cases isOther with
        | head =>
            exact isBelow
        | tail _ later =>
            exact isBelow.trans (below other later)

theorem sorted_insertionSortCmp
    (compares : ComparesBy key cmp items) :
    (insertionSortCmp cmp items).Pairwise fun first second =>
      key first ≤ key second := by
  induction items with
  | nil =>
      exact .nil
  | cons first rest ih =>
      have comparesRest : ComparesBy key cmp rest :=
        fun one isOne other isOther =>
          compares one (.tail _ isOne) other (.tail _ isOther)
      have samePlaces :=
        (insertionSortCmp_perm cmp rest).cons first
      apply sorted_insertCmp _ (ih comparesRest)
      exact fun one isOne other isOther =>
        compares one (samePlaces.mem_iff.mp isOne) other
          (samePlaces.mem_iff.mp isOther)

/-- The sort of short slices as a sort. -/
def insertionSort : SliceSort where
  sortFunc := insertionSortCmp
  perm := insertionSortCmp_perm
  sorted := sorted_insertionSortCmp

end SliceSort

end MeFuzz
