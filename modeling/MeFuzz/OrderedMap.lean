import Mathlib.Data.List.Nodup
import Mathlib.Order.Lattice

namespace MeFuzz

/-!
# Ordered maps

A finite map that lists its entries in the order of their keys.  The order is
part of the type, so that two maps with the same entries are equal and a walk
over the entries never meets a key twice.
-/

/-- A finite map with its entries in strict key order. -/
structure OrderedMap (Key Value : Type*) [LinearOrder Key] where
  entries : List (Key × Value)
  sorted : entries.Pairwise fun first second => first.1 < second.1

namespace OrderedMap

variable {Key Value : Type*}
variable [LinearOrder Key]

/-- Entries with one put in its place, or put over the one with its key. -/
def insertEntry
    (key : Key)
    (value : Value) :
    List (Key × Value) → List (Key × Value)
  | [] => [(key, value)]
  | entry :: rest =>
      if key < entry.1 then (key, value) :: entry :: rest
      else if key = entry.1 then (key, value) :: rest
      else entry :: insertEntry key value rest

variable {entries : List (Key × Value)}

theorem mem_insertEntry
    {key : Key}
    {value : Value}
    {entry : Key × Value}
    (isEntry : entry ∈ insertEntry key value entries) :
    entry = (key, value) ∨ entry ∈ entries := by
  induction entries with
  | nil =>
      simpa [insertEntry] using isEntry
  | cons first rest ih =>
      unfold insertEntry at isEntry
      split at isEntry
      · simpa using isEntry
      · split at isEntry
        · cases isEntry with
          | head =>
              exact .inl rfl
          | tail _ later =>
              exact .inr (.tail _ later)
        · cases isEntry with
          | head =>
              exact .inr List.mem_cons_self
          | tail _ later =>
              exact (ih later).imp_right (.tail _)

theorem sorted_insertEntry
    (key : Key)
    (value : Value)
    (sorted :
      entries.Pairwise fun first second => first.1 < second.1) :
    (insertEntry key value entries).Pairwise
      fun first second => first.1 < second.1 := by
  induction entries with
  | nil =>
      exact List.pairwise_singleton _ _
  | cons first rest ih =>
      obtain ⟨below, sortedRest⟩ := List.pairwise_cons.mp sorted
      unfold insertEntry
      split
      · rename_i isBefore
        refine List.pairwise_cons.mpr ⟨?_, sorted⟩
        intro other later
        cases later with
        | head =>
            exact isBefore
        | tail _ later =>
            exact isBefore.trans (below other later)
      · rename_i notBefore
        split
        · rename_i same
          exact List.pairwise_cons.mpr
            ⟨fun other later => same ▸ below other later, sortedRest⟩
        · rename_i different
          refine List.pairwise_cons.mpr
            ⟨?_, ih sortedRest⟩
          intro other later
          cases mem_insertEntry later with
          | inl isNew =>
              subst isNew
              exact lt_of_le_of_ne (not_lt.mp notBefore) (Ne.symm different)
          | inr later =>
              exact below other later

/-- The map without entries. -/
def empty : OrderedMap Key Value :=
  ⟨[], .nil⟩

/-- The keys, in order. -/
def keys (map : OrderedMap Key Value) : List Key :=
  map.entries.map Prod.fst

/-- The value of a key. -/
def get (map : OrderedMap Key Value) (key : Key) : Option Value :=
  map.entries.lookup key

/-- Give a key a value. -/
def insert
    (map : OrderedMap Key Value)
    (key : Key)
    (value : Value) : OrderedMap Key Value :=
  ⟨insertEntry key value map.entries, sorted_insertEntry key value map.sorted⟩

/-- Take a key out. -/
def erase (map : OrderedMap Key Value) (key : Key) : OrderedMap Key Value :=
  ⟨map.entries.filter fun entry => entry.1 ≠ key, map.sorted.filter _⟩

/-- Change the value of a key, if it has one. -/
def modify
    (map : OrderedMap Key Value)
    (key : Key)
    (change : Value → Value) : OrderedMap Key Value where
  entries :=
    map.entries.map fun entry =>
      if entry.1 = key then (entry.1, change entry.2) else entry
  sorted := by
    rw [List.pairwise_map]
    refine map.sorted.imp ?_
    intro first second below
    split <;> split <;> exact below

variable {map other : OrderedMap Key Value}
variable {key different : Key}
variable {value : Value}

theorem ext (same : map.entries = other.entries) : map = other := by
  cases map
  cases other
  cases same
  rfl

theorem sorted_keys (map : OrderedMap Key Value) :
    map.keys.Pairwise (· < ·) :=
  List.pairwise_map.mpr map.sorted

theorem nodup_keys (map : OrderedMap Key Value) : map.keys.Nodup :=
  map.sorted_keys.imp ne_of_lt

@[simp] theorem keys_empty : (empty : OrderedMap Key Value).keys = [] :=
  rfl

@[simp] theorem get_empty : (empty : OrderedMap Key Value).get key = none :=
  rfl

theorem lookup_first
    {first : Key × Value}
    {rest : List (Key × Value)} :
    List.lookup key (first :: rest) =
      if key = first.1 then some first.2 else List.lookup key rest := by
  rw [← Prod.eta first, List.lookup_cons]
  by_cases same : key = first.1
  · rw [if_pos same, beq_iff_eq.mpr same]
  · rw [if_neg same, beq_eq_false_iff_ne.mpr same]

theorem mem_keys : key ∈ map.keys ↔ ∃ value, map.get key = some value := by
  unfold keys get
  induction map.entries with
  | nil =>
      simp
  | cons first rest ih =>
      by_cases same : key = first.1
      · simp [lookup_first, same]
      · simp [lookup_first, same, ← ih]

theorem get_eq_none : map.get key = none ↔ key ∉ map.keys := by
  rw [mem_keys]
  cases map.get key <;> simp

@[simp] theorem get_insert_self : (map.insert key value).get key = some value := by
  unfold get insert
  dsimp only
  induction map.entries with
  | nil =>
      simp [insertEntry]
  | cons first rest ih =>
      unfold insertEntry
      split
      · simp
      · split
        · simp
        · rename_i different
          simpa [lookup_first, different] using ih

theorem get_insert_of_ne
    (apart : different ≠ key) :
    (map.insert key value).get different = map.get different := by
  unfold get insert
  dsimp only
  induction map.entries with
  | nil =>
      simp [insertEntry, lookup_first, apart]
  | cons first rest ih =>
      unfold insertEntry
      split
      · simp [lookup_first, apart]
      · split
        · rename_i same
          simp [lookup_first, apart, ← same]
        · simp only [lookup_first, ih]

theorem get_insert :
    (map.insert key value).get different =
      if different = key then some value else map.get different := by
  split
  · rename_i same
    rw [same, get_insert_self]
  · rename_i apart
    exact get_insert_of_ne apart

theorem entries_insert_of_above
    (above : ∀ other ∈ map.keys, other < key) :
    (map.insert key value).entries = map.entries ++ [(key, value)] := by
  obtain ⟨entries, sorted⟩ := map
  unfold insert
  unfold keys at above
  dsimp only at above ⊢
  induction entries with
  | nil =>
      rfl
  | cons first rest ih =>
      have isBelow : first.1 < key := above first.1 List.mem_cons_self
      have restAbove : ∀ other ∈ rest.map Prod.fst, other < key :=
        fun other later => above other (List.mem_cons_of_mem _ later)
      have sortedRest := (List.pairwise_cons.mp sorted).2
      unfold insertEntry
      rw [if_neg isBelow.not_gt, if_neg isBelow.ne',
        ih sortedRest restAbove]
      rfl

theorem keys_insert_of_above
    (above : ∀ other ∈ map.keys, other < key) :
    (map.insert key value).keys = map.keys ++ [key] := by
  rw [keys, entries_insert_of_above above, List.map_append]
  rfl

theorem keys_erase :
    (map.erase key).keys = map.keys.filter fun other => other ≠ key := by
  unfold keys erase
  rw [List.filter_map]
  rfl

@[simp] theorem get_erase_self : (map.erase key).get key = none := by
  rw [get_eq_none, keys_erase]
  simp

theorem get_erase_of_ne
    (apart : different ≠ key) :
    (map.erase key).get different = map.get different := by
  unfold get erase
  dsimp only
  induction map.entries with
  | nil =>
      rfl
  | cons first rest ih =>
      by_cases isErased : first.1 = key
      · have notFirst : different ≠ first.1 := isErased ▸ apart
        rw [List.filter_cons_of_neg (by simpa using isErased)]
        rw [ih, lookup_first, if_neg notFirst]
      · rw [List.filter_cons_of_pos (by simpa using isErased)]
        simp only [lookup_first, ih]

theorem get_erase :
    (map.erase key).get different =
      if different = key then none else map.get different := by
  split
  · rename_i same
    rw [same, get_erase_self]
  · rename_i apart
    exact get_erase_of_ne apart

variable {change : Value → Value}

@[simp] theorem keys_modify : (map.modify key change).keys = map.keys := by
  unfold keys modify
  rw [List.map_map]
  refine List.map_congr_left ?_
  intro entry _
  simp only [Function.comp_apply]
  split <;> rfl

theorem get_modify :
    (map.modify key change).get different =
      if different = key then (map.get different).map change
      else map.get different := by
  unfold get modify
  dsimp only
  induction map.entries with
  | nil =>
      simp
  | cons first rest ih =>
      rw [List.map_cons]
      by_cases isFirst : different = first.1
      · subst isFirst
        split <;> simp_all [lookup_first]
      · have fstKept :
            (if first.1 = key then (first.1, change first.2) else first).1 =
              first.1 := by
          split <;> rfl
        rw [lookup_first, fstKept, if_neg isFirst, ih, lookup_first,
          if_neg isFirst]

theorem mem_entries : (key, value) ∈ map.entries ↔ map.get key = some value := by
  obtain ⟨entries, sorted⟩ := map
  unfold get
  dsimp only
  induction entries with
  | nil =>
      simp
  | cons first rest ih =>
      obtain ⟨below, sortedRest⟩ := List.pairwise_cons.mp sorted
      rw [List.mem_cons, ih sortedRest]
      by_cases isFirst : key = first.1
      · subst isFirst
        have notLater : rest.lookup first.1 ≠ some value := by
          intro isLater
          have isEntry := (ih sortedRest).mpr isLater
          exact (below _ isEntry).ne rfl
        simp [lookup_first, notLater, Prod.ext_iff, eq_comm]
      · simp [lookup_first, Prod.ext_iff, isFirst]

theorem ext_get (same : ∀ key, map.get key = other.get key) : map = other := by
  apply ext
  have nodup : ∀ map : OrderedMap Key Value, map.entries.Nodup :=
    fun map => map.sorted.imp fun below same => below.ne (congrArg Prod.fst same)
  refine
    ((List.perm_ext_iff_of_nodup (nodup map) (nodup other)).mpr ?_).eq_of_pairwise
      ?_ map.sorted other.sorted
  · rintro ⟨key, value⟩
    rw [mem_entries, mem_entries, same]
  · intro first second _ _ below above
    exact absurd (below.trans above) (lt_irrefl _)

/-- Give each key of a list its value, one after the other. -/
def insertAll
    (map : OrderedMap Key Value)
    (entries : List (Key × Value)) : OrderedMap Key Value :=
  entries.foldl (fun map entry => map.insert entry.1 entry.2) map

theorem get_insertAll_of_notMem
    (apart : key ∉ entries.map Prod.fst) :
    (map.insertAll entries).get key = map.get key := by
  induction entries generalizing map with
  | nil =>
      rfl
  | cons first rest ih =>
      rw [List.map_cons, List.mem_cons, not_or] at apart
      exact (ih apart.2).trans (get_insert_of_ne apart.1)

theorem get_insertAll_of_mem
    (distinct : (entries.map Prod.fst).Nodup)
    (isEntry : (key, value) ∈ entries) :
    (map.insertAll entries).get key = some value := by
  induction entries generalizing map with
  | nil =>
      cases isEntry
  | cons first rest ih =>
      obtain ⟨apart, distinctRest⟩ := List.nodup_cons.mp distinct
      cases isEntry with
      | head =>
          exact (get_insertAll_of_notMem apart).trans get_insert_self
      | tail _ later =>
          exact ih distinctRest later

theorem get_insertAll
    (isValue : (map.insertAll entries).get key = some value) :
    (key, value) ∈ entries ∨ map.get key = some value := by
  induction entries generalizing map with
  | nil =>
      exact .inr isValue
  | cons first rest ih =>
      cases ih isValue with
      | inl later =>
          exact .inl (.tail _ later)
      | inr before =>
          rw [get_insert] at before
          split at before
          · rename_i isFirst
            obtain rfl := Option.some.inj before
            rw [isFirst]
            exact .inl List.mem_cons_self
          · exact .inr before

theorem get_insertAll_of_mem_keys
    (isKey : key ∈ entries.map Prod.fst)
    (isValue : (map.insertAll entries).get key = some value) :
    (key, value) ∈ entries := by
  induction entries generalizing map with
  | nil =>
      cases isKey
  | cons first rest ih =>
      by_cases later : key ∈ rest.map Prod.fst
      · exact .tail _ (ih later isValue)
      · rcases List.mem_cons.mp isKey with rfl | isRest
        · have isFirst := (get_insertAll_of_notMem later).symm.trans isValue
          rw [get_insert_self] at isFirst
          obtain rfl := Option.some.inj isFirst
          exact List.mem_cons_self
        · exact absurd isRest later

theorem mem_keys_insert :
    different ∈ (map.insert key value).keys ↔
      different = key ∨ different ∈ map.keys := by
  rw [mem_keys, mem_keys]
  simp only [get_insert]
  split
  · rename_i same
    simp [same]
  · rename_i apart
    simp [apart]

theorem mem_keys_insertAll
    {entries : List (Key × Value)} :
    key ∈ (map.insertAll entries).keys ↔
      key ∈ map.keys ∨ key ∈ entries.map Prod.fst := by
  induction entries generalizing map with
  | nil =>
      exact (or_iff_left List.not_mem_nil).symm
  | cons first rest ih =>
      rw [List.map_cons, List.mem_cons, or_left_comm, ← or_assoc,
        ← mem_keys_insert]
      exact ih

/-- Give a key a value, if there is one to give. -/
def insertOption
    (map : OrderedMap Key Value) : Option (Key × Value) → OrderedMap Key Value
  | none => map
  | some entry => map.insert entry.1 entry.2

theorem foldl_insertOption
    {Item : Type*}
    {entryOf : Item → Option (Key × Value)}
    (items : List Item) :
    items.foldl (fun map item => map.insertOption (entryOf item)) map =
      map.insertAll (items.filterMap entryOf) := by
  induction items generalizing map with
  | nil =>
      rfl
  | cons item rest ih =>
      rw [List.foldl_cons, ih, List.filterMap_cons]
      cases entryOf item <;> rfl

theorem insertAll_append (first second : List (Key × Value)) :
    map.insertAll (first ++ second) = (map.insertAll first).insertAll second :=
  List.foldl_append

theorem get_insertAll_const
    (keys : List Key)
    (value : Value) :
    (map.insertAll (keys.map fun key => (key, value))).get key =
      if key ∈ keys then some value else map.get key := by
  induction keys generalizing map with
  | nil =>
      rfl
  | cons first rest ih =>
      refine ih.trans ?_
      rw [get_insert]
      by_cases isRest : key ∈ rest
      · rw [if_pos isRest, if_pos (List.mem_cons_of_mem _ isRest)]
      · simp only [isRest, if_false, List.mem_cons, or_false]

/-- Take the keys of a list out. -/
def eraseAll (map : OrderedMap Key Value) (keys : List Key) : OrderedMap Key Value :=
  keys.foldl erase map

theorem get_eraseAll (keys : List Key) :
    (map.eraseAll keys).get key = if key ∈ keys then none else map.get key := by
  induction keys generalizing map with
  | nil =>
      rfl
  | cons first rest ih =>
      refine ih.trans ?_
      rw [get_erase]
      by_cases isRest : key ∈ rest
      · rw [if_pos isRest, if_pos (List.mem_cons_of_mem _ isRest)]
      · simp only [isRest, if_false, List.mem_cons, or_false]

variable {before after : List Key}

theorem filter_ne_of_split
    (nodup : (before ++ key :: after).Nodup) :
    (before ++ key :: after).filter (fun other => other ≠ key) =
      before ++ after := by
  rw [List.nodup_middle, List.nodup_cons] at nodup
  obtain ⟨absent, _⟩ := nodup
  simp only [List.mem_append, not_or] at absent
  have kept :
      ∀ part : List Key, key ∉ part →
        part.filter (fun other => other ≠ key) = part := by
    intro part notIn
    rw [List.filter_eq_self]
    intro other isIn
    have apart : other ≠ key := fun same => notIn (same ▸ isIn)
    simpa using apart
  rw [List.filter_append, kept before absent.1,
    List.filter_cons_of_neg (by simp), kept after absent.2]

theorem filter_from
    (split : map.keys = before ++ key :: after) :
    map.keys.filter (fun other => key ≤ other) = key :: after := by
  have sorted := map.sorted_keys
  rw [split, List.pairwise_append] at sorted
  obtain ⟨_, sortedAfter, below⟩ := sorted
  have none : before.filter (fun other => key ≤ other) = [] := by
    rw [List.filter_eq_nil_iff]
    intro other early
    simpa using below other early key List.mem_cons_self
  have all : after.filter (fun other => key ≤ other) = after := by
    rw [List.filter_eq_self]
    intro other later
    simpa using ((List.pairwise_cons.mp sortedAfter).1 other later).le
  rw [split, List.filter_append, none, List.nil_append,
    List.filter_cons_of_pos (by simp), all]

theorem filter_upto
    (split : map.keys = before ++ key :: after) :
    map.keys.filter (fun other => other ≤ key) = before ++ [key] := by
  have sorted := map.sorted_keys
  rw [split, List.pairwise_append] at sorted
  obtain ⟨_, sortedAfter, below⟩ := sorted
  have none : after.filter (fun other => other ≤ key) = [] := by
    rw [List.filter_eq_nil_iff]
    intro other later
    simpa using (List.pairwise_cons.mp sortedAfter).1 other later
  have all : before.filter (fun other => other ≤ key) = before := by
    rw [List.filter_eq_self]
    intro other early
    simpa using (below other early key List.mem_cons_self).le
  rw [split, List.filter_append, all, List.filter_cons_of_pos (by simp), none]

theorem keys_erase_of_split
    (split : map.keys = before ++ key :: after) :
    (map.erase key).keys = before ++ after := by
  rw [keys_erase, split]
  exact filter_ne_of_split (split ▸ map.nodup_keys)

end OrderedMap

end MeFuzz
