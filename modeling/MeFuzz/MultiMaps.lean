import MeFuzz.MapObservers

namespace MeFuzz.Feedbacks

/-!
# Several maps as one

An observer of several maps finds an entry through an interval tree of the places at
which its maps lie, and goes through the maps one after the other for the rest.  Both
ways it is an observer of the single map that they make one behind the other.
-/

/-- An interval of indexes with the number of its map. -/
structure Element where
  start : Nat
  stop : Nat
  value : Nat

/-- The interval contains the point. -/
def Element.Contains (element : Element) (point : Nat) : Prop :=
  element.start ≤ point ∧ point < element.stop

/-- A tree is asked for a point with what it was collected from, in any order. -/
structure IntervalTree where
  queryPoint : List Element → Nat → List Element
  exact :
    ∀ {elements point element},
      element ∈ queryPoint elements point ↔
        element ∈ elements ∧ element.Contains point

/-- The intervals that contain the point, in the order they were collected in. -/
instance : Inhabited IntervalTree where
  default :=
    { queryPoint elements point :=
        elements.filter fun element => element.start ≤ point ∧ point < element.stop
      exact := by simp [Element.Contains] }

variable {T : Type}

/-- What the constructor has counted and built so far. -/
structure Building where
  idx : Nat
  v : Nat
  builder : List Element

/-- The body of the loop of the constructor. -/
def Building.next (building : Building) (map : List T) : Building where
  idx := building.idx + map.length
  v := building.v + 1
  builder := building.builder ++ [⟨building.idx, building.idx + map.length, building.v⟩]

/-- What the interval tree of these maps is collected from. -/
def intervalsOf (maps : List (List T)) : List Element :=
  (maps.foldl Building.next ⟨0, 0, []⟩).builder

/-- `MultiMapObserver` with its interval tree. -/
structure IndexedMultiMapObserver (T : Type) extends MultiMapObserver T where
  intervals : List Element
  intervals_eq : intervals = intervalsOf maps

/-- `MultiMapObserver::new_maybe_differential` and `new_owned`. -/
def IndexedMultiMapObserver.newMaybeDifferential
    [Inhabited T]
    (maps : List (List T)) : IndexedMultiMapObserver T where
  toMultiMapObserver := .newMaybeDifferential maps
  intervals := intervalsOf maps
  intervals_eq := rfl

section

variable {maps other : List (List T)}

theorem foldl_next (maps : List (List T)) :
    (maps.foldl Building.next ⟨0, 0, []⟩).idx = maps.flatten.length ∧
      (maps.foldl Building.next ⟨0, 0, []⟩).v = maps.length := by
  induction maps using List.reverseRecOn with
  | nil =>
      exact ⟨rfl, rfl⟩
  | append_singleton front last ih =>
      obtain ⟨isIdx, isV⟩ := ih
      rw [List.foldl_concat, List.flatten_append, List.length_append, List.length_append]
      constructor
      · rw [Building.next, isIdx, List.flatten_singleton]
      · rw [Building.next, isV, List.length_singleton]

theorem mem_intervalsOf
    {element : Element} :
    element ∈ intervalsOf maps ↔
      ∃ before map after,
        maps = before ++ map :: after ∧
          element =
            ⟨before.flatten.length, before.flatten.length + map.length, before.length⟩ := by
  unfold intervalsOf
  induction maps using List.reverseRecOn with
  | nil =>
      simp
  | append_singleton front last ih =>
      obtain ⟨isIdx, isV⟩ := foldl_next front
      rw [List.foldl_concat, Building.next, isIdx, isV, List.mem_append,
        ih, List.mem_singleton]
      constructor
      · rintro (⟨before, map, after, rfl, isElement⟩ | isElement)
        · exact ⟨before, map, after ++ [last], by simp, isElement⟩
        · exact ⟨front, last, [], rfl, isElement⟩
      · rintro ⟨before, map, after, split, isElement⟩
        rcases List.eq_nil_or_concat' after with rfl | ⟨others, lastOne, rfl⟩
        · obtain ⟨rfl, same⟩ := List.append_inj' split rfl
          obtain rfl := (List.cons.inj same).1
          exact .inr isElement
        · have shape : front ++ [last] = (before ++ map :: others) ++ [lastOne] := by
            rw [split]
            simp
          obtain ⟨rfl, _⟩ := List.append_inj' shape rfl
          exact .inl ⟨before, map, others, rfl, isElement⟩

theorem intervalsOf_congr
    (sameLengths : maps.map List.length = other.map List.length) :
    intervalsOf maps = intervalsOf other := by
  have loop :
      ∀ (maps : List (List T)) (start : Building),
        maps.foldl Building.next start =
          (maps.map fun map => List.replicate map.length ()).foldl Building.next
            start := by
    intro maps
    induction maps with
    | nil =>
        exact fun _ => rfl
    | cons map rest ih =>
        intro start
        rw [List.foldl_cons, List.map_cons, List.foldl_cons, ih]
        unfold Building.next
        rw [List.length_replicate]
  have sameUnits :
      (maps.map fun map => List.replicate map.length ()) =
        other.map fun map => List.replicate map.length () := by
    have units :=
      congrArg (List.map fun length => List.replicate length ()) sameLengths
    rwa [List.map_map, List.map_map] at units
  unfold intervalsOf
  rw [loop maps, loop other, sameUnits]

end

section

variable [DecidableEq T]

/-- The loop of `count_bytes`. -/
def countSet (initial : T) (entries : List T) (res : Nat) : Nat :=
  entries.foldl (fun res x => if x ≠ initial then res + 1 else res) res

/-- The loop of `how_many_set`; `none` when an access panics. -/
def howManySet
    (get : Nat → Option T)
    (initial : T)
    (cnt : Nat)
    (indexes : List Nat) : Option Nat :=
  indexes.foldlM
    (fun res i =>
      if i < cnt then do
        let entry ← get i
        pure (if entry ≠ initial then res + 1 else res)
      else pure res)
    0

end

namespace StdMapObserver

variable (self : StdMapObserver T)

/-- `get`; `none` when it panics. -/
def get (pos : Nat) : Option T :=
  self.map[pos]?

/-- A write through `get_mut`. -/
def write (idx : Nat) (entry : T) : Option (StdMapObserver T) :=
  if idx < self.map.length then some { self with map := self.map.set idx entry } else none

/-- `usable_count`. -/
def usableCount : Nat :=
  self.map.length

/-- `to_vec`. -/
def toVec : List T :=
  self.map

/-- `as_iter`. -/
def asIter : List T :=
  self.map.take self.usableCount

/-- `count_bytes`. -/
def countBytes [DecidableEq T] : Nat :=
  countSet self.initial (self.map.take self.usableCount) 0

/-- `how_many_set`. -/
def howManySet [DecidableEq T] (indexes : List Nat) : Option Nat :=
  Feedbacks.howManySet self.get self.initial self.usableCount indexes

/-- `reset_map`. -/
def resetMap : StdMapObserver T :=
  let cnt := self.usableCount
  { self with map := (self.map.take cnt).map (fun _ => self.initial) ++ self.map.drop cnt }

end StdMapObserver

namespace IndexedMultiMapObserver

variable (self : IndexedMultiMapObserver T)

/-- The observer with other entries at the same places. -/
def withMaps
    (maps : List (List T))
    (sameLengths : maps.map List.length = self.maps.map List.length) :
    IndexedMultiMapObserver T where
  maps := maps
  len := self.len
  initial := self.initial
  len_eq := by
    rw [self.len_eq, List.length_flatten, List.length_flatten, sameLengths]
  intervals := self.intervals
  intervals_eq := by
    rw [self.intervals_eq, intervalsOf_congr sameLengths]

/-- `get`; `none` when it panics. -/
def get (tree : IntervalTree) (idx : Nat) : Option T := do
  let elem ← (tree.queryPoint self.intervals idx).head?
  let i := elem.value
  let j := idx - elem.start
  let map ← self.maps[i]?
  map[j]?

theorem lengths_modify
    (maps : List (List T))
    (i j : Nat)
    (entry : T) :
    (maps.modify i (List.set · j entry)).map List.length = maps.map List.length := by
  apply List.ext_getElem?
  intro place
  rw [List.getElem?_map, List.getElem?_map, List.getElem?_modify]
  cases maps[place]? with
  | none =>
      rfl
  | some map =>
      by_cases here : i = place
      · simp [here]
      · simp [here]

/-- A write through `get_mut`. -/
def write
    (tree : IntervalTree)
    (idx : Nat)
    (entry : T) : Option (IndexedMultiMapObserver T) := do
  let elem ← (tree.queryPoint self.intervals idx).head?
  let i := elem.value
  let j := idx - elem.start
  let map ← self.maps[i]?
  if j < map.length then
    some
      (self.withMaps (self.maps.modify i (List.set · j entry))
        (lengths_modify self.maps i j entry))
  else none

/-- `usable_count`. -/
def usableCount : Nat :=
  self.len

/-- `to_vec`; `none` when an access panics. -/
def toVec (tree : IntervalTree) : Option (List T) :=
  (List.range self.usableCount).foldlM
    (fun res i => do
      let entry ← self.get tree i
      pure (res ++ [entry]))
    []

/-- `as_iter`. -/
def asIter : List T :=
  self.maps.flatten

/-- `count_bytes`. -/
def countBytes [DecidableEq T] : Nat :=
  self.maps.foldl (fun res map => countSet self.initial map res) 0

/-- `how_many_set`. -/
def howManySet
    [DecidableEq T]
    (tree : IntervalTree)
    (indexes : List Nat) : Option Nat :=
  Feedbacks.howManySet (self.get tree) self.initial self.usableCount indexes

/-- `reset_map`. -/
def resetMap : IndexedMultiMapObserver T :=
  self.withMaps (self.maps.map fun map => map.map fun _ => self.initial)
    (by rw [List.map_map]; exact List.map_congr_left fun _ _ => List.length_map _)

/-- The observer of the single map that the maps make. -/
def concatenated : StdMapObserver T where
  map := self.maps.flatten
  initial := self.initial

section

variable {self : IndexedMultiMapObserver T} {tree : IntervalTree}

theorem head_some
    {idx : Nat}
    {elem : Element}
    (found : (tree.queryPoint self.intervals idx).head? = some elem) :
    ∃ before map after j,
      self.maps = before ++ map :: after ∧
        elem.value = before.length ∧
          self.maps[before.length]? = some map ∧
            elem.start = before.flatten.length ∧
              idx = before.flatten.length + j ∧ j < map.length := by
  have member := List.mem_of_head? found
  rw [tree.exact, self.intervals_eq, mem_intervalsOf] at member
  obtain ⟨⟨before, map, after, isMaps, rfl⟩, lower, upper⟩ := member
  have isMap : self.maps[before.length]? = some map := by
    rw [isMaps, List.getElem?_append_right le_rfl, Nat.sub_self]
    rfl
  exact ⟨before, map, after, idx - before.flatten.length, isMaps, rfl, isMap, rfl,
    (Nat.add_sub_cancel' lower).symm, Nat.sub_lt_left_of_lt_add lower upper⟩

theorem head_none
    {idx : Nat}
    (found : (tree.queryPoint self.intervals idx).head? = none) :
    self.maps.flatten.length ≤ idx := by
  have nothing : ∀ element ∈ intervalsOf self.maps, ¬ element.Contains idx := by
    intro element member inside
    have answered := tree.exact.mpr ⟨self.intervals_eq ▸ member, inside⟩
    rw [List.head?_eq_none_iff.mp found] at answered
    exact List.not_mem_nil answered
  suffices outside :
      ∀ before after, self.maps = before ++ after → before.flatten.length ≤ idx from
    outside self.maps [] (List.append_nil _).symm
  intro before
  induction before using List.reverseRecOn with
  | nil =>
      exact fun _ _ => Nat.zero_le _
  | append_singleton front map ih =>
      intro after isMaps
      have isSplit : self.maps = front ++ map :: after := by
        rw [isMaps, List.append_assoc, List.singleton_append]
      have lower := ih _ isSplit
      have notInside :=
        nothing _ (mem_intervalsOf.mpr ⟨front, map, after, isSplit, rfl⟩)
      rw [List.flatten_concat, List.length_append]
      exact not_lt.mp fun upper => notInside ⟨lower, upper⟩

variable (self tree)

theorem get_eq (idx : Nat) :
    self.get tree idx = self.maps.flatten[idx]? := by
  unfold get
  cases found : (tree.queryPoint self.intervals idx).head? with
  | none =>
      exact (List.getElem?_eq_none (head_none found)).symm
  | some elem =>
      obtain ⟨before, map, after, j, isMaps, isValue, isMap, isStart, rfl, inside⟩ :=
        head_some found
      simp only [Option.bind_eq_bind, Option.bind_some, isValue, isStart, isMap,
        Nat.add_sub_cancel_left]
      rw [isMaps, List.flatten_append, List.flatten_cons,
        List.getElem?_append_right (Nat.le_add_right _ _), Nat.add_sub_cancel_left,
        List.getElem?_append_left inside]

theorem write_eq
    (idx : Nat)
    (entry : T) :
    (self.write tree idx entry).map concatenated = self.concatenated.write idx entry := by
  unfold write StdMapObserver.write
  cases found : (tree.queryPoint self.intervals idx).head? with
  | none =>
      exact (if_neg (not_lt.mpr (head_none found))).symm
  | some elem =>
      obtain ⟨before, map, after, j, isMaps, isValue, isMap, isStart, rfl, inside⟩ :=
        head_some found
      have isFlat :
          self.maps.flatten = before.flatten ++ (map ++ after.flatten) := by
        rw [isMaps, List.flatten_append, List.flatten_cons]
      have written :
          (self.maps.modify before.length (List.set · j entry)).flatten =
            self.maps.flatten.set (before.flatten.length + j) entry := by
        rw [isFlat, List.set_append_right _ _ (Nat.le_add_right _ _),
          Nat.add_sub_cancel_left, List.set_append_left _ _ inside, isMaps,
          List.modify_eq_take_cons_drop (by simp)]
        simp
      have isIndex :
          before.flatten.length + j < self.concatenated.map.length := by
        rw [concatenated, isFlat, List.length_append, List.length_append]
        omega
      rw [if_pos isIndex]
      simp only [Option.bind_eq_bind, Option.bind_some, isValue, isStart, isMap,
        Nat.add_sub_cancel_left, if_pos inside, Option.map_some]
      rw [concatenated, withMaps, written]
      rfl

theorem usableCount_eq :
    self.usableCount = self.concatenated.usableCount :=
  self.len_eq

/-- The loop of `to_vec`, from where it is. -/
theorem foldlM_get
    (entries : List T) :
    ∀ (cnt : Nat),
      cnt ≤ entries.length →
        (List.range cnt).foldlM
            (fun res i => do
              let entry ← entries[i]?
              pure (res ++ [entry]))
            [] =
          some (entries.take cnt)
  | 0, _ =>
      rfl
  | cnt + 1, bound => by
      rw [List.range_succ, List.foldlM_append, foldlM_get entries cnt (Nat.le_of_succ_le bound)]
      rw [Option.bind_eq_bind, Option.bind_some, List.foldlM_cons,
        List.getElem?_eq_getElem bound, List.take_succ_eq_append_getElem bound]
      rfl

theorem toVec_eq :
    self.toVec tree = some self.concatenated.toVec := by
  unfold toVec
  simp only [self.get_eq tree]
  rw [usableCount, self.len_eq, foldlM_get _ _ le_rfl, List.take_length]
  rfl

theorem asIter_eq :
    self.asIter = self.concatenated.asIter :=
  (List.take_length).symm

theorem countBytes_eq [DecidableEq T] :
    self.countBytes = self.concatenated.countBytes := by
  unfold countBytes StdMapObserver.countBytes
  rw [StdMapObserver.usableCount, List.take_length]
  exact (List.foldl_flatten).symm

theorem howManySet_eq
    [DecidableEq T]
    (indexes : List Nat) :
    self.howManySet tree indexes = self.concatenated.howManySet indexes := by
  unfold howManySet StdMapObserver.howManySet
  rw [usableCount_eq, funext (self.get_eq tree)]
  rfl

theorem resetMap_eq :
    self.resetMap.concatenated = self.concatenated.resetMap := by
  unfold StdMapObserver.resetMap
  dsimp only [StdMapObserver.usableCount]
  rw [List.take_length, List.drop_length, List.append_nil]
  exact congrArg (StdMapObserver.mk · self.initial) List.map_flatten.symm

/-- Every operation is the one on the single map that the maps make. -/
structure IsConcatenation [DecidableEq T] : Prop where
  defined : ∀ {idx}, (self.get tree idx).isSome ↔ idx < self.maps.flatten.length
  get : ∀ idx, self.get tree idx = self.concatenated.get idx
  written : ∀ {idx entry}, (self.write tree idx entry).isSome ↔ idx < self.maps.flatten.length
  write :
    ∀ idx entry,
      (self.write tree idx entry).map concatenated = self.concatenated.write idx entry
  usableCount : self.usableCount = self.concatenated.usableCount
  toVec : self.toVec tree = some self.concatenated.toVec
  asIter : self.asIter = self.concatenated.asIter
  countBytes : self.countBytes = self.concatenated.countBytes
  howManySet :
    ∀ indexes, self.howManySet tree indexes = self.concatenated.howManySet indexes
  resetMap : self.resetMap.concatenated = self.concatenated.resetMap

/-- Whatever its maps and its tree, an observer of several maps is one of a single map. -/
theorem isConcatenation [DecidableEq T] : self.IsConcatenation tree where
  defined := by
    intro idx
    rw [get_eq, isSome_getElem?]
  get := self.get_eq tree
  written := by
    intro idx entry
    have asOne := congrArg Option.isSome (self.write_eq tree idx entry)
    rw [Option.isSome_map] at asOne
    rw [asOne, StdMapObserver.write]
    split
    · next inside =>
        exact iff_of_true rfl inside
    · next outside =>
        exact iff_of_false Bool.false_ne_true outside
  write := self.write_eq tree
  usableCount := self.usableCount_eq
  toVec := self.toVec_eq tree
  asIter := self.asIter_eq
  countBytes := self.countBytes_eq
  howManySet := self.howManySet_eq tree
  resetMap := self.resetMap_eq

example :
    (newMaybeDifferential [[], [7], [], [8, 9], []]).get default 2 = some 9 := by
  decide

end

end IndexedMultiMapObserver

end MeFuzz.Feedbacks
