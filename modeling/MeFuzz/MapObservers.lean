import MeFuzz.MapFeedback

namespace MeFuzz.Feedbacks

/-!
# Map observers

The target writes to the map of an observer, and to the size of one whose size
varies.  An observer says how long its map is, how many of the entries are used
and what the entries are; each kind takes these from somewhere else.
-/

/-- `StdMapObserver`. -/
structure StdMapObserver (T : Type) where
  map : List T
  initial : T

/-- `ConstMapObserver`.  The constructors assert that the map is long enough. -/
structure ConstMapObserver (T : Type) (N : Nat) where
  map : List T
  initial : T
  fits : N ≤ map.length

/-- `VariableMapObserver`.  The size is one that the map has room for. -/
structure VariableMapObserver (T : Type) where
  map : List T
  size : Nat
  initial : T
  fits : size ≤ map.length

/-- `MultiMapObserver`. -/
structure MultiMapObserver (T : Type) where
  maps : List (List T)
  len : Nat
  initial : T
  len_eq : len = maps.flatten.length

/-- `OwnedMapObserver`. -/
structure OwnedMapObserver (T : Type) where
  map : List T
  initial : T

section

variable {T : Type}

theorem foldl_length
    (maps : List (List T))
    (idx : Nat) :
    maps.foldl (fun idx map => idx + map.length) idx =
      idx + maps.flatten.length := by
  induction maps generalizing idx with
  | nil =>
      rfl
  | cons map rest ih =>
      rw [List.foldl_cons, ih, List.flatten_cons,
        List.length_append, Nat.add_assoc]

section

variable [Inhabited T]

/-- `StdMapObserver::new_owned`, as all its constructors. -/
def StdMapObserver.newOwned (map : List T) : StdMapObserver T :=
  ⟨map, default⟩

/-- `ConstMapObserver::new`. -/
def ConstMapObserver.new
    {N : Nat}
    (map : List T) : Option (ConstMapObserver T N) :=
  if fits : N ≤ map.length then some ⟨map, default, fits⟩ else none

/-- `ConstMapObserver::new_owned`. -/
def ConstMapObserver.newOwned
    {N : Nat}
    (map : List T) : Option (ConstMapObserver T N) :=
  if fits : N ≤ map.length then some ⟨map, map.headD default, fits⟩ else none

/-- `ConstMapObserver::from_mut_ptr`. -/
def ConstMapObserver.fromMutPtr
    (map : List T) : ConstMapObserver T map.length :=
  ⟨map, default, Nat.le_refl _⟩

/-- `VariableMapObserver::from_mut_slice`. -/
def VariableMapObserver.fromMutSlice
    (map : List T)
    (size : Nat)
    (fits : size ≤ map.length) : VariableMapObserver T :=
  ⟨map, size, default, fits⟩

/-- `MultiMapObserver::new_maybe_differential`, as all its constructors. -/
def MultiMapObserver.newMaybeDifferential
    (maps : List (List T)) : MultiMapObserver T where
  maps := maps
  len := maps.foldl (fun idx map => idx + map.length) 0
  initial := default
  len_eq := (foldl_length maps 0).trans (Nat.zero_add _)

/-- `OwnedMapObserver::new`. -/
def OwnedMapObserver.new (map : List T) : OwnedMapObserver T :=
  ⟨map, map.headD default⟩

end

/-- The length is that of the map. -/
def StdMapObserver.toMapObserver (self : StdMapObserver T) : MapObserver T where
  asSlice := self.map
  usableCount := self.map.length
  len := self.map.length
  initial := self.initial

/-- The length is the constant, all entries of the map are used. -/
def ConstMapObserver.toMapObserver
    {N : Nat}
    (self : ConstMapObserver T N) : MapObserver T where
  asSlice := self.map
  usableCount := self.map.length
  len := N
  initial := self.initial

/-- Length and used entries are the size, as is the length of the slice. -/
def VariableMapObserver.toMapObserver
    (self : VariableMapObserver T) : MapObserver T where
  asSlice := self.map.take self.size
  usableCount := self.size
  len := self.size
  initial := self.initial

/-- There is no slice.  The iterator goes through one map after the other. -/
def MultiMapObserver.toMapObserver (self : MultiMapObserver T) : MapObserver T where
  asSlice := self.maps.flatten
  usableCount := self.len
  len := self.len
  initial := self.initial

/-- The length is that of the map. -/
def OwnedMapObserver.toMapObserver (self : OwnedMapObserver T) : MapObserver T where
  asSlice := self.map
  usableCount := self.map.length
  len := self.map.length
  initial := self.initial

end

/-- The map observers that there are. -/
inductive Observer : Type → Type 1 where
  | std {T : Type} (observer : StdMapObserver T) : Observer T
  | const {T : Type} (N : Nat) (observer : ConstMapObserver T N) : Observer T
  | variableSized {T : Type} (observer : VariableMapObserver T) : Observer T
  | multi {T : Type} (observer : MultiMapObserver T) : Observer T
  | owned {T : Type} (observer : OwnedMapObserver T) : Observer T
  | hitcounts (base : Observer UInt8) : Observer UInt8
  | hitcountsIterable (base : Observer UInt8) : Observer UInt8

namespace Observer

/-- An observer of hitcounts asks its base. -/
def toMapObserver {T : Type} : Observer T → MapObserver T
  | .std observer => observer.toMapObserver
  | .const _ observer => observer.toMapObserver
  | .variableSized observer => observer.toMapObserver
  | .multi observer => observer.toMapObserver
  | .owned observer => observer.toMapObserver
  | .hitcounts base => base.toMapObserver
  | .hitcountsIterable base => base.toMapObserver

/-- The map of a `ConstMapObserver` is longer than the constant. -/
def IsLongConst {T : Type} : Observer T → Prop
  | .std _ => False
  | .const N observer => N < observer.map.length
  | .variableSized _ => False
  | .multi _ => False
  | .owned _ => False
  | .hitcounts base => base.IsLongConst
  | .hitcountsIterable base => base.IsLongConst

variable {T : Type}

theorem usableCount_le_len
    (observer : Observer T)
    (notLong : ¬observer.IsLongConst) :
    observer.toMapObserver.usableCount ≤ observer.toMapObserver.len := by
  induction observer with
  | std observer =>
      exact Nat.le_refl _
  | const N observer =>
      exact Nat.not_lt.mp notLong
  | variableSized observer =>
      exact Nat.le_refl _
  | multi observer =>
      exact Nat.le_refl _
  | owned observer =>
      exact Nat.le_refl _
  | hitcounts base ih =>
      exact ih notLong
  | hitcountsIterable base ih =>
      exact ih notLong

theorem usableCount_le_asSlice (observer : Observer T) :
    observer.toMapObserver.usableCount ≤ observer.toMapObserver.asSlice.length := by
  induction observer with
  | std observer =>
      exact Nat.le_refl _
  | const N observer =>
      exact Nat.le_refl _
  | variableSized observer =>
      exact (List.length_take_of_le observer.fits).ge
  | multi observer =>
      exact observer.len_eq.le
  | owned observer =>
      exact Nat.le_refl _
  | hitcounts base ih =>
      exact ih
  | hitcountsIterable base ih =>
      exact ih

end Observer

end MeFuzz.Feedbacks
