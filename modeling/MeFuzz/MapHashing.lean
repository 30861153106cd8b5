import Mathlib.Tactic

namespace MeFuzz.Feedbacks

/-!
# Hashes of maps

The hash of a map is taken over the bytes of its entries.  The number of bytes that the
hasher is given is the number of entries divided by their width, so that it only is
the whole map if an entry is one byte wide.
-/

variable {T : Type}

/-- How the entries of a map lie in memory; `width` is `size_of::<T>()`. -/
structure EntryLayout (T : Type) where
  width : Nat
  positive : 0 < width
  bytes : T → List UInt8
  length_bytes : ∀ entry, (bytes entry).length = width
  injective : Function.Injective bytes

namespace EntryLayout

variable (layout : EntryLayout T)

/-- The memory of a map. -/
def memory (slice : List T) : List UInt8 :=
  slice.flatMap layout.bytes

/-- What `hash_slice` writes to its hasher. -/
def hashSlice (slice : List T) : List UInt8 :=
  let mapSize := slice.length / layout.width
  (layout.memory slice).take mapSize

/-- What `MultiMapObserver::hash` writes to its hasher, write by write. -/
def multiMapHash (maps : List (List T)) : List (List UInt8) :=
  maps.map layout.hashSlice

/-- The hasher is given different bytes for different maps of a length. -/
def SeesMaps (length : Nat) : Prop :=
  ∀ first second : List T,
    first.length = length → second.length = length →
      first ≠ second → layout.hashSlice first ≠ layout.hashSlice second

/-- The hasher is given different bytes for different lists of maps of a shape. -/
def SeesMultiMaps (shape : List Nat) : Prop :=
  ∀ first second : List (List T),
    first.map List.length = shape → second.map List.length = shape →
      first ≠ second → layout.multiMapHash first ≠ layout.multiMapHash second

variable {layout}
variable {first second : List T}

theorem length_memory (slice : List T) :
    (layout.memory slice).length = slice.length * layout.width := by
  unfold memory
  rw [List.length_flatMap, List.map_congr_left fun entry _ => layout.length_bytes entry,
    List.map_const', List.sum_replicate, smul_eq_mul]

theorem memory_injective
    (sameLength : first.length = second.length)
    (sameMemory : layout.memory first = layout.memory second) :
    first = second := by
  induction first generalizing second with
  | nil =>
      exact (List.length_eq_zero_iff.mp sameLength.symm).symm
  | cons entry rest ih =>
      cases second with
      | nil =>
          cases sameLength
      | cons other others =>
          have sameWidth : (layout.bytes entry).length = (layout.bytes other).length := by
            rw [layout.length_bytes, layout.length_bytes]
          obtain ⟨sameBytes, sameRest⟩ := List.append_inj sameMemory sameWidth
          rw [layout.injective sameBytes,
            ih (Nat.succ.inj sameLength) sameRest]

theorem hashSlice_of_byte
    (isByte : layout.width = 1)
    (slice : List T) :
    layout.hashSlice slice = layout.memory slice := by
  refine List.take_of_length_le ?_
  rw [length_memory, isByte, Nat.mul_one, Nat.div_one]

theorem hashSlice_snoc
    (isWide : 1 < layout.width)
    (front : List T)
    (last : T) :
    layout.hashSlice (front ++ [last]) =
      (layout.memory front).take ((front.length + 1) / layout.width) := by
  have few : (front.length + 1) / layout.width ≤ (layout.memory front).length := by
    have half : (front.length + 1) / layout.width ≤ (front.length + 1) / 2 :=
      Nat.div_le_div_left isWide two_pos
    have whole : front.length * 1 ≤ front.length * layout.width :=
      Nat.mul_le_mul_left _ layout.positive
    rw [length_memory]
    omega
  unfold hashSlice
  rw [List.length_append, List.length_singleton, memory, List.flatMap_append]
  exact List.take_append_of_le_length few

theorem eq_of_trivial
    {length : Nat}
    (isTrivial : length = 0 ∨ Subsingleton T)
    (isFirst : first.length = length)
    (isSecond : second.length = length) :
    first = second := by
  rcases isTrivial with rfl | single
  · rw [List.length_eq_zero_iff.mp isFirst, List.length_eq_zero_iff.mp isSecond]
  · exact List.ext_getElem (isFirst.trans isSecond.symm) fun _ _ _ => Subsingleton.elim _ _

theorem seesMaps_iff
    (length : Nat) :
    layout.SeesMaps length ↔ layout.width = 1 ∨ length = 0 ∨ Subsingleton T := by
  constructor
  · intro sees
    by_contra otherwise
    simp only [not_or, not_subsingleton_iff_nontrivial] at otherwise
    obtain ⟨notByte, notEmpty, ⟨one, other, differ⟩⟩ := otherwise
    obtain ⟨front, rfl⟩ := Nat.exists_eq_add_one_of_ne_zero notEmpty
    have isWide : 1 < layout.width :=
      lt_of_le_of_ne layout.positive (Ne.symm notByte)
    refine
      sees (List.replicate front one ++ [one]) (List.replicate front one ++ [other])
        (by simp) (by simp) ?_ ?_
    · simpa using differ
    · rw [hashSlice_snoc isWide, hashSlice_snoc isWide]
  · rintro (isByte | isTrivial) first second isFirst isSecond differ same
    · rw [hashSlice_of_byte isByte, hashSlice_of_byte isByte] at same
      exact differ (memory_injective (isFirst.trans isSecond.symm) same)
    · exact differ (eq_of_trivial isTrivial isFirst isSecond)

theorem seesMultiMaps_iff
    [Inhabited T]
    (shape : List Nat) :
    layout.SeesMultiMaps shape ↔ ∀ length ∈ shape, layout.SeesMaps length := by
  constructor
  · intro sees length isLength first second isFirst isSecond differ same
    obtain ⟨before, after, rfl⟩ := List.append_of_mem isLength
    let around (map : List T) : List (List T) :=
      before.map (List.replicate · default) ++ map :: after.map (List.replicate · default)
    have hasShape : ∀ map : List T, map.length = length →
        (around map).map List.length = before ++ length :: after := by
      intro map isMap
      simp [around, isMap, Function.comp_def]
    refine sees (around first) (around second) (hasShape first isFirst)
      (hasShape second isSecond) ?_ ?_
    · intro sameLists
      exact differ (List.cons.inj (List.append_cancel_left sameLists)).1
    · simp [around, multiMapHash, same]
  · intro sees first second isFirst isSecond differ same
    have sameLength : first.length = second.length := by
      rw [← List.length_map List.length, isFirst, ← isSecond, List.length_map]
    refine differ (List.ext_getElem sameLength fun place isPlace isOther => ?_)
    have inShape : first[place].length ∈ shape :=
      isFirst ▸ List.mem_map_of_mem (List.getElem_mem isPlace)
    have sameShape : second[place].length = first[place].length := by
      have both := isSecond.trans isFirst.symm
      simpa [isPlace, isOther] using congrArg (·[place]?) both
    have sameHash : layout.hashSlice first[place] = layout.hashSlice second[place] := by
      simpa [multiMapHash, isPlace, isOther] using congrArg (·[place]?) same
    by_contra differs
    exact sees _ inShape _ _ rfl sameShape differs sameHash

/--
The hashers see every map and every list of maps of a shape if and only if an entry is
one byte wide, or there is no entry, or all entries are the same.
-/
theorem hash_sees_whole_maps_iff
    [Inhabited T]
    (layout : EntryLayout T)
    (shape : List Nat) :
    ((∀ length ∈ shape, layout.SeesMaps length) ∧ layout.SeesMultiMaps shape) ↔
      layout.width = 1 ∨ (∀ length ∈ shape, length = 0) ∨ Subsingleton T := by
  rw [seesMultiMaps_iff, and_self]
  simp only [seesMaps_iff]
  constructor
  · intro each
    by_contra otherwise
    simp only [not_or, not_forall] at otherwise
    obtain ⟨notByte, ⟨length, isLength, notZero⟩, notSingle⟩ := otherwise
    rcases each length isLength with isByte | isZero | isSingle
    · exact notByte isByte
    · exact notZero isZero
    · exact notSingle isSingle
  · rintro (isByte | allZero | single) length isLength
    · exact .inl isByte
    · exact .inr (.inl (allZero length isLength))
    · exact .inr (.inr single)

/-- The bytes of a `u16`. -/
def bytesOfU16 (entry : UInt16) : List UInt8 :=
  [entry.toUInt8, (entry >>> 8).toUInt8]

theorem bytesOfU16_injective : Function.Injective bytesOfU16 := by
  intro one other same
  obtain ⟨sameLow, sameRest⟩ := List.cons.inj same
  have sameHigh := (List.cons.inj sameRest).1
  have low := congrArg UInt8.toNat sameLow
  have high := congrArg UInt8.toNat sameHigh
  simp only [UInt16.toNat_toUInt8, UInt16.toNat_shiftRight] at low high
  apply UInt16.toNat_inj.mp
  have oneBound := one.toNat_lt
  have otherBound := other.toNat_lt
  simp at high
  omega

/-- The layout of a map of `u16`. -/
def layoutOfU16 : EntryLayout UInt16 where
  width := 2
  positive := two_pos
  bytes := bytesOfU16
  length_bytes _ := rfl
  injective := bytesOfU16_injective

/-- Of a map with one entry of two bytes the hashers see nothing. -/
theorem different_maps_hash_equally :
    ([1] : List UInt16) ≠ [2] ∧
      layoutOfU16.hashSlice [1] = layoutOfU16.hashSlice [2] ∧
        layoutOfU16.multiMapHash [[1]] = layoutOfU16.multiMapHash [[2]] :=
  ⟨by decide, rfl, rfl⟩

end EntryLayout

end MeFuzz.Feedbacks
