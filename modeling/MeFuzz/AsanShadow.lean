import Mathlib

namespace MeFuzz.Asan

/-!
# The shadow of an address space

For each eight bytes there is one in the shadow, whose bits say which of them may be
accessed.  What marks some bytes touches all of their groups and nothing else.
-/

/-- `Allocator`, as far as it stays as it is made, with its options. -/
structure Config where
  pageSize : Nat
  shadowBit : Nat
  preAllocatedShadow : Bool
  maxAllocation : Nat
  maxTotalAllocation : Nat
  maxAllocationPanics : Bool
  continueOnError : Bool
  pageSize_pos : 0 < pageSize
  eight_dvd_pageSize : 8 ∣ pageSize
  three_le_shadowBit : 3 ≤ shadowBit

/-- The bytes of the shadow that are mapped. -/
abbrev Shadow := Nat → Option UInt8

namespace Config

/-- `shadow_offset`. -/
def shadowOffset (self : Config) : Nat :=
  1 <<< self.shadowBit

/-- `map_to_shadow!`. -/
def mapToShadow (self : Config) (address : Nat) : Nat :=
  self.shadowOffset + ((address >>> 3) &&& ((1 <<< (self.shadowBit + 1)) - 1))

/-- `base_mapping_addr`. -/
def baseMappingAddr (self : Config) : Nat :=
  self.shadowOffset + self.shadowOffset + self.shadowOffset

/-- `round_up_to_page`. -/
def roundUpToPage (self : Config) (size : Nat) : Nat :=
  (size + self.pageSize) / self.pageSize * self.pageSize

/-- `round_down_to_page`. -/
def roundDownToPage (self : Config) (value : Nat) : Nat :=
  value / self.pageSize * self.pageSize

/-- From here on there are no addresses that the shadow tells apart. -/
def addressLimit (self : Config) : Nat :=
  2 ^ (self.shadowBit + 4)

end Config

/-- `memset`, where all the bytes are mapped. -/
def memset (shadow : Shadow) (start : Nat) (byte : UInt8) (count : Nat) : Option Shadow :=
  if ∀ offset < count, (shadow (start + offset)).isSome then
    some fun address =>
      if start ≤ address ∧ address < start + count then some byte else shadow address
  else none

/-- Whole groups get a byte, and one that is left over gets another. -/
def mark
    (whole : UInt8)
    (part : Nat → UInt8)
    (shadow : Shadow)
    (start size : Nat) : Option Shadow := do
  let shadow ← memset shadow start whole (size / 8)
  let remainder := size % 8
  if 0 < remainder then memset shadow (start + size / 8) (part remainder) 1
  else some shadow

/-- `unpoison`. -/
def unpoison : Shadow → Nat → Nat → Option Shadow :=
  mark 0xff fun remainder => UInt8.ofNat ((0xff <<< (8 - remainder)) &&& 0xff)

/-- `poison`. -/
def poison : Shadow → Nat → Nat → Option Shadow :=
  mark 0x00 fun _ => 0x00

/-- The pages of the shadow that are not mapped yet are mapped, with zeros. -/
def mapGaps (shadow : Shadow) (shadowStart shadowEnd : Nat) : Shadow :=
  fun address =>
    if shadowStart ≤ address ∧ address < shadowEnd then some ((shadow address).getD 0)
    else shadow address

/-- `map_shadow_for_region`. -/
def mapShadowForRegion
    (config : Config)
    (shadow : Shadow)
    (start stop : Nat)
    (unpoisons : Bool) : Option ((Nat × Nat) × Shadow) := do
  let shadowMappingStart := config.mapToShadow start
  let shadowStart := config.roundDownToPage shadowMappingStart
  let shadowEnd :=
    config.roundUpToPage ((stop - start) / 8) + config.pageSize + shadowStart
  let shadow :=
    if config.preAllocatedShadow then shadow else mapGaps shadow shadowStart shadowEnd
  let shadow ←
    if unpoisons then unpoison shadow shadowMappingStart (stop - start) else some shadow
  some ((shadowMappingStart, (stop - start) / 8), shadow)

/-- The shadow says that the byte may be accessed. -/
def Accessible (config : Config) (shadow : Shadow) (address : Nat) : Prop :=
  ∃ byte,
    shadow (config.mapToShadow address) = some byte ∧
      byte.toNat.testBit (7 - address % 8) = true

section

variable {config : Config} {shadow after : Shadow}

theorem mapToShadow_eq
    {address : Nat}
    (inside : address < config.addressLimit) :
    config.mapToShadow address = config.shadowOffset + address / 8 := by
  rw [Config.mapToShadow, Nat.one_shiftLeft, Nat.and_two_pow_sub_one_eq_mod,
    Nat.shiftRight_eq_div_pow]
  have small : address / 2 ^ 3 < 2 ^ (config.shadowBit + 1) := by
    rw [Nat.div_lt_iff_lt_mul (by decide), ← pow_add]
    exact inside
  rw [Nat.mod_eq_of_lt small]
  rfl

theorem memset_eq_some
    {start count : Nat}
    {byte : UInt8}
    (set : memset shadow start byte count = some after)
    (address : Nat) :
    after address =
      if start ≤ address ∧ address < start + count then some byte else shadow address := by
  rw [memset] at set
  split at set
  · obtain rfl := Option.some.inj set
    rfl
  · cases set

theorem mark_eq_some
    {whole : UInt8}
    {part : Nat → UInt8}
    {start size : Nat}
    (marked : mark whole part shadow start size = some after)
    (address : Nat) :
    after address =
      if start ≤ address ∧ address < start + size / 8 then some whole
      else if address = start + size / 8 ∧ 0 < size % 8 then some (part (size % 8))
      else shadow address := by
  obtain ⟨middle, wholes, rest⟩ := Option.bind_eq_some_iff.mp marked
  have atMiddle := memset_eq_some wholes address
  dsimp only at rest
  split at rest
  · rename_i remains
    rw [memset_eq_some rest, atMiddle]
    split_ifs <;> first | rfl | omega
  · rename_i none
    obtain rfl := Option.some.inj rest
    rw [atMiddle, if_neg (by omega : ¬ (address = start + size / 8 ∧ 0 < size % 8))]

/-- The address is in one of the groups of some bytes. -/
def InGroups (key size address : Nat) : Prop :=
  key / 8 ≤ address / 8 ∧ address / 8 < key / 8 + (size + 7) / 8

theorem testBit_part :
    ∀ remainder < 8,
      ∀ offset < 8,
        (UInt8.ofNat ((0xff <<< (8 - remainder)) &&& 0xff)).toNat.testBit (7 - offset) =
          decide (offset < remainder) := by
  decide

theorem testBit_whole :
    ∀ offset < 8, (0xff : UInt8).toNat.testBit (7 - offset) = true := by
  decide

theorem accessible_iff_of_eq_some
    {address : Nat}
    {byte : UInt8}
    (isByte : shadow (config.mapToShadow address) = some byte) :
    Accessible config shadow address ↔
      byte.toNat.testBit (7 - address % 8) = true := by
  rw [Accessible, isByte]
  simp

theorem accessible_iff_of_eq
    {address : Nat}
    (same : after (config.mapToShadow address) = shadow (config.mapToShadow address)) :
    Accessible config after address ↔ Accessible config shadow address := by
  rw [Accessible, Accessible, same]

theorem accessible_unpoison
    {key size address : Nat}
    (aligned : 8 ∣ key)
    (keyInside : key < config.addressLimit)
    (inside : address < config.addressLimit)
    (marked : unpoison shadow (config.mapToShadow key) size = some after) :
    Accessible config after address ↔
      (key ≤ address ∧ address < key + size) ∨
        (¬ InGroups key size address ∧ Accessible config shadow address) := by
  have atAddress := mark_eq_some marked (config.mapToShadow address)
  have key_eq := mapToShadow_eq keyInside
  have address_eq := mapToShadow_eq inside
  by_cases wholly : key / 8 ≤ address / 8 ∧ address / 8 < key / 8 + size / 8
  · rw [if_pos (by omega)] at atAddress
    rw [accessible_iff_of_eq_some atAddress, testBit_whole _ (by omega)]
    simp only [true_iff]
    omega
  · rw [if_neg (by omega)] at atAddress
    by_cases partly : address / 8 = key / 8 + size / 8 ∧ 0 < size % 8
    · rw [if_pos (by omega)] at atAddress
      rw [accessible_iff_of_eq_some atAddress, testBit_part _ (by omega) _ (by omega),
        decide_eq_true_eq, or_iff_left (by unfold InGroups; omega)]
      omega
    · rw [if_neg (by omega)] at atAddress
      rw [accessible_iff_of_eq atAddress, or_iff_right (by omega),
        and_iff_right (by unfold InGroups; omega)]

theorem accessible_poison
    {key size address : Nat}
    (keyInside : key < config.addressLimit)
    (inside : address < config.addressLimit)
    (marked : poison shadow (config.mapToShadow key) size = some after) :
    Accessible config after address ↔
      ¬ InGroups key size address ∧ Accessible config shadow address := by
  have atAddress := mark_eq_some marked (config.mapToShadow address)
  have key_eq := mapToShadow_eq keyInside
  have address_eq := mapToShadow_eq inside
  by_cases isIn : InGroups key size address
  · have isPoisoned : after (config.mapToShadow address) = some 0 := by
      rw [atAddress]
      unfold InGroups at isIn
      split_ifs <;> first | rfl | omega
    rw [accessible_iff_of_eq_some isPoisoned]
    simp [isIn]
  · have isOut := isIn
    unfold InGroups at isOut
    rw [if_neg (by omega), if_neg (by omega)] at atAddress
    rw [accessible_iff_of_eq atAddress, and_iff_right isIn]

theorem accessible_mapGaps
    {shadowStart shadowEnd address : Nat} :
    Accessible config (mapGaps shadow shadowStart shadowEnd) address ↔
      Accessible config shadow address := by
  unfold Accessible mapGaps
  cases shadow (config.mapToShadow address) with
  | none =>
      split <;> simp
  | some byte =>
      simp

theorem accessible_mapShadowForRegion
    {start stop address : Nat}
    {region : Nat × Nat}
    (mapped : mapShadowForRegion config shadow start stop false = some (region, after)) :
    Accessible config after address ↔ Accessible config shadow address := by
  obtain ⟨_, rfl⟩ := Prod.mk.inj (Option.some.inj mapped)
  split
  · exact Iff.rfl
  · exact accessible_mapGaps

end

end MeFuzz.Asan
