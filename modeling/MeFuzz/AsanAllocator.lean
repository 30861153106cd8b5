import MeFuzz.AsanShadow
import MeFuzz.IntervalMaps

namespace MeFuzz.Asan

/-!
# The allocator of the address sanitizer

Each allocation has a mapping of its own, with a page before and a page behind its bytes.
What is released stays where it is until the next reset, which queues it for reuse.
What panics has no result, and whether memory can be mapped is given to each operation.
-/

/-- `AllocationMetadata`, without the backtraces. -/
structure AllocationMetadata where
  address : Nat
  size : Nat
  actualSize : Nat
  freed : Bool
  isMallocZero : Bool
  deriving DecidableEq

/-- What is mapped for an allocation. -/
def AllocationMetadata.mapping (self : AllocationMetadata) : Interval :=
  ⟨self.address, self.address + self.actualSize⟩

/-- An address that was handed out, and what is known of it. -/
abbrev Entry := Nat × AllocationMetadata

/-- What can be reused, by its actual size. -/
abbrev Bucket := Nat × List AllocationMetadata

/-- `Allocator`, as far as it changes, with the shadow. -/
structure Allocator where
  allocations : List Entry
  allocationQueue : List Bucket
  largestAllocation : Nat
  totalAllocationSize : Nat
  currentMappingAddr : Nat
  shadow : Shadow

/-- `AsanError`, of those that releasing reports. -/
inductive AsanError where
  | unallocatedFree (address : Nat)
  | doubleFree (address : Nat) (metadata : AllocationMetadata)

/-- `usize::MAX`. -/
def usizeMax : Nat := 2 ^ 64 - 1

/-- `insert`. -/
def insert (allocations : List Entry) (key : Nat) (metadata : AllocationMetadata) : List Entry :=
  (key, metadata) :: allocations.filter fun entry => entry.1 ≠ key

/-- `get`. -/
def get (allocations : List Entry) (key : Nat) : Option AllocationMetadata :=
  (allocations.find? fun entry => entry.1 = key).map Prod.snd

/-- The first bucket that is large enough and not empty gives its last. -/
def findFit (size : Nat) : List Bucket → Option (AllocationMetadata × List Bucket)
  | [] => none
  | (currentSize, list) :: rest =>
      match if size ≤ currentSize then list.getLast? else none with
      | some metadata => some (metadata, (currentSize, list.dropLast) :: rest)
      | none =>
          (findFit size rest).map fun (metadata, others) =>
            (metadata, (currentSize, list) :: others)

/-- What is released is put into the bucket of its size. -/
def pushBucket (metadata : AllocationMetadata) : List Bucket → List Bucket
  | [] => [(metadata.actualSize, [metadata])]
  | (currentSize, list) :: rest =>
      if metadata.actualSize < currentSize then
        (metadata.actualSize, [metadata]) :: (currentSize, list) :: rest
      else if metadata.actualSize = currentSize then (currentSize, list ++ [metadata]) :: rest
      else (currentSize, list) :: pushBucket metadata rest

/-- `report_error`, which panics unless it is to continue. -/
def reportError (config : Config) (error : AsanError) : Option (List AsanError) :=
  if config.continueOnError then some [error] else none

/-- What is reported for an allocation that is released again. -/
def reportDoubleFree
    (config : Config)
    (ptr : Nat)
    (metadata : AllocationMetadata) : Option (List AsanError) :=
  if metadata.freed then reportError config (.doubleFree ptr metadata) else some []

namespace Allocator

variable (config : Config)

/-- What is asked for, where nothing is. -/
def requested (size : Nat) : Nat :=
  if size = 0 then 16 else size

/-- What is mapped for a request. -/
def mappingSize (size : Nat) : Nat :=
  config.roundUpToPage size + 2 * config.pageSize

/-- The end of `alloc`, for the metadata that it has come to. -/
def serve (self : Allocator) (metadata : AllocationMetadata) : Option (Nat × Allocator) := do
  let key := metadata.address + config.pageSize
  let shadow ← unpoison self.shadow (config.mapToShadow key) metadata.size
  some
    (key,
      { self with
        largestAllocation := max self.largestAllocation metadata.actualSize
        shadow := shadow
        allocations := insert self.allocations key metadata })

/-- A new mapping, if there can be one. -/
def mapNew
    (self : Allocator)
    (size roundedUpSize : Nat)
    (mapped : Bool) : Option (Nat × Allocator) :=
  if mapped then do
    let mapping := self.currentMappingAddr
    let (_, shadow) ←
      mapShadowForRegion config self.shadow mapping (mapping + roundedUpSize) false
    serve config
      { self with
        currentMappingAddr := self.currentMappingAddr + roundedUpSize
        shadow := shadow }
      { address := mapping
        size := size
        actualSize := roundedUpSize
        freed := false
        isMallocZero := false }
  else some (0, self)

/-- `alloc`. -/
def alloc (self : Allocator) (size : Nat) (mapped : Bool) : Option (Nat × Allocator) :=
  let isMallocZero : Bool := size = 0
  let size := requested size
  if config.maxAllocation < size then
    if config.maxAllocationPanics then none else some (0, self)
  else
    let roundedUpSize := mappingSize config size
    -- A sum may overflow.
    if usizeMax < self.totalAllocationSize + roundedUpSize then none
    else if config.maxTotalAllocation < self.totalAllocationSize + roundedUpSize then
      some (0, self)
    else
      let self :=
        { self with totalAllocationSize := self.totalAllocationSize + roundedUpSize }
      match findFit roundedUpSize self.allocationQueue with
      | some (metadata, queue) =>
          serve config { self with allocationQueue := queue }
            { metadata with isMallocZero := isMallocZero, size := size }
      | none => mapNew config self size roundedUpSize mapped

/-- `release`, with the errors that it reports. -/
def release (self : Allocator) (ptr : Nat) : Option (List AsanError × Allocator) :=
  match get self.allocations ptr with
  | none =>
      if ptr = 0 then some ([], self)
      else do
        let errors ← reportError config (.unallocatedFree ptr)
        some (errors, self)
  | some metadata => do
      let errors ← reportDoubleFree config ptr metadata
      let shadow ← poison self.shadow (config.mapToShadow ptr) metadata.size
      some
        (errors,
          { self with
            allocations := insert self.allocations ptr { metadata with freed := true }
            shadow := shadow })

/-- The loop of `reset` over the entries that are drained. -/
def drain :
    List Entry → Allocator → List AllocationMetadata →
      Option (Allocator × List AllocationMetadata)
  | [], self, tmpAllocations => some (self, tmpAllocations)
  | (address, allocation) :: rest, self, tmpAllocations =>
      if allocation.freed = false then
        drain rest self (tmpAllocations ++ [allocation])
      else do
        let shadow ← poison self.shadow (config.mapToShadow address) allocation.size
        let allocation := { allocation with size := 0, freed := false }
        drain rest
          { self with
            shadow := shadow
            allocationQueue := pushBucket allocation self.allocationQueue }
          tmpAllocations

/-- `reset`, where the entries are drained in some order. -/
def reset (self : Allocator) (drained : List Entry) : Option Allocator := do
  let (self, tmpAllocations) ← drain config drained { self with allocations := [] } []
  let allocations :=
    tmpAllocations.foldl
      (fun allocations allocation =>
        insert allocations (allocation.address + config.pageSize) allocation)
      self.allocations
  some { self with allocations := allocations, totalAllocationSize := 0 }

/-- `new`. -/
def new : Allocator where
  allocations := []
  allocationQueue := []
  largestAllocation := 0
  totalAllocationSize := 0
  currentMappingAddr := config.baseMappingAddr
  shadow :=
    if config.preAllocatedShadow then
      mapGaps (fun _ => none) config.shadowOffset
        (config.shadowOffset + (config.shadowOffset + config.shadowOffset))
    else fun _ => none

end Allocator

/-- An allocation that was not released. -/
def Live (entry : Entry) : Prop :=
  entry.2.freed = false

instance : DecidablePred Live :=
  fun entry => inferInstanceAs (Decidable (entry.2.freed = false))

/-- The bytes of an allocation that were asked for. -/
def HasByte (entry : Entry) (address : Nat) : Prop :=
  entry.1 ≤ address ∧ address < entry.1 + entry.2.size

/-- Behind the shadow, exactly the bytes of live allocations can be accessed. -/
def Shows (config : Config) (allocations : List Entry) (shadow : Shadow) : Prop :=
  ∀ address,
    config.baseMappingAddr ≤ address →
      address < config.addressLimit →
        (Accessible config shadow address ↔
          ∃ entry ∈ allocations, Live entry ∧ HasByte entry address)

/-- Mappings do not overlap. -/
def Apart (first second : AllocationMetadata) : Prop :=
  ¬ first.mapping.Overlaps second.mapping

/-- A request is within the limits. -/
def Allocator.Grants (config : Config) (self : Allocator) (size : Nat) : Prop :=
  Allocator.requested size ≤ config.maxAllocation ∧
    self.totalAllocationSize + Allocator.mappingSize config (Allocator.requested size) ≤
      config.maxTotalAllocation

/-- What is known of all mappings. -/
def mappings (allocations : List Entry) (queue : List Bucket) : List AllocationMetadata :=
  allocations.map Prod.snd ++ queue.flatMap Prod.snd

/-- A mapping is in the part that is managed, and has its two pages. -/
structure Placed (config : Config) (current : Nat) (metadata : AllocationMetadata) : Prop where
  base_le : config.baseMappingAddr ≤ metadata.address
  eight_dvd : 8 ∣ metadata.address
  le_current : metadata.address + metadata.actualSize ≤ current
  pages_le : 2 * config.pageSize ≤ metadata.actualSize

/-- The bytes of an allocation are between the pages of its mapping. -/
structure Fits (config : Config) (entry : Entry) : Prop where
  key_eq : entry.1 = entry.2.address + config.pageSize
  room : entry.2.size + 2 * config.pageSize ≤ entry.2.actualSize

/-- What is queued is in the bucket of its size, and no longer counts as released. -/
def Queued (queue : List Bucket) : Prop :=
  ∀ bucket ∈ queue, ∀ metadata ∈ bucket.2,
    metadata.actualSize = bucket.1 ∧ metadata.freed = false

/-- What each operation keeps. -/
structure Tracked
    (config : Config)
    (allocations : List Entry)
    (queue : List Bucket)
    (current : Nat)
    (shadow : Shadow) : Prop where
  base_le : config.baseMappingAddr ≤ current
  current_le : current ≤ config.addressLimit
  eight_dvd : 8 ∣ current
  fits : ∀ entry ∈ allocations, Fits config entry
  queued : Queued queue
  placed : ∀ metadata ∈ mappings allocations queue, Placed config current metadata
  apart : (mappings allocations queue).Pairwise Apart
  shows : Shows config allocations shadow

section

variable {config : Config} {allocations rest : List Entry} {queue : List Bucket}
variable {current : Nat} {shadow after : Shadow} {entry : Entry}

theorem Apart.symm {first second : AllocationMetadata} (apart : Apart first second) :
    Apart second first := by
  rintro ⟨point, inSecond, inFirst⟩
  exact apart ⟨point, inFirst, inSecond⟩

theorem eight_le_pageSize : 8 ≤ config.pageSize :=
  Nat.le_of_dvd config.pageSize_pos config.eight_dvd_pageSize

variable {address : Nat}

theorem contains_of_inGroups
    (fits : Fits config entry)
    (inGroups : InGroups entry.1 entry.2.size address) :
    entry.2.mapping.Contains address := by
  have room := fits.room
  have key_eq := fits.key_eq
  have page : 8 ≤ config.pageSize := eight_le_pageSize
  unfold InGroups at inGroups
  unfold AllocationMetadata.mapping Interval.Contains
  dsimp only
  omega

theorem contains_of_hasByte
    (fits : Fits config entry)
    (hasByte : HasByte entry address) :
    entry.2.mapping.Contains address := by
  have room := fits.room
  have key_eq := fits.key_eq
  unfold HasByte at hasByte
  unfold AllocationMetadata.mapping Interval.Contains
  dsimp only
  omega

theorem eight_dvd_key
    (fits : Fits config entry)
    (placed : Placed config current entry.2) :
    8 ∣ entry.1 := by
  rw [fits.key_eq]
  exact Nat.dvd_add placed.eight_dvd config.eight_dvd_pageSize

theorem key_lt
    (fits : Fits config entry)
    (placed : Placed config current entry.2) :
    entry.1 < current := by
  have room := fits.room
  have key_eq := fits.key_eq
  have page := config.pageSize_pos
  have le_current := placed.le_current
  omega

theorem key_ne
    {other : Entry}
    (fits : Fits config entry)
    (otherFits : Fits config other)
    (apart : Apart entry.2 other.2) :
    other.1 ≠ entry.1 := by
  intro same
  have key_eq := fits.key_eq
  have otherKey_eq := otherFits.key_eq
  have room := fits.room
  have otherRoom := otherFits.room
  have page := config.pageSize_pos
  refine apart ⟨entry.2.address, ?_, ?_⟩
  all_goals
    unfold AllocationMetadata.mapping Interval.Contains
    dsimp only
    omega

theorem Shows.perm
    (shows : Shows config allocations shadow)
    (isPerm : allocations.Perm rest) :
    Shows config rest shadow := by
  intro address base inside
  rw [shows address base inside]
  simp only [isPerm.mem_iff]

theorem shows_cons_of_not_live (notLive : ¬ Live entry) :
    Shows config (entry :: rest) shadow ↔ Shows config rest shadow := by
  unfold Shows
  simp [notLive]

theorem not_inGroups_and_iff
    (fits : Fits config entry)
    (othersFit : ∀ other ∈ rest, Fits config other)
    (apart : ∀ other ∈ rest, Apart entry.2 other.2) :
    (¬ InGroups entry.1 entry.2.size address ∧
        ∃ other ∈ rest, Live other ∧ HasByte other address) ↔
      ∃ other ∈ rest, Live other ∧ HasByte other address := by
  refine and_iff_right_of_imp ?_
  rintro ⟨other, isOther, _, hasByte⟩ inGroups
  exact apart other isOther
    ⟨address, contains_of_inGroups fits inGroups,
      contains_of_hasByte (othersFit other isOther) hasByte⟩

theorem inGroups_of_hasByte
    (aligned : 8 ∣ entry.1)
    (hasByte : HasByte entry address) :
    InGroups entry.1 entry.2.size address := by
  unfold HasByte at hasByte
  unfold InGroups
  omega

theorem Shows.unpoison
    (shows : Shows config rest shadow)
    (current_le : current ≤ config.addressLimit)
    (fits : Fits config entry)
    (placed : Placed config current entry.2)
    (othersFit : ∀ other ∈ rest, Fits config other)
    (apart : ∀ other ∈ rest, Apart entry.2 other.2)
    (live : Live entry)
    (marked : unpoison shadow (config.mapToShadow entry.1) entry.2.size = some after) :
    Shows config (entry :: rest) after := by
  intro address base inside
  have keyInside := (key_lt fits placed).trans_le current_le
  rw [accessible_unpoison (eight_dvd_key fits placed) keyInside inside marked,
    shows address base inside, List.exists_mem_cons_iff]
  exact or_congr (and_iff_right live).symm (not_inGroups_and_iff fits othersFit apart)

theorem Shows.poison
    (shows : Shows config (entry :: rest) shadow)
    (current_le : current ≤ config.addressLimit)
    (fits : Fits config entry)
    (placed : Placed config current entry.2)
    (othersFit : ∀ other ∈ rest, Fits config other)
    (apart : ∀ other ∈ rest, Apart entry.2 other.2)
    (marked : poison shadow (config.mapToShadow entry.1) entry.2.size = some after) :
    Shows config rest after := by
  intro address base inside
  have keyInside := (key_lt fits placed).trans_le current_le
  rw [accessible_poison keyInside inside marked, shows address base inside,
    List.exists_mem_cons_iff, and_or_left, not_inGroups_and_iff fits othersFit apart]
  refine or_iff_right ?_
  rintro ⟨outside, _, hasByte⟩
  exact outside (inGroups_of_hasByte (eight_dvd_key fits placed) hasByte)

variable {key : Nat}
variable {metadata : AllocationMetadata}

theorem insert_of_fresh
    (fresh : ∀ entry ∈ allocations, entry.1 ≠ key) :
    insert allocations key metadata = (key, metadata) :: allocations := by
  rw [insert, List.filter_eq_self.mpr]
  intro entry isEntry
  exact decide_eq_true (fresh entry isEntry)

theorem insert_perm
    {metadata old : AllocationMetadata}
    (isPerm : allocations.Perm ((key, old) :: rest))
    (fresh : ∀ entry ∈ rest, entry.1 ≠ key) :
    (insert allocations key metadata).Perm ((key, metadata) :: rest) := by
  have filtered := isPerm.filter fun entry => entry.1 ≠ key
  rw [List.filter_cons_of_neg (by simp)] at filtered
  rw [← insert_of_fresh fresh]
  exact filtered.cons (key, metadata)

theorem mem_of_get
    (found : get allocations key = some metadata) :
    (key, metadata) ∈ allocations := by
  obtain ⟨entry, isEntry, rfl⟩ := Option.map_eq_some_iff.mp found
  have same : entry.1 = key := by
    simpa using List.find?_some isEntry
  rw [← same]
  exact List.mem_of_find?_eq_some isEntry

theorem ne_of_get_eq_none
    (unknown : get allocations key = none) :
    ∀ entry ∈ allocations, entry.1 ≠ key := by
  intro entry isEntry
  have absent := List.find?_eq_none.mp (Option.map_eq_none_iff.mp unknown) entry isEntry
  simpa using absent

variable {size : Nat}

theorem findFit_eq_some
    {others : List Bucket}
    (queued : Queued queue)
    (found : findFit size queue = some (metadata, others)) :
    (queue.flatMap Prod.snd).Perm (metadata :: others.flatMap Prod.snd) ∧
      size ≤ metadata.actualSize ∧ metadata.freed = false ∧ Queued others := by
  induction queue generalizing others with
  | nil =>
      cases found
  | cons bucket rest ih =>
      obtain ⟨currentSize, list⟩ := bucket
      obtain ⟨inBucket, inRest⟩ := List.forall_mem_cons.mp queued
      rw [findFit] at found
      split at found
      · rename_i last isLast
        obtain ⟨rfl, rfl⟩ := Prod.mk.inj (Option.some.inj found)
        split at isLast
        · rename_i fits
          have isMember := List.mem_of_getLast? isLast
          have split := List.dropLast_append_getLast? _ isLast
          obtain ⟨sameSize, notFreed⟩ := inBucket _ isMember
          refine ⟨?_, fits.trans_eq sameSize.symm, notFreed, ?_⟩
          · rw [List.flatMap_cons, List.flatMap_cons]
            dsimp only
            nth_rewrite 1 [← split]
            rw [List.append_assoc]
            exact List.perm_middle
          · refine List.forall_mem_cons.mpr ⟨?_, inRest⟩
            intro other isOther
            exact inBucket other (List.mem_of_mem_dropLast isOther)
        · cases isLast
      · obtain ⟨⟨last, further⟩, foundRest, same⟩ := Option.map_eq_some_iff.mp found
        obtain ⟨rfl, rfl⟩ := Prod.mk.inj same
        obtain ⟨isPerm, fits, notFreed, furtherQueued⟩ :=
          ih inRest foundRest
        refine ⟨?_, fits, notFreed, List.forall_mem_cons.mpr ⟨inBucket, furtherQueued⟩⟩
        rw [List.flatMap_cons, List.flatMap_cons]
        exact (isPerm.append_left list).trans List.perm_middle

theorem pushBucket_perm (metadata : AllocationMetadata) :
    ((pushBucket metadata queue).flatMap Prod.snd).Perm
      (metadata :: queue.flatMap Prod.snd) := by
  induction queue with
  | nil =>
      exact .refl _
  | cons bucket rest ih =>
      rw [pushBucket]
      split_ifs
      · exact .refl _
      · simp only [List.flatMap_cons, List.append_assoc, List.singleton_append]
        exact List.perm_middle
      · simp only [List.flatMap_cons]
        exact (ih.append_left bucket.2).trans List.perm_middle

theorem Queued.push
    {metadata : AllocationMetadata}
    (queued : Queued queue)
    (notFreed : metadata.freed = false) :
    Queued (pushBucket metadata queue) := by
  induction queue with
  | nil =>
      simpa [pushBucket, Queued] using notFreed
  | cons bucket rest ih =>
      obtain ⟨inBucket, inRest⟩ := List.forall_mem_cons.mp queued
      rw [pushBucket]
      split_ifs with below same
      · refine List.forall_mem_cons.mpr ⟨?_, queued⟩
        simpa using notFreed
      · refine List.forall_mem_cons.mpr ⟨?_, inRest⟩
        simp only [List.forall_mem_append, List.forall_mem_singleton]
        exact ⟨inBucket, same, notFreed⟩
      · exact List.forall_mem_cons.mpr ⟨inBucket, ih inRest⟩

theorem Tracked.perm
    {others : List Entry}
    (tracked : Tracked config allocations queue current shadow)
    (isPerm : allocations.Perm others) :
    Tracked config others queue current shadow where
  base_le := tracked.base_le
  current_le := tracked.current_le
  eight_dvd := tracked.eight_dvd
  fits entry isEntry := tracked.fits entry (isPerm.mem_iff.mpr isEntry)
  queued := tracked.queued
  placed metadata isMetadata :=
    tracked.placed metadata (((isPerm.map Prod.snd).append_right _).mem_iff.mpr isMetadata)
  apart :=
    (((isPerm.map Prod.snd).append_right _).pairwise_iff Apart.symm).mp tracked.apart
  shows := tracked.shows.perm isPerm

/-- An allocation, beside the others and the queue. -/
structure Beside
    (config : Config)
    (rest : List Entry)
    (queue : List Bucket)
    (current : Nat)
    (entry : Entry) : Prop where
  fits : Fits config entry
  placed : Placed config current entry.2
  apart : ∀ metadata ∈ mappings rest queue, Apart entry.2 metadata

theorem Beside.entries
    (beside : Beside config rest queue current entry) :
    ∀ other ∈ rest, Apart entry.2 other.2 := by
  intro other isOther
  exact beside.apart other.2 (List.mem_append_left _ (List.mem_map_of_mem isOther))

theorem Tracked.beside
    (tracked : Tracked config (entry :: rest) queue current shadow) :
    Beside config rest queue current entry where
  fits := tracked.fits entry List.mem_cons_self
  placed := tracked.placed entry.2 List.mem_cons_self
  apart := (List.pairwise_cons.mp tracked.apart).1

theorem Beside.fresh
    (beside : Beside config rest queue current entry)
    (othersFit : ∀ other ∈ rest, Fits config other) :
    ∀ other ∈ rest, other.1 ≠ entry.1 := by
  intro other isOther
  exact key_ne beside.fits (othersFit other isOther) (beside.entries other isOther)

theorem Tracked.cons
    (tracked : Tracked config rest queue current shadow)
    (beside : Beside config rest queue current entry)
    (shows : Shows config (entry :: rest) after) :
    Tracked config (entry :: rest) queue current after where
  base_le := tracked.base_le
  current_le := tracked.current_le
  eight_dvd := tracked.eight_dvd
  fits := List.forall_mem_cons.mpr ⟨beside.fits, tracked.fits⟩
  queued := tracked.queued
  placed := List.forall_mem_cons.mpr ⟨beside.placed, tracked.placed⟩
  apart := List.pairwise_cons.mpr ⟨beside.apart, tracked.apart⟩
  shows := shows

theorem Tracked.poison
    (tracked : Tracked config (entry :: rest) queue current shadow)
    (marked : poison shadow (config.mapToShadow entry.1) entry.2.size = some after) :
    Tracked config rest queue current after := by
  have beside := tracked.beside
  have othersFit := (List.forall_mem_cons.mp tracked.fits).2
  exact
    { base_le := tracked.base_le
      current_le := tracked.current_le
      eight_dvd := tracked.eight_dvd
      fits := othersFit
      queued := tracked.queued
      placed := (List.forall_mem_cons.mp tracked.placed).2
      apart := (List.pairwise_cons.mp tracked.apart).2
      shows :=
        tracked.shows.poison tracked.current_le beside.fits beside.placed othersFit
          beside.entries marked }

theorem Tracked.push
    (tracked : Tracked config rest queue current shadow)
    (beside : Beside config rest queue current entry) :
    Tracked config rest (pushBucket { entry.2 with size := 0, freed := false } queue)
      current shadow := by
  have isPerm :
      (mappings rest
          (pushBucket { entry.2 with size := 0, freed := false } queue)).Perm
        ({ entry.2 with size := 0, freed := false } :: mappings rest queue) :=
    ((pushBucket_perm _).append_left _).trans List.perm_middle
  have placed := beside.placed
  exact
    { base_le := tracked.base_le
      current_le := tracked.current_le
      eight_dvd := tracked.eight_dvd
      fits := tracked.fits
      queued := tracked.queued.push rfl
      placed := by
        intro metadata isMetadata
        rcases List.mem_cons.mp (isPerm.mem_iff.mp isMetadata) with rfl | isOther
        · exact ⟨placed.base_le, placed.eight_dvd, placed.le_current, placed.pages_le⟩
        · exact tracked.placed metadata isOther
      apart :=
        (isPerm.pairwise_iff Apart.symm).mpr
          (List.pairwise_cons.mpr ⟨beside.apart, tracked.apart⟩)
      shows := tracked.shows }

theorem shadowOffset_eq : config.shadowOffset = 2 ^ config.shadowBit :=
  Nat.one_shiftLeft _

theorem shows_new : Shows config [] (Allocator.new config).shadow := by
  have nothing (address : Nat) : ¬ Accessible config (fun _ => none) address := by
    rintro ⟨byte, isByte, _⟩
    cases isByte
  intro address _ _
  have noEntry : ¬ ∃ entry ∈ ([] : List Entry), Live entry ∧ HasByte entry address := by
    simp
  refine iff_of_false ?_ noEntry
  rw [Allocator.new]
  dsimp only
  split
  · rw [accessible_mapGaps]
    exact nothing address
  · exact nothing address

theorem tracked_new :
    Tracked config [] [] config.baseMappingAddr (Allocator.new config).shadow where
  base_le := le_rfl
  current_le := by
    rw [Config.baseMappingAddr, shadowOffset_eq, Config.addressLimit, pow_add]
    omega
  eight_dvd := by
    have aligned : 8 ∣ config.shadowOffset := by
      rw [shadowOffset_eq]
      exact pow_dvd_pow 2 config.three_le_shadowBit
    exact Nat.dvd_add (Nat.dvd_add aligned aligned) aligned
  fits := by simp
  queued := by simp [Queued]
  placed := by simp [mappings]
  apart := .nil
  shows := shows_new

theorem Tracked.pop
    {others : List Bucket}
    (tracked : Tracked config allocations queue current shadow)
    (found : findFit size queue = some (metadata, others)) :
    Tracked config allocations others current shadow ∧
      Placed config current metadata ∧
        ∀ other ∈ mappings allocations others, Apart metadata other := by
  obtain ⟨isPerm, _, _, othersQueued⟩ := findFit_eq_some tracked.queued found
  have all :
      (mappings allocations queue).Perm (metadata :: mappings allocations others) :=
    (isPerm.append_left _).trans List.perm_middle
  have placed : ∀ other ∈ metadata :: mappings allocations others, Placed config current other :=
    fun other isOther => tracked.placed other (all.mem_iff.mpr isOther)
  obtain ⟨apart, othersApart⟩ :=
    List.pairwise_cons.mp ((all.pairwise_iff Apart.symm).mp tracked.apart)
  obtain ⟨placedHere, othersPlaced⟩ := List.forall_mem_cons.mp placed
  exact
    ⟨{ base_le := tracked.base_le
       current_le := tracked.current_le
       eight_dvd := tracked.eight_dvd
       fits := tracked.fits
       queued := othersQueued
       placed := othersPlaced
       apart := othersApart
       shows := tracked.shows },
      placedHere, apart⟩

theorem Tracked.extend
    (tracked : Tracked config allocations queue current shadow)
    (aligned : 8 ∣ size)
    (inside : current + size ≤ config.addressLimit)
    (shows : Shows config allocations after) :
    Tracked config allocations queue (current + size) after where
  base_le := tracked.base_le.trans (Nat.le_add_right _ _)
  current_le := inside
  eight_dvd := Nat.dvd_add tracked.eight_dvd aligned
  fits := tracked.fits
  queued := tracked.queued
  placed metadata isMetadata :=
    have placed := tracked.placed metadata isMetadata
    ⟨placed.base_le, placed.eight_dvd, placed.le_current.trans (Nat.le_add_right _ _),
      placed.pages_le⟩
  apart := tracked.apart
  shows := shows

namespace Allocator

variable {self next : Allocator} {ptr : Nat}

/-- The state of the allocator is tracked. -/
abbrev IsTracked (config : Config) (self : Allocator) : Prop :=
  Tracked config self.allocations self.allocationQueue self.currentMappingAddr self.shadow

/-- A request has been added to the total. -/
def charged (config : Config) (self : Allocator) (size : Nat) : Allocator :=
  { self with
    totalAllocationSize :=
      self.totalAllocationSize + mappingSize config (requested size) }

variable {size : Nat}
variable {mapped : Bool}

theorem alloc_cases
    (allocated : self.alloc config size mapped = some (ptr, next)) :
    (¬ self.Grants config size ∧ ptr = 0 ∧ next = self) ∨
      self.Grants config size ∧
        ((∃ metadata queue,
            findFit (mappingSize config (requested size)) self.allocationQueue =
                some (metadata, queue) ∧
              serve config { self.charged config size with allocationQueue := queue }
                  { metadata with isMallocZero := size = 0, size := requested size } =
                some (ptr, next)) ∨
          findFit (mappingSize config (requested size)) self.allocationQueue = none ∧
            mapNew config (self.charged config size) (requested size)
                (mappingSize config (requested size)) mapped =
              some (ptr, next)) := by
  rw [alloc] at allocated
  dsimp only at allocated
  split at allocated
  · rename_i tooLarge
    split at allocated
    · cases allocated
    · obtain ⟨rfl, rfl⟩ := Prod.mk.inj (Option.some.inj allocated)
      exact .inl ⟨fun granted => absurd granted.1 (Nat.not_le.mpr tooLarge), rfl, rfl⟩
  · rename_i withinOne
    split at allocated
    · cases allocated
    · split at allocated
      · rename_i tooMuch
        obtain ⟨rfl, rfl⟩ := Prod.mk.inj (Option.some.inj allocated)
        exact .inl ⟨fun granted => absurd granted.2 (Nat.not_le.mpr tooMuch), rfl, rfl⟩
      · rename_i withinTotal
        refine .inr ⟨⟨Nat.not_lt.mp withinOne, Nat.not_lt.mp withinTotal⟩, ?_⟩
        split at allocated
        · rename_i metadata queue found
          exact .inl ⟨metadata, queue, found, allocated⟩
        · rename_i noFit
          exact .inr ⟨noFit, allocated⟩

theorem serve_eq_some
    {metadata : AllocationMetadata}
    (tracked : self.IsTracked config)
    (beside :
      Beside config self.allocations self.allocationQueue self.currentMappingAddr
        (metadata.address + config.pageSize, metadata))
    (live : metadata.freed = false)
    (served : self.serve config metadata = some (ptr, next)) :
    next.IsTracked config ∧
      next.allocations = (ptr, metadata) :: self.allocations ∧
        next.totalAllocationSize = self.totalAllocationSize := by
  obtain ⟨shadow, marked, rest⟩ := Option.bind_eq_some_iff.mp served
  obtain ⟨rfl, rfl⟩ := Prod.mk.inj (Option.some.inj rest)
  have inserted :
      insert self.allocations (metadata.address + config.pageSize) metadata =
        (metadata.address + config.pageSize, metadata) :: self.allocations :=
    insert_of_fresh (beside.fresh tracked.fits)
  refine ⟨?_, inserted, rfl⟩
  dsimp only [IsTracked]
  rw [inserted]
  refine tracked.cons beside ?_
  exact
    tracked.shows.unpoison tracked.current_le beside.fits beside.placed tracked.fits
      beside.entries live marked

theorem size_le_roundUpToPage (size : Nat) : size ≤ config.roundUpToPage size := by
  have split := Nat.div_add_mod (size + config.pageSize) config.pageSize
  have small := Nat.mod_lt (size + config.pageSize) config.pageSize_pos
  rw [Nat.mul_comm] at split
  rw [Config.roundUpToPage]
  omega

theorem room_mappingSize (size : Nat) :
    size + 2 * config.pageSize ≤ mappingSize config size :=
  Nat.add_le_add_right (size_le_roundUpToPage size) _

theorem eight_dvd_mappingSize (size : Nat) : 8 ∣ mappingSize config size :=
  Nat.dvd_add (config.eight_dvd_pageSize.mul_left _) (config.eight_dvd_pageSize.mul_left _)

theorem mapNew_eq_some
    (tracked : self.IsTracked config)
    (maps :
      mapped = true →
        self.currentMappingAddr + mappingSize config size ≤ config.addressLimit)
    (allocated :
      self.mapNew config size (mappingSize config size) mapped = some (ptr, next)) :
    (mapped = false ∧ ptr = 0 ∧ next = self) ∨
      mapped = true ∧ next.IsTracked config ∧
        ∃ metadata,
          next.allocations = (ptr, metadata) :: self.allocations ∧
            next.totalAllocationSize = self.totalAllocationSize ∧
              metadata.actualSize = mappingSize config size ∧ metadata.freed = false := by
  cases mapped with
  | false =>
      obtain ⟨rfl, rfl⟩ := Prod.mk.inj (Option.some.inj allocated)
      exact .inl ⟨rfl, rfl, rfl⟩
  | true =>
      refine .inr ⟨rfl, ?_⟩
      rw [mapNew, if_pos rfl] at allocated
      simp only [Option.bind_eq_bind, Option.bind_eq_some_iff] at allocated
      obtain ⟨⟨region, shadow⟩, shadowed, served⟩ := allocated
      dsimp only at served
      have shows : Shows config self.allocations shadow := by
        intro address base inside
        rw [accessible_mapShadowForRegion shadowed]
        exact tracked.shows address base inside
      have room : size + 2 * config.pageSize ≤ mappingSize config size :=
        room_mappingSize size
      have beside :
          Beside config self.allocations self.allocationQueue
            (self.currentMappingAddr + mappingSize config size)
            (self.currentMappingAddr + config.pageSize,
              ⟨self.currentMappingAddr, size, mappingSize config size, false, false⟩) := by
        refine ⟨⟨rfl, room⟩, ⟨tracked.base_le, tracked.eight_dvd, le_rfl, ?_⟩, ?_⟩
        · exact (Nat.le_add_left _ _).trans room
        · rintro metadata isMetadata ⟨address, inNew, inOld⟩
          have le_current := (tracked.placed metadata isMetadata).le_current
          exact absurd inOld.2 (Nat.not_lt.mpr (le_current.trans inNew.1))
      obtain ⟨nextTracked, allocations_eq, total_eq⟩ :=
        serve_eq_some (tracked.extend (eight_dvd_mappingSize size) (maps rfl) shows) beside
          rfl served
      exact ⟨nextTracked, _, allocations_eq, total_eq, rfl, rfl⟩

theorem alloc_eq_some
    (tracked : self.IsTracked config)
    (maps :
      mapped = true →
        self.currentMappingAddr + mappingSize config (requested size) ≤ config.addressLimit)
    (allocated : self.alloc config size mapped = some (ptr, next)) :
    (¬ self.Grants config size ∧ ptr = 0 ∧ next = self) ∨
      self.Grants config size ∧ next.IsTracked config ∧
        next.totalAllocationSize =
            self.totalAllocationSize + mappingSize config (requested size) ∧
          ((findFit (mappingSize config (requested size)) self.allocationQueue = none ∧
              mapped = false ∧ ptr = 0 ∧ next.allocations = self.allocations) ∨
            ∃ metadata,
              next.allocations = (ptr, metadata) :: self.allocations ∧
                metadata.freed = false ∧
                  ((∃ fit queue,
                    findFit (mappingSize config (requested size)) self.allocationQueue =
                      some (fit, queue) ∧ fit.actualSize = metadata.actualSize) ∨
                    findFit (mappingSize config (requested size)) self.allocationQueue =
                        none ∧
                      mapped = true ∧
                        metadata.actualSize = mappingSize config (requested size))) := by
  rcases alloc_cases allocated with refused | ⟨granted, ⟨fit, queue, found, served⟩ | ⟨noFit, isNew⟩⟩
  · exact .inl refused
  · refine .inr ⟨granted, ?_⟩
    obtain ⟨popped, placed, apart⟩ := tracked.pop found
    obtain ⟨_, fits, notFreed, _⟩ := findFit_eq_some tracked.queued found
    let rest : Allocator := { self.charged config size with allocationQueue := queue }
    let metadata : AllocationMetadata :=
      { fit with isMallocZero := size = 0, size := requested size }
    have restTracked : rest.IsTracked config := popped
    have live : metadata.freed = false := notFreed
    have beside :
        Beside config rest.allocations rest.allocationQueue rest.currentMappingAddr
          (metadata.address + config.pageSize, metadata) :=
      ⟨⟨rfl, (room_mappingSize _).trans fits⟩,
        ⟨placed.base_le, placed.eight_dvd, placed.le_current, placed.pages_le⟩, apart⟩
    obtain ⟨nextTracked, allocations_eq, total_eq⟩ :=
      serve_eq_some restTracked beside live served
    exact
      ⟨nextTracked, total_eq,
        .inr ⟨metadata, allocations_eq, live, .inl ⟨fit, queue, found, rfl⟩⟩⟩
  · refine .inr ⟨granted, ?_⟩
    have chargedTracked : (self.charged config size).IsTracked config := tracked
    rcases mapNew_eq_some chargedTracked maps isNew with
      ⟨unmapped, rfl, rfl⟩ |
        ⟨isMapped, nextTracked, metadata, allocations_eq, total_eq, actual_eq, notFreed⟩
    · exact ⟨tracked, rfl, .inl ⟨noFit, unmapped, rfl, rfl⟩⟩
    · exact
        ⟨nextTracked, total_eq,
          .inr ⟨metadata, allocations_eq, notFreed, .inr ⟨noFit, isMapped, actual_eq⟩⟩⟩

theorem release_eq_some
    {errors : List AsanError}
    (tracked : self.IsTracked config)
    (released : self.release config ptr = some (errors, next)) :
    (get self.allocations ptr = none ∧ next = self) ∨
      ∃ metadata rest,
        get self.allocations ptr = some metadata ∧
          self.allocations.Perm ((ptr, metadata) :: rest) ∧
            next.allocations.Perm ((ptr, { metadata with freed := true }) :: rest) ∧
              next.IsTracked config ∧
                next.totalAllocationSize = self.totalAllocationSize := by
  rw [release] at released
  split at released
  · rename_i unknown
    refine .inl ⟨unknown, ?_⟩
    split at released
    · exact (Prod.mk.inj (Option.some.inj released)).2.symm
    · obtain ⟨_, _, rest⟩ := Option.bind_eq_some_iff.mp released
      exact (Prod.mk.inj (Option.some.inj rest)).2.symm
  · rename_i metadata found
    refine .inr ⟨metadata, self.allocations.erase (ptr, metadata), found, ?_⟩
    obtain ⟨_, _, poisoning⟩ := Option.bind_eq_some_iff.mp released
    obtain ⟨shadow, marked, rest⟩ := Option.bind_eq_some_iff.mp poisoning
    obtain ⟨_, rfl⟩ := Prod.mk.inj (Option.some.inj rest)
    have isPerm := List.perm_cons_erase (mem_of_get found)
    have split := tracked.perm isPerm
    have beside := split.beside
    have poisoned := split.poison marked
    have inserted :
        (insert self.allocations ptr { metadata with freed := true }).Perm
          ((ptr, { metadata with freed := true }) ::
            self.allocations.erase (ptr, metadata)) :=
      insert_perm isPerm (beside.fresh poisoned.fits)
    refine ⟨isPerm, inserted, Tracked.perm ?_ inserted.symm, rfl⟩
    have besideFreed :
        Beside config (self.allocations.erase (ptr, metadata)) self.allocationQueue
          self.currentMappingAddr (ptr, { metadata with freed := true }) := by
      have placed := beside.placed
      exact
        ⟨⟨beside.fits.key_eq, beside.fits.room⟩,
          ⟨placed.base_le, placed.eight_dvd, placed.le_current, placed.pages_le⟩,
          beside.apart⟩
    have notLive : ¬ Live (ptr, { metadata with freed := true }) := by
      simp [Live]
    exact poisoned.cons besideFreed ((shows_cons_of_not_live notLive).mpr poisoned.shows)

/-- The entry that an allocation has in the table. -/
def entryOf (config : Config) (metadata : AllocationMetadata) : Entry :=
  (metadata.address + config.pageSize, metadata)

theorem entryOf_snd (fits : Fits config entry) : entryOf config entry.2 = entry :=
  Prod.ext fits.key_eq.symm rfl

theorem drain_eq_some
    {drained : List Entry}
    {tmpAllocations kept : List AllocationMetadata}
    (tracked :
      Tracked config (tmpAllocations.map (entryOf config) ++ drained) self.allocationQueue
        self.currentMappingAddr self.shadow)
    (isDrained : drain config drained self tmpAllocations = some (next, kept)) :
    kept.map (entryOf config) =
        tmpAllocations.map (entryOf config) ++ drained.filter Live ∧
      Tracked config (kept.map (entryOf config)) next.allocationQueue
          next.currentMappingAddr next.shadow ∧
        next.allocations = self.allocations := by
  induction drained generalizing self tmpAllocations with
  | nil =>
      obtain ⟨rfl, rfl⟩ := Prod.mk.inj (Option.some.inj isDrained)
      rw [List.append_nil] at tracked
      exact ⟨by simp, tracked, rfl⟩
  | cons entry rest ih =>
      obtain ⟨address, allocation⟩ := entry
      have split := tracked.perm List.perm_middle
      have beside := split.beside
      rw [drain] at isDrained
      split at isDrained
      · rename_i live
        have isLive : Live (address, allocation) := live
        have own : entryOf config allocation = (address, allocation) := entryOf_snd beside.fits
        have moved :
            (tmpAllocations ++ [allocation]).map (entryOf config) ++ rest =
              tmpAllocations.map (entryOf config) ++ (address, allocation) :: rest := by
          simp [own]
        rw [← moved] at tracked
        obtain ⟨kept_eq, keptTracked, same⟩ := ih tracked isDrained
        refine ⟨?_, keptTracked, same⟩
        rw [kept_eq, List.filter_cons, if_pos (decide_eq_true isLive)]
        simp [own]
      · rename_i notLive
        have isFreed : ¬ Live (address, allocation) := notLive
        obtain ⟨shadow, marked, further⟩ := Option.bind_eq_some_iff.mp isDrained
        have pushed := (split.poison marked).push beside
        obtain ⟨kept_eq, keptTracked, same⟩ := ih pushed further
        refine ⟨?_, keptTracked, same⟩
        rw [kept_eq, List.filter_cons, if_neg (by simp [isFreed])]

theorem foldl_insert_perm
    {tmpAllocations : List AllocationMetadata}
    (tracked :
      Tracked config (tmpAllocations.map (entryOf config) ++ allocations) queue current
        shadow) :
    (tmpAllocations.foldl
        (fun allocations allocation =>
          insert allocations (allocation.address + config.pageSize) allocation)
        allocations).Perm
      (tmpAllocations.map (entryOf config) ++ allocations) := by
  induction tmpAllocations generalizing allocations with
  | nil =>
      exact .refl _
  | cons allocation rest ih =>
      have tracked : Tracked config
          (entryOf config allocation :: (rest.map (entryOf config) ++ allocations)) queue current
          shadow := tracked
      have fresh :=
        tracked.beside.fresh (List.forall_mem_cons.mp tracked.fits).2
      have inserted :
          insert allocations (allocation.address + config.pageSize) allocation =
            entryOf config allocation :: allocations :=
        insert_of_fresh fun other isOther => fresh other (List.mem_append_right _ isOther)
      rw [List.foldl_cons, inserted]
      exact (ih (tracked.perm List.perm_middle.symm)).trans List.perm_middle

theorem reset_eq_some
    {drained : List Entry}
    (tracked : self.IsTracked config)
    (isPerm : drained.Perm self.allocations)
    (isReset : self.reset config drained = some next) :
    next.IsTracked config ∧
      next.allocations.Perm (self.allocations.filter Live) ∧
        next.totalAllocationSize = 0 := by
  obtain ⟨⟨middle, kept⟩, isDrained, rest⟩ := Option.bind_eq_some_iff.mp isReset
  obtain rfl := Option.some.inj rest
  let empty : Allocator := { self with allocations := [] }
  have before :
      Tracked config ([].map (entryOf config) ++ drained) empty.allocationQueue
        empty.currentMappingAddr empty.shadow :=
    tracked.perm isPerm.symm
  obtain ⟨kept_eq, keptTracked, same⟩ := drain_eq_some before isDrained
  have filtered : (kept.map (entryOf config)).Perm (self.allocations.filter Live) := by
    rw [kept_eq]
    exact isPerm.filter _
  have emptied : middle.allocations = [] := same
  rw [← List.append_nil (kept.map (entryOf config)), ← emptied] at keptTracked
  have inserted := foldl_insert_perm keptTracked
  refine ⟨Tracked.perm keptTracked inserted.symm, ?_, rfl⟩
  refine inserted.trans ?_
  rw [emptied, List.append_nil]
  exact filtered

end Allocator

end

end MeFuzz.Asan
