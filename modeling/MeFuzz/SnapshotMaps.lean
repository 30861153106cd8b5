import MeFuzz.IntervalMaps
import MeFuzz.TransitionRun

namespace MeFuzz.Snapshot

/-!
# The maps of a snapshot

After a snapshot the helper follows what the target maps, changes and unmaps, as
intervals of addresses with permissions and as the total size of all of them.  An
operation that adds up to an address behind the last one panics.
-/

/-- `SNAPSHOT_PAGE_SIZE`. -/
def snapshotPageSize : Nat :=
  4096

/-- `MemoryRegionInfo`. -/
structure MemoryRegionInfo (Perms : Type) where
  perms : Option Perms
  changed : Bool

/-- `MappingInfo`. -/
structure MappingInfo (Tree : Type) where
  tree : Tree
  size : Nat

/-- `QemuSnapshotHelper`, with how often the execution was stopped. -/
structure QemuSnapshotHelper (Tree : Type) where
  newMaps : MappingInfo Tree
  dirty : List Nat
  mmapLimit : Nat
  stops : Nat

variable {Tree Perms : Type}

/-- The trees of the helper. -/
abbrev Regions (Tree Perms : Type) :=
  IntervalMap Tree (MemoryRegionInfo Perms)

/-- A mapping of the emulator. -/
structure Mapping (Perms : Type) where
  interval : Interval
  flags : Perms

/-- A sum of addresses or sizes; `none` when it panics. -/
def checked (sum : Nat) : Option Nat :=
  if sum < 2 ^ 64 then some sum else none

/-- A size rounded up to whole pages. -/
def roundUp (size : Nat) : Nat :=
  if size % snapshotPageSize ≠ 0 then
    size + (snapshotPageSize - size % snapshotPageSize)
  else size

/-- The interval that an operation is about; `none` when a sum in it panics. -/
def intervalOf (start size : Nat) : Option Interval := do
  let size ← checked (roundUp size)
  let stop ← checked (start + size)
  some ⟨start, stop⟩

/-- The loop over the mappings in `snapshot`. -/
def MappingInfo.add
    (regions : Regions Tree Perms)
    (info : MappingInfo Tree)
    (mapping : Mapping Perms) : MappingInfo Tree where
  tree := regions.insert info.tree mapping.interval ⟨some mapping.flags, false⟩
  size := info.size + (mapping.interval.stop - mapping.interval.start)

/-- `snapshot`, of a new helper. -/
def QemuSnapshotHelper.snapshot
    (regions : Regions Tree Perms)
    (mmapLimit : Nat)
    (mappings : List (Mapping Perms)) : QemuSnapshotHelper Tree where
  newMaps := mappings.foldl (MappingInfo.add regions) ⟨regions.empty, 0⟩
  dirty := []
  mmapLimit := mmapLimit
  stops := 0

/-- The pages that an interval begins. -/
def pagesOf (interval : Interval) : List Nat :=
  (List.range ((interval.length + (snapshotPageSize - 1)) / snapshotPageSize)).map
    fun page => interval.start + page * snapshotPageSize

/-- The intervals that overlap, with their permissions. -/
def found
    (regions : Regions Tree Perms)
    (tree : Tree)
    (interval : Interval) : List (Interval × Option Perms) :=
  (regions.query tree interval).map fun entry => (entry.1, entry.2.perms)

/-- What the loops over the intervals found do with the tree. -/
def splitOut
    (regions : Regions Tree Perms)
    (interval : Interval)
    (tree : Tree)
    (entry : Interval × Option Perms) : Option Tree := do
  let overlap ← regions.intersect entry.1 interval
  some (regions.cutOut tree entry.1 overlap ⟨entry.2, true⟩)

namespace QemuSnapshotHelper

variable (regions : Regions Tree Perms) (self : QemuSnapshotHelper Tree)

/-- `add_mapped`. -/
def addMapped
    (start size : Nat)
    (perms : Option Perms) : Option (QemuSnapshotHelper Tree) :=
  if size = 0 then some self
  else do
    let interval ← intervalOf start size
    let totalSize ← checked (self.newMaps.size + roundUp size)
    let tree := regions.insert self.newMaps.tree interval ⟨perms, true⟩
    some
      { self with
        newMaps := ⟨tree, totalSize⟩
        stops :=
          if self.mmapLimit ≠ 0 ∧ totalSize > self.mmapLimit then self.stops + 1
          else self.stops }

/-- `change_mapped`. -/
def changeMapped
    (start size : Nat)
    (perms : Option Perms) : Option (QemuSnapshotHelper Tree) := do
  let interval ← intervalOf start size
  let tree ←
    (found regions self.newMaps.tree interval).foldlM (splitOut regions interval)
      self.newMaps.tree
  some
    { self with
      newMaps :=
        ⟨regions.insert tree interval ⟨perms, true⟩, self.newMaps.size⟩ }

/-- The body of the loop of `remove_mapped`. -/
def removeFound
    (interval : Interval)
    (done : Tree × List Nat)
    (entry : Interval × Option Perms) : Option (Tree × List Nat) := do
  let tree ← splitOut regions interval done.1 entry
  some (tree, done.2 ++ pagesOf entry.1)

/-- `remove_mapped`. -/
def removeMapped (start size : Nat) : Option (QemuSnapshotHelper Tree) := do
  let interval ← intervalOf start size
  let done ←
    (found regions self.newMaps.tree interval).foldlM (removeFound regions interval)
      (self.newMaps.tree, self.dirty)
  some
    { self with
      newMaps := ⟨done.1, self.newMaps.size⟩
      dirty := done.2 }

end QemuSnapshotHelper

/-- What the target does. -/
inductive Operation (Perms : Type) where
  | addMapped (start size : Nat) (perms : Option Perms)
  | changeMapped (start size : Nat) (perms : Option Perms)
  | removeMapped (start size : Nat)

/-- What each address has been given last, if anything. -/
abbrev LastWriter (Perms : Type) :=
  Nat → Option (Option Perms)

/-- The addresses of an interval are given something. -/
def LastWriter.write
    (last : LastWriter Perms)
    (interval : Interval)
    (given : Option (Option Perms)) : LastWriter Perms :=
  fun address => if interval.Contains address then given else last address

/-- A mapping gives its addresses permissions. -/
def LastWriter.map
    (last : LastWriter Perms)
    (mapping : Mapping Perms) : LastWriter Perms :=
  last.write mapping.interval (some (some mapping.flags))

/-- The whole pages that an operation covers. -/
def covered (start size : Nat) : Interval :=
  ⟨start, start + roundUp size⟩

/-- An operation gives its addresses new permissions or none. -/
def LastWriter.next (last : LastWriter Perms) : Operation Perms → LastWriter Perms
  | .addMapped start size perms => last.write (covered start size) (some perms)
  | .changeMapped start size perms => last.write (covered start size) (some perms)
  | .removeMapped start size => last.write (covered start size) none

/-- The helper, and what has been done to each address. -/
structure Tracked (Tree Perms : Type) where
  helper : QemuSnapshotHelper Tree
  last : LastWriter Perms

/-- What an operation does to the helper; `none` when it panics. -/
def QemuSnapshotHelper.apply
    (regions : Regions Tree Perms)
    (self : QemuSnapshotHelper Tree) : Operation Perms → Option (QemuSnapshotHelper Tree)
  | .addMapped start size perms => self.addMapped regions start size perms
  | .changeMapped start size perms => self.changeMapped regions start size perms
  | .removeMapped start size => self.removeMapped regions start size

/-- An operation. -/
def Tracked.step?
    (regions : Regions Tree Perms)
    (tracked : Tracked Tree Perms)
    (operation : Operation Perms) : Option (Tracked Tree Perms) :=
  (tracked.helper.apply regions operation).map fun helper =>
    ⟨helper, tracked.last.next operation⟩

/-- A snapshot was taken. -/
def Tracked.snapshot
    (regions : Regions Tree Perms)
    (mmapLimit : Nat)
    (mappings : List (Mapping Perms)) : Tracked Tree Perms where
  helper := .snapshot regions mmapLimit mappings
  last := mappings.foldl LastWriter.map fun _ => none

/-- An address is in an interval with these permissions. -/
def Given
    (regions : Regions Tree Perms)
    (tree : Tree)
    (address : Nat)
    (perms : Option Perms) : Prop :=
  ∃ changed, regions.Holds tree address ⟨perms, changed⟩

/-- The intervals are disjoint, and their permissions are those given last. -/
structure Tracks
    (regions : Regions Tree Perms)
    (tree : Tree)
    (last : LastWriter Perms) : Prop where
  disjoint : regions.Disjoint tree
  perms :
    ∀ address perms, Given regions tree address perms ↔ last address = some perms

/-- Besides, the lengths of the intervals sum up to the size. -/
structure Accurate
    (regions : Regions Tree Perms)
    (info : MappingInfo Tree)
    (last : LastWriter Perms) : Prop where
  tracks : Tracks regions info.tree last
  size : info.size = regions.total info.tree

/-- The helper accounts for what has been done to each address. -/
def Tracked.Accurate (regions : Regions Tree Perms) (tracked : Tracked Tree Perms) : Prop :=
  Snapshot.Accurate regions tracked.helper.newMaps tracked.last

/-- What an operation has to find. -/
def Expected
    (regions : Regions Tree Perms)
    (tracked : Tracked Tree Perms) : Operation Perms → Prop
  | .addMapped start size _ =>
      ∀ address, (covered start size).Contains address →
        ¬ regions.Mapped tracked.helper.newMaps.tree address
  | .changeMapped start size _ =>
      ∀ address, (covered start size).Contains address →
        regions.Mapped tracked.helper.newMaps.tree address
  | .removeMapped start size =>
      ∀ address, (covered start size).Contains address →
        ¬ regions.Mapped tracked.helper.newMaps.tree address

section

variable {regions : Regions Tree Perms} {tree : Tree} {address : Nat}

theorem mapped_iff_given :
    regions.Mapped tree address ↔ ∃ perms, Given regions tree address perms := by
  constructor
  · rintro ⟨⟨perms, changed⟩, holds⟩
    exact ⟨perms, changed, holds⟩
  · rintro ⟨perms, changed, holds⟩
    exact ⟨⟨perms, changed⟩, holds⟩

theorem given_insert
    {interval : Interval}
    {perms given : Option Perms}
    {changed : Bool}
    (apart : regions.Apart tree interval) :
    Given regions (regions.insert tree interval ⟨perms, changed⟩) address given ↔
      given = perms ∧ interval.Contains address ∨ Given regions tree address given := by
  unfold Given
  simp only [IntervalMap.holds_insert apart]
  constructor
  · rintro ⟨_, ⟨same, inside⟩ | holds⟩
    · exact .inl ⟨congrArg MemoryRegionInfo.perms same, inside⟩
    · exact .inr ⟨_, holds⟩
  · rintro (⟨rfl, inside⟩ | ⟨kept, holds⟩)
    · exact ⟨changed, .inl ⟨rfl, inside⟩⟩
    · exact ⟨kept, .inr holds⟩

theorem given_cutOut
    {entry : Interval × MemoryRegionInfo Perms}
    {other : Interval}
    {given : Option Perms}
    (disjoint : regions.Disjoint tree)
    (member : entry ∈ regions.entries tree)
    (overlaps : entry.1.Overlaps other) :
    Given regions
        (regions.cutOut tree entry.1 (entry.1.common other) ⟨entry.2.perms, true⟩) address
        given ↔
      Given regions tree address given ∧
        ¬ (entry.1.Contains address ∧ other.Contains address) := by
  unfold Given
  simp only [IntervalMap.holds_cutOut disjoint member overlaps]
  constructor
  · rintro ⟨changed, ⟨same, inside, outside⟩ | ⟨holds, outside⟩⟩
    · obtain rfl : given = entry.2.perms := congrArg MemoryRegionInfo.perms same
      exact ⟨⟨entry.2.changed, entry.1, member, inside⟩, fun both => outside both.2⟩
    · exact ⟨⟨changed, holds⟩, fun both => outside both.1⟩
  · rintro ⟨⟨changed, interval, isEntry, inside⟩, notBoth⟩
    by_cases insideEntry : entry.1.Contains address
    · have same := disjoint isEntry member ⟨address, inside, insideEntry⟩
      refine ⟨true, .inl ⟨?_, insideEntry, fun outside => notBoth ⟨insideEntry, outside⟩⟩⟩
      rw [← same]
    · exact ⟨changed, .inr ⟨⟨interval, isEntry, inside⟩, insideEntry⟩⟩

theorem foldlM_splitOut
    (interval : Interval)
    (rest : List (Interval × Option Perms)) :
    ∀ tree,
      regions.Disjoint tree →
        (rest.map Prod.fst).Nodup →
          (∀ entry ∈ rest,
              entry.1.Overlaps interval ∧
                ∃ changed, (entry.1, ⟨entry.2, changed⟩) ∈ regions.entries tree) →
            ∃ next,
              rest.foldlM (splitOut regions interval) tree = some next ∧
                regions.Disjoint next ∧
                  ∀ address given,
                    Given regions next address given ↔
                      Given regions tree address given ∧
                        ∀ entry ∈ rest,
                          ¬ (entry.1.Contains address ∧ interval.Contains address) := by
  induction rest with
  | nil =>
      intro tree disjoint _ _
      exact ⟨tree, rfl, disjoint, by simp⟩
  | cons entry rest ih =>
      intro tree disjoint distinct inTree
      obtain ⟨overlaps, changed, member⟩ := inTree entry List.mem_cons_self
      obtain ⟨notRest, distinctRest⟩ := List.nodup_cons.mp distinct
      have split :
          splitOut regions interval tree entry =
            some
              (regions.cutOut tree entry.1 (entry.1.common interval) ⟨entry.2, true⟩) := by
        rw [splitOut, regions.intersect_common overlaps]
        rfl
      have stillInTree :
          ∀ other ∈ rest,
            other.1.Overlaps interval ∧
              ∃ changed,
                (other.1, ⟨other.2, changed⟩) ∈
                  regions.entries
                    (regions.cutOut tree entry.1 (entry.1.common interval)
                      ⟨entry.2, true⟩) := by
        intro other isOther
        obtain ⟨otherOverlaps, otherChanged, otherMember⟩ :=
          inTree other (List.mem_cons_of_mem _ isOther)
        refine ⟨otherOverlaps, otherChanged, ?_⟩
        refine IntervalMap.mem_cutOut disjoint member overlaps otherMember fun same => ?_
        exact notRest (same ▸ List.mem_map_of_mem isOther)
      obtain ⟨next, folds, disjointNext, givenNext⟩ :=
        ih _ (disjoint.cutOut member overlaps) distinctRest stillInTree
      refine ⟨next, ?_, disjointNext, fun address given => ?_⟩
      · rw [List.foldlM_cons, split]
        exact folds
      · rw [givenNext, given_cutOut disjoint member overlaps, List.forall_mem_cons,
          and_assoc]

theorem foldlM_found
    (interval : Interval)
    (disjoint : regions.Disjoint tree) :
    ∃ next,
      (found regions tree interval).foldlM (splitOut regions interval) tree = some next ∧
        regions.Disjoint next ∧
          ∀ address given,
            Given regions next address given ↔
              Given regions tree address given ∧ ¬ interval.Contains address := by
  have inTree :
      ∀ entry ∈ found regions tree interval,
        entry.1.Overlaps interval ∧
          ∃ changed, (entry.1, ⟨entry.2, changed⟩) ∈ regions.entries tree := by
    intro entry member
    obtain ⟨⟨other, perms, changed⟩, isFound, rfl⟩ := List.mem_map.mp member
    obtain ⟨isEntry, overlaps⟩ := regions.mem_query.mp isFound
    exact ⟨overlaps, changed, isEntry⟩
  have distinct : ((found regions tree interval).map Prod.fst).Nodup := by
    rw [found, List.map_map]
    refine (regions.query_nodup tree interval).map_on ?_
    intro one isOne other isOther same
    exact List.inj_on_of_nodup_map (regions.keys_nodup tree) (regions.mem_query.mp isOne).1
      (regions.mem_query.mp isOther).1 same
  obtain ⟨next, folds, disjointNext, givenNext⟩ :=
    foldlM_splitOut interval _ tree disjoint distinct inTree
  refine ⟨next, folds, disjointNext, fun address given => ?_⟩
  rw [givenNext]
  refine and_congr_right fun ⟨changed, other, member, insideOther⟩ => ?_
  constructor
  · intro outside inside
    have overlaps : other.Overlaps interval := ⟨address, insideOther, inside⟩
    have isFound : (other, given) ∈ found regions tree interval :=
      List.mem_map.mpr
        ⟨(other, ⟨given, changed⟩), regions.mem_query.mpr ⟨member, overlaps⟩, rfl⟩
    exact outside _ isFound ⟨insideOther, inside⟩
  · intro outside _ _ both
    exact outside both.2

end

section

variable {regions : Regions Tree Perms} {tree next : Tree} {info : MappingInfo Tree}
variable {last : LastWriter Perms} {interval : Interval}

/-- The addresses of an interval. -/
def addresses (interval : Interval) : Finset Nat :=
  Finset.Ico interval.start interval.stop

theorem mem_addresses {address : Nat} :
    address ∈ addresses interval ↔ interval.Contains address :=
  Finset.mem_Ico

theorem write_eq_some
    {address : Nat}
    {given : Option (Option Perms)}
    {perms : Option Perms} :
    last.write interval given address = some perms ↔
      given = some perms ∧ interval.Contains address ∨
        last address = some perms ∧ ¬ interval.Contains address := by
  unfold LastWriter.write
  by_cases inside : interval.Contains address
  · rw [if_pos inside]
    simp [inside]
  · rw [if_neg inside]
    simp [inside]

theorem Tracks.mapped_iff
    {address : Nat}
    (tracks : Tracks regions tree last) :
    regions.Mapped tree address ↔ ∃ perms, last address = some perms := by
  rw [mapped_iff_given]
  exact exists_congr fun perms => tracks.perms address perms

theorem Tracks.points_write_some
    {perms : Option Perms}
    (tracks : Tracks regions tree last)
    (tracksNext : Tracks regions next (last.write interval (some perms))) :
    regions.points next = regions.points tree ∪ addresses interval := by
  refine Finset.ext fun address => ?_
  rw [Finset.mem_union, IntervalMap.mem_points, IntervalMap.mem_points, mem_addresses,
    tracks.mapped_iff, tracksNext.mapped_iff]
  unfold LastWriter.write
  by_cases inside : interval.Contains address
  · simp [inside]
  · simp [inside]

theorem Tracks.points_write_none
    (tracks : Tracks regions tree last)
    (tracksNext : Tracks regions next (last.write interval none)) :
    regions.points next = regions.points tree \ addresses interval := by
  refine Finset.ext fun address => ?_
  rw [Finset.mem_sdiff, IntervalMap.mem_points, IntervalMap.mem_points, mem_addresses,
    tracks.mapped_iff, tracksNext.mapped_iff]
  unfold LastWriter.write
  by_cases inside : interval.Contains address
  · simp [inside]
  · simp [inside]

theorem Tracks.accurate_iff
    (info : MappingInfo Tree)
    (tracks : Tracks regions info.tree last) :
    Accurate regions info last ↔ info.size = (regions.points info.tree).card := by
  rw [IntervalMap.card_points tracks.disjoint]
  exact ⟨Accurate.size, fun size => ⟨tracks, size⟩⟩

theorem Tracks.insert
    {perms : Option Perms}
    {changed : Bool}
    (tracks : Tracks regions tree last)
    (apart : regions.Apart tree interval) :
    Tracks regions (regions.insert tree interval ⟨perms, changed⟩)
      (last.write interval (some perms)) where
  disjoint := tracks.disjoint.insert apart
  perms := by
    intro address given
    rw [given_insert apart, write_eq_some, tracks.perms, Option.some_inj,
      eq_comm (a := given)]
    refine or_congr_right (iff_self_and.mpr fun isLast inside => ?_)
    exact IntervalMap.apart_iff.mp apart address inside
      (tracks.mapped_iff.mpr ⟨given, isLast⟩)

theorem Tracks.takeOut (tracks : Tracks regions tree last) :
    ∃ next,
      (found regions tree interval).foldlM (splitOut regions interval) tree = some next ∧
        Tracks regions next (last.write interval none) ∧ regions.Apart next interval := by
  obtain ⟨next, folds, disjoint, given⟩ := foldlM_found interval tracks.disjoint
  have tracksNext : Tracks regions next (last.write interval none) := by
    refine ⟨disjoint, fun address perms => ?_⟩
    rw [given, tracks.perms, write_eq_some]
    simp
  refine ⟨next, folds, tracksNext, IntervalMap.apart_iff.mpr ?_⟩
  intro address inside mapped
  obtain ⟨perms, isLast⟩ := tracksNext.mapped_iff.mp mapped
  rw [LastWriter.write, if_pos inside] at isLast
  cases isLast

theorem write_write (given later : Option (Option Perms)) :
    (last.write interval given).write interval later = last.write interval later := by
  funext address
  unfold LastWriter.write
  by_cases inside : interval.Contains address
  · simp [inside]
  · simp [inside]

theorem Accurate.insert_iff
    {perms : Option Perms}
    {changed : Bool}
    (accurate : Accurate regions info last) :
    Accurate regions
        ⟨regions.insert info.tree interval ⟨perms, changed⟩,
          info.size + (addresses interval).card⟩
        (last.write interval (some perms)) ↔
      ∀ address, interval.Contains address → ¬ regions.Mapped info.tree address := by
  have size := (accurate.tracks.accurate_iff info).mp accurate
  rw [← IntervalMap.apart_iff]
  constructor
  · intro added
    have sizes := (Tracks.accurate_iff _ added.tracks).mp added
    dsimp only at sizes
    rw [accurate.tracks.points_write_some added.tracks, size] at sizes
    have separate := Finset.card_union_eq_card_add_card.mp sizes.symm
    refine IntervalMap.apart_iff.mpr fun address inside mapped => ?_
    exact Finset.disjoint_left.mp separate (IntervalMap.mem_points.mpr mapped)
      (mem_addresses.mpr inside)
  · intro apart
    have tracks :
        Tracks regions (regions.insert info.tree interval ⟨perms, changed⟩)
          (last.write interval (some perms)) :=
      accurate.tracks.insert apart
    refine (Tracks.accurate_iff ⟨_, _⟩ tracks).mpr ?_
    rw [accurate.tracks.points_write_some tracks, size]
    refine (Finset.card_union_of_disjoint (Finset.disjoint_left.mpr ?_)).symm
    intro address mapped inside
    exact IntervalMap.apart_iff.mp apart address (mem_addresses.mp inside)
      (IntervalMap.mem_points.mp mapped)

theorem Accurate.points_write_some_iff
    {perms : Option Perms}
    (accurate : Accurate regions info last)
    (tracks : Tracks regions next (last.write interval (some perms))) :
    Accurate regions ⟨next, info.size⟩ (last.write interval (some perms)) ↔
      ∀ address, interval.Contains address → regions.Mapped info.tree address := by
  have size := (accurate.tracks.accurate_iff info).mp accurate
  rw [Tracks.accurate_iff ⟨next, info.size⟩ tracks]
  dsimp only
  rw [accurate.tracks.points_write_some tracks, size]
  constructor
  · intro sameSize address inside
    have same :=
      Finset.eq_of_subset_of_card_le Finset.subset_union_left sameSize.ge
    rw [← IntervalMap.mem_points, same]
    exact Finset.mem_union_right _ (mem_addresses.mpr inside)
  · intro mapped
    rw [Finset.union_eq_left.mpr fun address inside =>
      IntervalMap.mem_points.mpr (mapped address (mem_addresses.mp inside))]

theorem Accurate.points_write_none_iff
    (accurate : Accurate regions info last)
    (tracks : Tracks regions next (last.write interval none)) :
    Accurate regions ⟨next, info.size⟩ (last.write interval none) ↔
      ∀ address, interval.Contains address → ¬ regions.Mapped info.tree address := by
  have size := (accurate.tracks.accurate_iff info).mp accurate
  rw [Tracks.accurate_iff ⟨next, info.size⟩ tracks]
  dsimp only
  rw [accurate.tracks.points_write_none tracks, size]
  constructor
  · intro sameSize address inside mapped
    have same :=
      Finset.eq_of_subset_of_card_le Finset.sdiff_subset sameSize.le
    have isLeft := IntervalMap.mem_points.mpr mapped
    rw [← same] at isLeft
    exact (Finset.mem_sdiff.mp isLeft).2 (mem_addresses.mpr inside)
  · intro unmapped
    rw [Finset.sdiff_eq_self_of_disjoint (Finset.disjoint_left.mpr fun address mapped inside =>
      unmapped address (mem_addresses.mp inside) (IntervalMap.mem_points.mp mapped))]

end

section

variable {regions : Regions Tree Perms} {tracked next : Tracked Tree Perms}

theorem checked_eq_some {sum result : Nat} (isSome : checked sum = some result) :
    result = sum := by
  unfold checked at isSome
  split at isSome
  · exact (Option.some.inj isSome).symm
  · cases isSome

theorem intervalOf_eq_some
    {start size : Nat}
    {interval : Interval}
    (isSome : intervalOf start size = some interval) :
    interval = covered start size := by
  obtain ⟨rounded, isRounded, later⟩ := Option.bind_eq_some_iff.mp isSome
  obtain ⟨stop, isStop, isInterval⟩ := Option.bind_eq_some_iff.mp later
  rw [checked_eq_some isRounded] at isStop
  rw [checked_eq_some isStop] at isInterval
  exact (Option.some.inj isInterval).symm

theorem write_covered_zero
    (last : LastWriter Perms)
    (start : Nat)
    (given : Option (Option Perms)) :
    last.write (covered start 0) given = last := by
  funext address
  refine if_neg ?_
  rintro ⟨lower, upper⟩
  exact Nat.lt_irrefl _ (lower.trans_lt upper)

theorem addMapped_eq_some
    {helper result : QemuSnapshotHelper Tree}
    {start size : Nat}
    {perms : Option Perms}
    (isSome : helper.addMapped regions start size perms = some result) :
    size = 0 ∧ result.newMaps = helper.newMaps ∨
      result.newMaps =
        ⟨regions.insert helper.newMaps.tree (covered start size) ⟨perms, true⟩,
          helper.newMaps.size + (addresses (covered start size)).card⟩ := by
  unfold QemuSnapshotHelper.addMapped at isSome
  by_cases isZero : size = 0
  · rw [if_pos isZero] at isSome
    exact .inl ⟨isZero, congrArg QemuSnapshotHelper.newMaps (Option.some.inj isSome).symm⟩
  · rw [if_neg isZero] at isSome
    obtain ⟨interval, isInterval, later⟩ := Option.bind_eq_some_iff.mp isSome
    obtain ⟨total, isTotal, isResult⟩ := Option.bind_eq_some_iff.mp later
    have isCard : (addresses (covered start size)).card = roundUp size := by
      rw [addresses, Nat.card_Ico, covered, Nat.add_sub_cancel_left]
    rw [intervalOf_eq_some isInterval, checked_eq_some isTotal] at isResult
    rw [← Option.some.inj isResult, isCard]
    exact .inr rfl

/-- The loop of `remove_mapped` does with the tree what the other one does. -/
theorem foldlM_removeFound
    {interval : Interval}
    (entries : List (Interval × Option Perms)) :
    ∀ (tree : Tree) (dirty : List Nat),
      entries.foldlM (QemuSnapshotHelper.removeFound regions interval) (tree, dirty) =
        (entries.foldlM (splitOut regions interval) tree).map fun next =>
          (next, dirty ++ entries.flatMap fun entry => pagesOf entry.1) := by
  induction entries with
  | nil =>
      intro tree dirty
      simp
  | cons entry rest ih =>
      intro tree dirty
      rw [List.foldlM_cons, List.foldlM_cons, QemuSnapshotHelper.removeFound]
      cases splitOut regions interval tree entry with
      | none =>
          rfl
      | some next =>
          simp [ih]

theorem accurate_step_iff
    {operation : Operation Perms}
    (accurate : tracked.Accurate regions)
    (taken : tracked.step? regions operation = some next) :
    next.Accurate regions ↔ Expected regions tracked operation := by
  unfold Tracked.Accurate at accurate ⊢
  obtain ⟨helper, isHelper, rfl⟩ := Option.map_eq_some_iff.mp taken
  cases operation with
  | addMapped start size perms =>
      rcases addMapped_eq_some isHelper with ⟨rfl, isSame⟩ | isInfo
      · rw [isSame, LastWriter.next, write_covered_zero]
        refine iff_of_true accurate ?_
        rintro address ⟨lower, upper⟩
        exact absurd (lower.trans_lt upper) (Nat.lt_irrefl _)
      · rw [isInfo]
        exact accurate.insert_iff
  | changeMapped start size perms =>
      obtain ⟨interval, isInterval, later⟩ := Option.bind_eq_some_iff.mp isHelper
      obtain rfl := intervalOf_eq_some isInterval
      obtain ⟨tree, folds, tracks, apart⟩ := accurate.tracks.takeOut
      rw [folds] at later
      obtain rfl := Option.some.inj later
      have written :
          Tracks regions (regions.insert tree (covered start size) ⟨perms, true⟩)
            ((tracked.last.write (covered start size) none).write (covered start size)
              (some perms)) :=
        tracks.insert apart
      rw [write_write] at written
      exact accurate.points_write_some_iff written
  | removeMapped start size =>
      obtain ⟨interval, isInterval, later⟩ := Option.bind_eq_some_iff.mp isHelper
      obtain rfl := intervalOf_eq_some isInterval
      obtain ⟨tree, folds, tracks, apart⟩ := accurate.tracks.takeOut
      rw [foldlM_removeFound, folds] at later
      obtain rfl := Option.some.inj later
      exact accurate.points_write_none_iff tracks

end

/-- Mappings of which no two have an address in common. -/
structure Mappings (Perms : Type) where
  list : List (Mapping Perms)
  disjoint : list.Pairwise fun one other => ¬ one.interval.Overlaps other.interval

theorem accurate_foldl
    (regions : Regions Tree Perms)
    (mappings : List (Mapping Perms))
    (disjoint :
      mappings.Pairwise fun one other => ¬ one.interval.Overlaps other.interval) :
    Accurate regions (mappings.foldl (MappingInfo.add regions) ⟨regions.empty, 0⟩)
        (mappings.foldl LastWriter.map fun _ => none) ∧
      ∀ address given,
        mappings.foldl LastWriter.map (fun _ => none) address = some given →
          ∃ mapping ∈ mappings, mapping.interval.Contains address := by
  induction mappings using List.reverseRecOn with
  | nil =>
      refine ⟨⟨⟨?_, ?_⟩, ?_⟩, fun _ _ isSome => by cases isSome⟩
      · intro one other isOne
        rw [List.foldl_nil, regions.entries_empty] at isOne
        exact absurd isOne List.not_mem_nil
      · intro address perms
        refine iff_of_false ?_ (fun isSome => by cases isSome)
        rintro ⟨changed, interval, member, _⟩
        rw [List.foldl_nil, regions.entries_empty] at member
        exact absurd member List.not_mem_nil
      · rw [List.foldl_nil, IntervalMap.total, regions.entries_empty]
        rfl
  | append_singleton front mapping ih =>
      obtain ⟨disjointFront, _, apartFront⟩ := List.pairwise_append.mp disjoint
      obtain ⟨accurate, fromFront⟩ := ih disjointFront
      rw [List.foldl_concat, List.foldl_concat]
      constructor
      · have isCard :
            (addresses mapping.interval).card =
              mapping.interval.stop - mapping.interval.start :=
          Nat.card_Ico _ _
        rw [MappingInfo.add, ← isCard]
        refine accurate.insert_iff.mpr fun address inside mapped => ?_
        obtain ⟨given, isSome⟩ := accurate.tracks.mapped_iff.mp mapped
        obtain ⟨other, isOther, insideOther⟩ := fromFront address given isSome
        exact apartFront other isOther mapping (List.mem_singleton_self _)
          ⟨address, insideOther, inside⟩
      · intro address given isSome
        rcases write_eq_some.mp isSome with ⟨_, inside⟩ | ⟨before, _⟩
        · exact ⟨mapping, by simp, inside⟩
        · obtain ⟨other, isOther, insideOther⟩ := fromFront address given before
          exact ⟨other, List.mem_append_left _ isOther, insideOther⟩

/--
All along a run the intervals are disjoint, have the permissions given last and sum up to
the size, if and only if nothing is added or removed where something is mapped, and
permissions are changed only where all is mapped.
-/
theorem always_accurate_iff
    (regions : Regions Tree Perms)
    (mmapLimit : Nat)
    (mappings : Mappings Perms)
    (operations : List (Operation Perms)) :
    Run.Always (.ofFunction (Tracked.step? regions)) (Tracked.Accurate regions)
        (.snapshot regions mmapLimit mappings.list) operations ↔
      Run.Everywhere (.ofFunction (Tracked.step? regions)) (Expected regions)
        (.snapshot regions mmapLimit mappings.list) operations := by
  have started :
      (Tracked.snapshot regions mmapLimit mappings.list).Accurate regions :=
    (accurate_foldl regions mappings.list mappings.disjoint).1
  refine Run.always_iff_everywhere ?_ started operations
  intro tracked operation next accurate taken
  exact accurate_step_iff accurate taken

/-- Entries with different keys. -/
abbrev ListTree (Value : Type) :=
  { entries : List (Interval × Value) // (entries.map Prod.fst).Nodup }

/-- A map of intervals that is a list of its entries. -/
def listMap (Value : Type) : IntervalMap (ListTree Value) Value where
  entries := Subtype.val
  empty := ⟨[], .nil⟩
  insert tree interval value :=
    ⟨(interval, value) :: tree.1.filter fun entry => entry.1 ≠ interval, by
      rw [List.map_cons, List.nodup_cons]
      refine ⟨?_, tree.2.sublist (List.filter_sublist.map _)⟩
      simp⟩
  delete tree interval :=
    ⟨tree.1.filter fun entry => entry.1 ≠ interval,
      tree.2.sublist (List.filter_sublist.map _)⟩
  query tree interval :=
    tree.1.filter fun entry =>
      max entry.1.start interval.start < min entry.1.stop interval.stop
  intersect one other := some (one.common other)
  keys_nodup tree := tree.2
  entries_empty := rfl
  mem_insert := by
    intro tree interval value entry
    simp
  mem_delete := by
    intro tree interval entry
    simp
  mem_query := by
    intro tree interval entry
    rw [List.mem_filter, decide_eq_true_eq, Interval.overlaps_iff]
  query_nodup tree interval := (List.Nodup.of_map _ tree.2).filter _
  intersect_common := fun _ => rfl

/-- A page that was mapped and removed still counts. -/
theorem not_accurate_after_removal :
    ¬ Run.Always (.ofFunction (Tracked.step? (listMap (MemoryRegionInfo Unit))))
        (Tracked.Accurate (listMap (MemoryRegionInfo Unit))) (.snapshot (listMap _) 0 [])
        [.addMapped 4096 4096 (some ()), .removeMapped 4096 4096] := by
  intro always
  have computed :
      (([.addMapped 4096 4096 (some ()), .removeMapped 4096 4096] :
            List (Operation Unit)).foldlM
          (Tracked.step? (listMap (MemoryRegionInfo Unit)))
          (.snapshot (listMap _) 0 [])).map
          (fun tracked =>
            (tracked.helper.newMaps.size,
              (listMap (MemoryRegionInfo Unit)).total tracked.helper.newMaps.tree)) =
        some (4096, 0) := by
    decide +kernel
  obtain ⟨tracked, run, sizes⟩ := Option.map_eq_some_iff.mp computed
  obtain ⟨isSize, isTotal⟩ := Prod.mk.inj sizes
  have accurate := always _ tracked List.prefix_rfl (Run.of_foldlM run)
  have same := accurate.size
  rw [isSize, isTotal] at same
  cases same

end MeFuzz.Snapshot
