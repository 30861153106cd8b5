import Mathlib

namespace MeFuzz

/-!
# Maps of intervals

A map of half-open intervals keeps a value for each of its intervals, and finds those
that overlap a given one.  As long as its intervals are disjoint, it is a partial
function on points, and its intervals together are as long as it has points.
-/

/-- A half-open interval. -/
structure Interval where
  start : Nat
  stop : Nat
  deriving DecidableEq

namespace Interval

/-- The interval has the point. -/
def Contains (self : Interval) (point : Nat) : Prop :=
  self.start ≤ point ∧ point < self.stop

instance (self : Interval) (point : Nat) : Decidable (self.Contains point) :=
  inferInstanceAs (Decidable (_ ∧ _))

/-- The number of points. -/
def length (self : Interval) : Nat :=
  self.stop - self.start

/-- The intervals have a point in common. -/
def Overlaps (self other : Interval) : Prop :=
  ∃ point, self.Contains point ∧ other.Contains point

/-- What is between the greater start and the lesser stop. -/
def common (self other : Interval) : Interval where
  start := max self.start other.start
  stop := min self.stop other.stop

theorem contains_common {self other : Interval} {point : Nat} :
    (self.common other).Contains point ↔ self.Contains point ∧ other.Contains point := by
  unfold common Contains
  dsimp only
  omega

theorem overlaps_iff {self other : Interval} :
    self.Overlaps other ↔ max self.start other.start < min self.stop other.stop := by
  unfold Overlaps Contains
  constructor
  · rintro ⟨point, inSelf, inOther⟩
    omega
  · intro nonempty
    exact ⟨max self.start other.start, by omega, by omega⟩

end Interval

/-- Operations on maps of intervals, and what they do to the entries. -/
structure IntervalMap (Tree Value : Type) where
  entries : Tree → List (Interval × Value)
  empty : Tree
  insert : Tree → Interval → Value → Tree
  delete : Tree → Interval → Tree
  query : Tree → Interval → List (Interval × Value)
  intersect : Interval → Interval → Option Interval
  keys_nodup : ∀ tree, ((entries tree).map Prod.fst).Nodup
  entries_empty : entries empty = []
  mem_insert :
    ∀ {tree interval value entry},
      entry ∈ entries (insert tree interval value) ↔
        entry = (interval, value) ∨ entry ∈ entries tree ∧ entry.1 ≠ interval
  mem_delete :
    ∀ {tree interval entry},
      entry ∈ entries (delete tree interval) ↔
        entry ∈ entries tree ∧ entry.1 ≠ interval
  mem_query :
    ∀ {tree interval entry},
      entry ∈ query tree interval ↔
        entry ∈ entries tree ∧ entry.1.Overlaps interval
  query_nodup : ∀ tree interval, (query tree interval).Nodup
  intersect_common :
    ∀ {one other : Interval},
      one.Overlaps other → intersect one other = some (one.common other)

namespace IntervalMap

variable {Tree Value : Type} {map : IntervalMap Tree Value} {tree : Tree}

/-- No point is in two intervals. -/
def Disjoint (map : IntervalMap Tree Value) (tree : Tree) : Prop :=
  ∀ ⦃one other⦄,
    one ∈ map.entries tree →
      other ∈ map.entries tree → one.1.Overlaps other.1 → one = other

/-- A point is in an interval with the value. -/
def Holds
    (map : IntervalMap Tree Value)
    (tree : Tree)
    (point : Nat)
    (value : Value) : Prop :=
  ∃ interval, (interval, value) ∈ map.entries tree ∧ interval.Contains point

/-- A point is in an interval. -/
def Mapped (map : IntervalMap Tree Value) (tree : Tree) (point : Nat) : Prop :=
  ∃ value, map.Holds tree point value

/-- The length of all intervals together. -/
def total (map : IntervalMap Tree Value) (tree : Tree) : Nat :=
  ((map.entries tree).map fun entry => entry.1.length).sum

end IntervalMap

section

variable {Value : Type}

/-- The points of the intervals of some entries. -/
def pointsOf : List (Interval × Value) → Finset Nat
  | [] => ∅
  | entry :: rest => Finset.Ico entry.1.start entry.1.stop ∪ pointsOf rest

theorem mem_pointsOf
    {entries : List (Interval × Value)}
    {point : Nat} :
    point ∈ pointsOf entries ↔ ∃ entry ∈ entries, entry.1.Contains point := by
  induction entries with
  | nil =>
      simp [pointsOf]
  | cons entry rest ih =>
      rw [pointsOf, Finset.mem_union, ih, Finset.mem_Ico,
        List.exists_mem_cons_iff]
      rfl

theorem card_pointsOf
    {entries : List (Interval × Value)}
    (disjoint : entries.Pairwise fun one other => ¬ one.1.Overlaps other.1) :
    (pointsOf entries).card = (entries.map fun entry => entry.1.length).sum := by
  induction disjoint with
  | nil =>
      rfl
  | @cons entry rest apart _ ih =>
      have separate :
          Disjoint (Finset.Ico entry.1.start entry.1.stop) (pointsOf rest) := by
        rw [Finset.disjoint_left]
        intro point inside later
        obtain ⟨other, member, insideOther⟩ := mem_pointsOf.mp later
        exact apart other member ⟨point, Finset.mem_Ico.mp inside, insideOther⟩
      rw [pointsOf, Finset.card_union_of_disjoint separate, ih,
        Nat.card_Ico, List.map_cons, List.sum_cons]
      rfl

end

namespace IntervalMap

variable {Tree Value : Type} {map : IntervalMap Tree Value} {tree : Tree}

/-- The points of all intervals. -/
def points (map : IntervalMap Tree Value) (tree : Tree) : Finset Nat :=
  pointsOf (map.entries tree)

theorem mem_points {point : Nat} :
    point ∈ map.points tree ↔ map.Mapped tree point := by
  rw [points, mem_pointsOf]
  constructor
  · rintro ⟨⟨interval, value⟩, member, inside⟩
    exact ⟨value, interval, member, inside⟩
  · rintro ⟨value, interval, member, inside⟩
    exact ⟨(interval, value), member, inside⟩

theorem card_points (disjoint : map.Disjoint tree) :
    (map.points tree).card = map.total tree := by
  have distinct : (map.entries tree).Nodup := .of_map _ (map.keys_nodup tree)
  refine card_pointsOf (distinct.pairwise_of_forall_ne ?_)
  intro one isOne other isOther differ overlap
  exact differ (disjoint isOne isOther overlap)

/-- No interval overlaps this one. -/
def Apart (map : IntervalMap Tree Value) (tree : Tree) (interval : Interval) : Prop :=
  ∀ entry ∈ map.entries tree, ¬ entry.1.Overlaps interval

theorem apart_iff {interval : Interval} :
    map.Apart tree interval ↔
      ∀ point, interval.Contains point → ¬ map.Mapped tree point := by
  constructor
  · rintro apart point inside ⟨value, other, member, insideOther⟩
    exact apart _ member ⟨point, insideOther, inside⟩
  · rintro unmapped ⟨other, value⟩ member ⟨point, insideOther, inside⟩
    exact unmapped point inside ⟨value, other, member, insideOther⟩

theorem Apart.mono
    {interval part : Interval}
    (apart : map.Apart tree interval)
    (isPart : ∀ point, part.Contains point → interval.Contains point) :
    map.Apart tree part := by
  rintro entry member ⟨point, insideEntry, inside⟩
  exact apart entry member ⟨point, insideEntry, isPart point inside⟩

theorem holds_insert
    {interval : Interval}
    {value held : Value}
    {point : Nat}
    (apart : map.Apart tree interval) :
    map.Holds (map.insert tree interval value) point held ↔
      held = value ∧ interval.Contains point ∨ map.Holds tree point held := by
  unfold Holds
  simp only [map.mem_insert]
  constructor
  · rintro ⟨other, same | ⟨member, _⟩, inside⟩
    · obtain ⟨rfl, rfl⟩ := Prod.mk.inj same
      exact .inl ⟨rfl, inside⟩
    · exact .inr ⟨other, member, inside⟩
  · rintro (⟨rfl, inside⟩ | ⟨other, member, inside⟩)
    · exact ⟨interval, .inl rfl, inside⟩
    · refine ⟨other, .inr ⟨member, ?_⟩, inside⟩
      rintro rfl
      exact apart _ member ⟨point, inside, inside⟩

theorem Disjoint.insert
    {interval : Interval}
    {value : Value}
    (disjoint : map.Disjoint tree)
    (apart : map.Apart tree interval) :
    map.Disjoint (map.insert tree interval value) := by
  intro one other isOne isOther overlap
  rcases map.mem_insert.mp isOne with rfl | ⟨oneBefore, _⟩
  · rcases map.mem_insert.mp isOther with rfl | ⟨otherBefore, _⟩
    · rfl
    · obtain ⟨point, inOne, inOther⟩ := overlap
      exact absurd ⟨point, inOther, inOne⟩ (apart other otherBefore)
  · rcases map.mem_insert.mp isOther with rfl | ⟨otherBefore, _⟩
    · exact absurd overlap (apart one oneBefore)
    · exact disjoint oneBefore otherBefore overlap

theorem holds_delete
    {entry : Interval × Value}
    {held : Value}
    {point : Nat}
    (disjoint : map.Disjoint tree)
    (member : entry ∈ map.entries tree) :
    map.Holds (map.delete tree entry.1) point held ↔
      map.Holds tree point held ∧ ¬ entry.1.Contains point := by
  unfold Holds
  simp only [map.mem_delete]
  constructor
  · rintro ⟨other, ⟨isOther, differs⟩, inside⟩
    refine ⟨⟨other, isOther, inside⟩, fun insideEntry => differs ?_⟩
    exact congrArg Prod.fst (disjoint isOther member ⟨point, inside, insideEntry⟩)
  · rintro ⟨⟨other, isOther, inside⟩, outside⟩
    refine ⟨other, ⟨isOther, ?_⟩, inside⟩
    rintro rfl
    exact outside inside

theorem Disjoint.delete
    (interval : Interval)
    (disjoint : map.Disjoint tree) :
    map.Disjoint (map.delete tree interval) := by
  intro one other isOne isOther overlap
  exact disjoint (map.mem_delete.mp isOne).1 (map.mem_delete.mp isOther).1 overlap

/-- An interval is inserted unless it is empty. -/
def insertRest
    (map : IntervalMap Tree Value)
    (tree : Tree)
    (interval : Interval)
    (value : Value) : Tree :=
  if interval.start < interval.stop then map.insert tree interval value else tree

section

variable {interval : Interval} {value : Value}

theorem holds_insertRest
    {held : Value}
    {point : Nat}
    (apart : map.Apart tree interval) :
    map.Holds (map.insertRest tree interval value) point held ↔
      held = value ∧ interval.Contains point ∨ map.Holds tree point held := by
  unfold insertRest
  split
  · exact holds_insert apart
  · next isEmpty =>
      refine (or_iff_right ?_).symm
      rintro ⟨_, lower, upper⟩
      exact isEmpty (lower.trans_lt upper)

theorem Disjoint.insertRest
    (disjoint : map.Disjoint tree)
    (apart : map.Apart tree interval) :
    map.Disjoint (map.insertRest tree interval value) := by
  unfold IntervalMap.insertRest
  split
  · exact disjoint.insert apart
  · exact disjoint

theorem mem_insertRest
    {entry : Interval × Value}
    (apart : map.Apart tree interval)
    (member : entry ∈ map.entries tree) :
    entry ∈ map.entries (map.insertRest tree interval value) := by
  unfold insertRest
  split
  · next nonempty =>
      refine map.mem_insert.mpr (.inr ⟨member, ?_⟩)
      rintro rfl
      exact apart entry member ⟨entry.1.start, ⟨le_rfl, nonempty⟩, le_rfl, nonempty⟩
  · exact member

theorem Apart.insertRest
    {other : Interval}
    (apart : map.Apart tree other)
    (separate : ¬ interval.Overlaps other) :
    map.Apart (map.insertRest tree interval value) other := by
  unfold IntervalMap.insertRest
  split
  · intro entry member
    rcases map.mem_insert.mp member with rfl | ⟨before, _⟩
    · exact separate
    · exact apart entry before
  · exact apart

end

/-- Of an interval only what is outside another one is left, with a new value. -/
def cutOut
    (map : IntervalMap Tree Value)
    (tree : Tree)
    (interval overlap : Interval)
    (value : Value) : Tree :=
  map.insertRest
    (map.insertRest (map.delete tree interval) ⟨interval.start, overlap.start⟩ value)
    ⟨overlap.stop, interval.stop⟩ value

section

variable {entry : Interval × Value} {other : Interval} {value : Value}

theorem apart_rest
    (value : Value)
    (disjoint : map.Disjoint tree)
    (member : entry ∈ map.entries tree)
    (overlaps : entry.1.Overlaps other) :
    map.Apart (map.delete tree entry.1)
        ⟨entry.1.start, (entry.1.common other).start⟩ ∧
      map.Apart
        (map.insertRest (map.delete tree entry.1)
          ⟨entry.1.start, (entry.1.common other).start⟩ value)
        ⟨(entry.1.common other).stop, entry.1.stop⟩ := by
  have apart : map.Apart (map.delete tree entry.1) entry.1 := by
    intro one isOne overlap
    obtain ⟨before, differs⟩ := map.mem_delete.mp isOne
    exact differs (congrArg Prod.fst (disjoint before member overlap))
  obtain ⟨point, inEntry, inOther⟩ := overlaps
  have isCommon := Interval.contains_common.mpr ⟨inEntry, inOther⟩
  have inside :
      (entry.1.common other).stop ≤ entry.1.stop ∧
        entry.1.start ≤ (entry.1.common other).start :=
    ⟨min_le_left _ _, le_max_left _ _⟩
  unfold Interval.Contains at isCommon
  constructor
  · refine apart.mono fun point isPart => ?_
    unfold Interval.Contains at isPart ⊢
    dsimp only at isPart
    omega
  · refine (apart.mono fun point isPart => ?_).insertRest ?_
    · unfold Interval.Contains at isPart ⊢
      dsimp only at isPart
      omega
    · rintro ⟨point, isLeft, isRight⟩
      unfold Interval.Contains at isLeft isRight
      dsimp only at isLeft isRight
      omega

theorem Disjoint.cutOut
    (disjoint : map.Disjoint tree)
    (member : entry ∈ map.entries tree)
    (overlaps : entry.1.Overlaps other) :
    map.Disjoint (map.cutOut tree entry.1 (entry.1.common other) value) := by
  obtain ⟨left, right⟩ := apart_rest value disjoint member overlaps
  exact ((disjoint.delete entry.1).insertRest left).insertRest right

theorem mem_cutOut
    {one : Interval × Value}
    (disjoint : map.Disjoint tree)
    (member : entry ∈ map.entries tree)
    (overlaps : entry.1.Overlaps other)
    (isOne : one ∈ map.entries tree)
    (differs : one.1 ≠ entry.1) :
    one ∈ map.entries (map.cutOut tree entry.1 (entry.1.common other) value) := by
  obtain ⟨left, right⟩ := apart_rest value disjoint member overlaps
  exact mem_insertRest right (mem_insertRest left (map.mem_delete.mpr ⟨isOne, differs⟩))

theorem holds_cutOut
    {point : Nat}
    {held : Value}
    (disjoint : map.Disjoint tree)
    (member : entry ∈ map.entries tree)
    (overlaps : entry.1.Overlaps other) :
    map.Holds (map.cutOut tree entry.1 (entry.1.common other) value) point held ↔
      held = value ∧ entry.1.Contains point ∧ ¬ other.Contains point ∨
        map.Holds tree point held ∧ ¬ entry.1.Contains point := by
  obtain ⟨left, right⟩ := apart_rest value disjoint member overlaps
  have parts :
      (⟨(entry.1.common other).stop, entry.1.stop⟩ : Interval).Contains point ∨
          (⟨entry.1.start, (entry.1.common other).start⟩ : Interval).Contains point ↔
        entry.1.Contains point ∧ ¬ other.Contains point := by
    obtain ⟨somewhere, inEntry, inOther⟩ := overlaps
    unfold Interval.Contains at inEntry inOther ⊢
    unfold Interval.common
    dsimp only
    omega
  rw [cutOut, holds_insertRest right, holds_insertRest left, holds_delete disjoint member,
    ← or_assoc, ← and_or_left, parts]

end

end IntervalMap

end MeFuzz
