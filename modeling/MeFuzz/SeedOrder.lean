import MeFuzz.InfoDbState

namespace MeFuzz.InfoDb

/-!
# The order of seeds

The tree of seeds relies on its comparison to order any seeds strictly.  Crashes come
first, then new branches, then the instants of creation.  The numbers of new branches
are compared by a difference of 64 bits, and of two seeds of one instant each comes
before the other.
-/

/-- Numbers of opposite signs. -/
def Opposite (first second : Int) : Prop :=
  (first < 0 ∧ 0 < second) ∨ (0 < first ∧ second < 0)

/-- Each two of the seeds are ordered one way, and what comes first does so for all. -/
structure StrictlyOrdered (seeds : List Seed) : Prop where
  separates :
    ∀ a ∈ seeds, ∀ b ∈ seeds, a.id ≠ b.id → Opposite (seedCmp a b) (seedCmp b a)
  transitive :
    ∀ a ∈ seeds, ∀ b ∈ seeds, ∀ c ∈ seeds,
      seedCmp a b < 0 → seedCmp b c < 0 → seedCmp a c < 0

/-- The seeds only differ in their identifiers. -/
def Tied (a b : Seed) : Prop :=
  a.crash = b.crash ∧ a.newCov = b.newCov ∧
    a.createdAt.before b.createdAt = false ∧ b.createdAt.before a.createdAt = false

/-- The new branches differ by half of the numbers that there are. -/
def HalfApart (a b : Seed) : Prop :=
  a.crash = b.crash ∧ a.newCov + 2 ^ 63 = b.newCov

/-- The new branches grow by less than half of the numbers, but by more in two steps. -/
def Winding (a b c : Seed) : Prop :=
  a.crash = b.crash ∧ b.crash = c.crash ∧
    b.newCov < a.newCov + 2 ^ 63 ∧ c.newCov < b.newCov + 2 ^ 63 ∧
      a.newCov + 2 ^ 63 < c.newCov

/-- None of that concerns the seeds. -/
structure Comparable (seeds : List Seed) : Prop where
  notTied : ∀ a ∈ seeds, ∀ b ∈ seeds, a.id ≠ b.id → ¬Tied a b
  notHalfApart : ∀ a ∈ seeds, ∀ b ∈ seeds, ¬HalfApart a b
  notWinding : ∀ a ∈ seeds, ∀ b ∈ seeds, ∀ c ∈ seeds, ¬Winding a b c

section

variable {a b c : Seed}

theorem newCov_bmod
    (aRange : a.newCov < 2 ^ 64)
    (bRange : b.newCov < 2 ^ 64) :
    (((b.newCov : Int) - a.newCov).bmod (2 ^ 64) < 0 ↔
        (b.newCov < a.newCov ∧ a.newCov ≤ b.newCov + 2 ^ 63) ∨
          a.newCov + 2 ^ 63 ≤ b.newCov) ∧
      (((b.newCov : Int) - a.newCov).bmod (2 ^ 64) = 0 ↔ a.newCov = b.newCov) := by
  rw [Int.bmod_def]
  constructor
  · split <;> omega
  · split <;> omega

/-- The first of two seeds with different identifiers comes first. -/
def Precedes (a b : Seed) : Prop :=
  (a.crash = true ∧ b.crash = false) ∨
    (a.crash = b.crash ∧
      ((b.newCov < a.newCov ∧ a.newCov ≤ b.newCov + 2 ^ 63) ∨
        a.newCov + 2 ^ 63 ≤ b.newCov ∨
          (a.newCov = b.newCov ∧ a.createdAt.before b.createdAt = false)))

theorem seedCmp_spec
    (differ : a.id ≠ b.id)
    (aRange : a.newCov < 2 ^ 64)
    (bRange : b.newCov < 2 ^ 64) :
    (seedCmp a b < 0 ↔ Precedes a b) ∧ (0 < seedCmp a b ↔ ¬Precedes a b) := by
  obtain ⟨isNegative, isZero⟩ := newCov_bmod aRange bRange
  unfold seedCmp Precedes
  rw [if_neg differ]
  by_cases same : a.newCov = b.newCov
  · rw [if_neg (not_not.mpr same)]
    cases a.crash <;> cases b.crash <;>
      cases a.createdAt.before b.createdAt <;> simp [same]
  · rw [if_pos same]
    generalize ((b.newCov : Int) - a.newCov).bmod (2 ^ 64) = difference
      at isNegative isZero ⊢
    have notZero : difference ≠ 0 := mt isZero.mp same
    cases a.crash <;> cases b.crash <;> simp [same, isNegative]
    · omega
    · omega

theorem before_asymm
    {first second : Time}
    (isBefore : first.before second = true) :
    second.before first = false := by
  simp only [Time.before, Bool.or_eq_true, Bool.and_eq_true, decide_eq_true_eq,
    beq_iff_eq] at isBefore
  simp only [Time.before, Bool.or_eq_false_iff, Bool.and_eq_false_imp,
    decide_eq_false_iff_not, beq_iff_eq]
  omega

theorem before_trans
    {first second third : Time}
    (notBefore : first.before second = false)
    (notBeforeThird : second.before third = false) :
    first.before third = false := by
  simp only [Time.before, Bool.or_eq_false_iff, Bool.and_eq_false_imp,
    decide_eq_false_iff_not, beq_iff_eq] at notBefore notBeforeThird ⊢
  omega

theorem precedes_iff
    (a b : Seed) :
    (Precedes a b ↔ ¬Precedes b a) ↔
      ¬Tied a b ∧ ¬HalfApart a b ∧ ¬HalfApart b a := by
  have asymm : a.createdAt.before b.createdAt = true → b.createdAt.before a.createdAt = false :=
    before_asymm
  unfold Precedes Tied HalfApart
  generalize a.createdAt.before b.createdAt = isBefore at asymm ⊢
  generalize b.createdAt.before a.createdAt = isAfter at asymm ⊢
  cases isBefore <;> cases isAfter <;> cases a.crash <;> cases b.crash <;> simp at asymm ⊢
  all_goals omega

theorem precedes_trans
    (isFirst : Precedes a b)
    (isSecond : Precedes b c)
    (notHalfApart : ¬HalfApart a b ∧ ¬HalfApart b c ∧ ¬HalfApart c a)
    (notHalfApartBack : ¬HalfApart b a ∧ ¬HalfApart c b ∧ ¬HalfApart a c)
    (notWinding : ¬Winding a b c ∧ ¬Winding b c a ∧ ¬Winding c a b)
    (notWindingBack : ¬Winding c b a ∧ ¬Winding b a c ∧ ¬Winding a c b) :
    Precedes a c := by
  rcases isFirst with ⟨isCrash, isNone⟩ | ⟨sameCrash, isFirst⟩
  · rcases isSecond with ⟨isCrashToo, _⟩ | ⟨sameCrash, _⟩
    · cases isNone.symm.trans isCrashToo
    · exact .inl ⟨isCrash, sameCrash ▸ isNone⟩
  · rcases isSecond with ⟨isCrash, isNone⟩ | ⟨sameCrashToo, isSecond⟩
    · exact .inl ⟨sameCrash.trans isCrash, isNone⟩
    · refine .inr ⟨sameCrash.trans sameCrashToo, ?_⟩
      simp only [HalfApart, Winding, sameCrash, sameCrashToo, true_and]
        at notHalfApart notHalfApartBack notWinding notWindingBack
      by_cases same : a.newCov = b.newCov ∧ b.newCov = c.newCov
      · refine .inr (.inr ⟨same.1.trans same.2, ?_⟩)
        refine @before_trans _ b.createdAt _ ?_ ?_
        · exact ((isFirst.resolve_left (by omega)).resolve_left (by omega)).2
        · exact ((isSecond.resolve_left (by omega)).resolve_left (by omega)).2
      · have first := isFirst.imp_right (Or.imp_right And.left)
        have second := isSecond.imp_right (Or.imp_right And.left)
        have isLess :
            (c.newCov < a.newCov ∧ a.newCov ≤ c.newCov + 2 ^ 63) ∨
              a.newCov + 2 ^ 63 ≤ c.newCov := by
          clear isFirst isSecond
          omega
        rcases isLess with isLess | isLess
        · exact .inl isLess
        · exact .inr (.inl isLess)

end

/--
Seeds with identifiers and 64-bit counts of their own are ordered strictly if and only
if no two are tied or half of the numbers apart, and no three wind around.
-/
theorem strictlyOrdered_iff
    {seeds : List Seed}
    (distinct : (seeds.map Seed.id).Nodup)
    (inRange : ∀ seed ∈ seeds, seed.newCov < 2 ^ 64) :
    StrictlyOrdered seeds ↔ Comparable seeds := by
  have eq_of_id : ∀ a ∈ seeds, ∀ b ∈ seeds, a.id = b.id → a = b :=
    fun a isA b isB => List.inj_on_of_nodup_map distinct isA isB
  have opposite_iff :
      ∀ a ∈ seeds, ∀ b ∈ seeds, a.id ≠ b.id →
        (Opposite (seedCmp a b) (seedCmp b a) ↔
          ¬Tied a b ∧ ¬HalfApart a b ∧ ¬HalfApart b a) := by
    intro a isA b isB differ
    obtain ⟨negative, positive⟩ := seedCmp_spec differ (inRange a isA) (inRange b isB)
    obtain ⟨negativeBack, positiveBack⟩ :=
      seedCmp_spec differ.symm (inRange b isB) (inRange a isA)
    rw [← precedes_iff, Opposite, negative, positive, negativeBack, positiveBack]
    by_cases isFirst : Precedes a b <;> by_cases isBack : Precedes b a <;>
      simp [isFirst, isBack]
  have precedes :
      ∀ a ∈ seeds, ∀ b ∈ seeds, a.id ≠ b.id → (seedCmp a b < 0 ↔ Precedes a b) :=
    fun a isA b isB differ => (seedCmp_spec differ (inRange a isA) (inRange b isB)).1
  constructor
  · intro strict
    have apart :
        ∀ a ∈ seeds, ∀ b ∈ seeds, ¬HalfApart a b := by
      intro a isA b isB halfApart
      have differ : a.id ≠ b.id := by
        intro same
        obtain rfl := eq_of_id a isA b isB same
        exact absurd halfApart.2 (by omega)
      exact ((opposite_iff a isA b isB differ).mp
        (strict.separates a isA b isB differ)).2.1 halfApart
    refine ⟨fun a isA b isB differ => ?_, apart, ?_⟩
    · exact ((opposite_iff a isA b isB differ).mp
        (strict.separates a isA b isB differ)).1
    · intro a isA b isB c isC winding
      have cycle :
          ∀ x ∈ seeds, ∀ y ∈ seeds, x.newCov ≠ y.newCov → Precedes x y →
            seedCmp x y < 0 := by
        intro x isX y isY differ isFirst
        exact (precedes x isX y isY fun same =>
          differ (congrArg Seed.newCov (eq_of_id x isX y isY same))).mpr isFirst
      obtain ⟨sameCrash, sameCrashToo, isStep, isStepToo, isFar⟩ := winding
      have first : seedCmp b a < 0 :=
        cycle b isB a isA (by omega) (.inr ⟨sameCrash.symm, .inl (by omega)⟩)
      have second : seedCmp c b < 0 :=
        cycle c isC b isB (by omega) (.inr ⟨sameCrashToo.symm, .inl (by omega)⟩)
      have third : seedCmp a c < 0 :=
        cycle a isA c isC (by omega)
          (.inr ⟨sameCrash.trans sameCrashToo, .inr (.inl (by omega))⟩)
      have back := strict.transitive c isC b isB a isA second first
      have loop := strict.transitive a isA c isC a isA third back
      rw [seedCmp, if_pos rfl] at loop
      exact absurd loop (lt_irrefl 0)
  · intro comparable
    have opposite :
        ∀ a ∈ seeds, ∀ b ∈ seeds, a.id ≠ b.id →
          Opposite (seedCmp a b) (seedCmp b a) :=
      fun a isA b isB differ =>
        (opposite_iff a isA b isB differ).mpr
          ⟨comparable.notTied a isA b isB differ, comparable.notHalfApart a isA b isB,
            comparable.notHalfApart b isB a isA⟩
    refine ⟨opposite, fun a isA b isB c isC isFirst isSecond => ?_⟩
    have differ : a.id ≠ b.id := by
      intro same
      rw [seedCmp, if_pos same] at isFirst
      exact absurd isFirst (lt_irrefl 0)
    have differToo : b.id ≠ c.id := by
      intro same
      rw [seedCmp, if_pos same] at isSecond
      exact absurd isSecond (lt_irrefl 0)
    have differLast : a.id ≠ c.id := by
      intro same
      obtain rfl := eq_of_id a isA c isC same
      rcases opposite a isA b isB differ with ⟨_, positive⟩ | ⟨positive, _⟩
      · exact absurd isSecond positive.le.not_gt
      · exact absurd isFirst positive.le.not_gt
    have halfApart := comparable.notHalfApart
    have winding := comparable.notWinding
    refine (precedes a isA c isC differLast).mpr ?_
    exact
      precedes_trans ((precedes a isA b isB differ).mp isFirst)
        ((precedes b isB c isC differToo).mp isSecond)
        ⟨halfApart a isA b isB, halfApart b isB c isC, halfApart c isC a isA⟩
        ⟨halfApart b isB a isA, halfApart c isC b isB, halfApart a isA c isC⟩
        ⟨winding a isA b isB c isC, winding b isB c isC a isA, winding c isC a isA b isB⟩
        ⟨winding c isC b isB a isA, winding b isB a isA c isC, winding a isA c isC b isB⟩

/-- A seed without a crash. -/
def quietSeed (id : UInt64) (newCov : Nat) (createdAt : Time) : Seed where
  id := id
  newCov := newCov
  createdAt := createdAt
  fuzzerID := ⟨0, 0⟩
  crash := false

/-- Three seeds, two of which have found as much, at different instants. -/
def threeSeeds : List Seed :=
  [quietSeed 1 5 ⟨1, 0⟩, quietSeed 2 5 ⟨2, 0⟩, quietSeed 3 7 ⟨1, 0⟩]

theorem strictlyOrdered_threeSeeds :
    StrictlyOrdered threeSeeds ↔ Comparable threeSeeds :=
  strictlyOrdered_iff (by decide) (by decide)

/-- Of two seeds that were created at one instant, each comes before the other. -/
theorem seeds_of_one_instant_not_ordered :
    ¬StrictlyOrdered [quietSeed 1 5 ⟨1, 0⟩, quietSeed 2 5 ⟨1, 0⟩, quietSeed 3 7 ⟨1, 0⟩] := by
  intro strict
  have opposite :=
    strict.separates (quietSeed 1 5 ⟨1, 0⟩) (by decide) (quietSeed 2 5 ⟨1, 0⟩) (by decide)
      (by decide)
  revert opposite
  unfold Opposite
  decide

end MeFuzz.InfoDb
