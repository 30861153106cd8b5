import MeFuzz.TuneableMutator

namespace MeFuzz.Mutators.Tuneable

open Procedure

/-!
# The most recent tuning

A tuning says what was set last.  The metadata represent it as long as no setter
leaves a distribution behind that another one should have removed.
-/

/-- Probabilities that sum up to one. -/
structure Distribution where
  probabilities : List ℚ
  nonneg : ∀ probability ∈ probabilities, 0 ≤ probability
  sum_eq : probabilities.sum = 1

/-- The coin lies among those that belong to a position. -/
structure Picks
    (probabilities : List ℚ)
    (coin : ℚ)
    (position : Nat) : Prop where
  isPosition : position < probabilities.length
  above : position ≠ 0 → (probabilities.take position).sum < coin
  below : coin ≤ (probabilities.take (position + 1)).sum

section

variable {probabilities : List ℚ}
variable {threshold : ℚ}

theorem sum_take_mono
    {first second : Nat}
    (nonneg : ∀ probability ∈ probabilities, 0 ≤ probability)
    (ordered : first ≤ second) :
    (probabilities.take first).sum ≤ (probabilities.take second).sum := by
  have isPrefix : probabilities.take first <+: probabilities.take second :=
    List.take_prefix_take_left ordered
  obtain ⟨later, split⟩ := isPrefix
  have laterNonneg : 0 ≤ later.sum := by
    refine List.sum_nonneg fun probability isLater => nonneg probability ?_
    have isTaken : probability ∈ probabilities.take second :=
      split ▸ List.mem_append_right _ isLater
    exact List.mem_of_mem_take isTaken
  rw [← split, List.sum_append]
  linarith

theorem getElem?_cumulativeSum
    (acc : ℚ)
    (position : Nat) :
    (cumulativeSum acc probabilities)[position]? =
      if position < probabilities.length then
        some (acc + (probabilities.take (position + 1)).sum)
      else none := by
  induction probabilities generalizing acc position with
  | nil =>
      rfl
  | cons probability rest ih =>
      cases position with
      | zero =>
          simp [cumulativeSum]
      | succ position =>
          rw [cumulativeSum, List.getElem?_cons_succ, ih,
            List.take_succ_cons, List.sum_cons, add_assoc]
          simp only [List.length_cons, Nat.add_lt_add_iff_right]

theorem length_cumulativeSum
    (acc : ℚ) :
    (cumulativeSum acc probabilities).length = probabilities.length := by
  induction probabilities generalizing acc with
  | nil =>
      rfl
  | cons probability rest ih =>
      rw [cumulativeSum, List.length_cons, ih, List.length_cons]

theorem getElem_cumulative
    {position : Nat}
    (isPosition :
      position < (calculateCumulativeSumInPlace probabilities).length) :
    (calculateCumulativeSumInPlace probabilities)[position] =
      (probabilities.take (position + 1)).sum := by
  have isEntry := @getElem?_cumulativeSum probabilities 0 position
  have inProbabilities : position < probabilities.length :=
    (length_cumulativeSum 0) ▸ isPosition
  rw [if_pos inProbabilities, zero_add] at isEntry
  exact (List.getElem?_eq_some_iff.mp isEntry).2

theorem picks_of_findIdx?
    {position : Nat}
    (found :
      (calculateCumulativeSumInPlace probabilities).findIdx? (threshold ≤ ·) =
        some position) :
    Picks probabilities threshold position := by
  obtain ⟨isPosition, isBelow, isFirst⟩ := List.findIdx?_eq_some_iff_getElem.mp found
  have isBelow := of_decide_eq_true isBelow
  rw [getElem_cumulative] at isBelow
  refine ⟨(length_cumulativeSum 0) ▸ isPosition, fun notZero => ?_, isBelow⟩
  have isEarlier : position - 1 < position := Nat.sub_one_lt notZero
  have isAbove := isFirst (position - 1) isEarlier
  rw [getElem_cumulative, Nat.sub_add_cancel (Nat.one_le_iff_ne_zero.mpr notZero)]
    at isAbove
  exact not_le.mp fun isNot => isAbove (decide_eq_true isNot)

end

theorem Distribution.exists_findIdx?
    (distribution : Distribution)
    {threshold : ℚ}
    (atMostOne : threshold ≤ 1) :
    ∃ position,
      (calculateCumulativeSumInPlace distribution.probabilities).findIdx?
          (threshold ≤ ·) =
        some position := by
  have nonempty : distribution.probabilities ≠ [] := by
    intro isNil
    have isOne := distribution.sum_eq
    rw [isNil, List.sum_nil] at isOne
    exact zero_ne_one isOne
  have positive := List.length_pos_iff.mpr nonempty
  refine Option.ne_none_iff_exists'.mp fun notFound => ?_
  have noneAbove := List.findIdx?_eq_none_iff.mp notFound
  have isLast :
      distribution.probabilities.length - 1 <
        (calculateCumulativeSumInPlace distribution.probabilities).length := by
    rw [calculateCumulativeSumInPlace, length_cumulativeSum]
    exact Nat.sub_one_lt positive.ne'
  have isBelow := noneAbove _ (List.getElem_mem isLast)
  rw [getElem_cumulative, Nat.sub_add_cancel positive, List.take_length,
    distribution.sum_eq] at isBelow
  exact of_decide_eq_false isBelow atMostOne

theorem asF32_le
    {n : Nat}
    (isWord : n < 2 ^ 64) :
    asF32 n ≤ 2 ^ 64 := by
  have isSize : n.size ≤ 64 := Nat.size_le.mpr isWord
  have isMantissa : n / 2 ^ (n.size - 24) < 2 ^ 24 := by
    rw [Nat.div_lt_iff_lt_mul (Nat.two_pow_pos _), ← pow_add]
    refine Nat.lt_size_self n |>.trans_le (Nat.pow_le_pow_right two_pos ?_)
    omega
  have isUnit : 2 ^ (n.size - 24) ≤ 2 ^ 40 :=
    Nat.pow_le_pow_right two_pos (by omega)
  have isRounded :
      ∀ roundsUp : Bool, n / 2 ^ (n.size - 24) + roundsUp.toNat ≤ 2 ^ 24 := by
    intro roundsUp
    have isBit := Bool.toNat_le roundsUp
    omega
  unfold asF32
  exact (Nat.mul_le_mul (isRounded _) isUnit).trans_eq (pow_add 2 24 40).symm

theorem coin_le_one
    {next : Nat}
    (isWord : next < 2 ^ 64) :
    coin next ≤ 1 := by
  have isBelow : (asF32 next : ℚ) ≤ 2 ^ 64 := by exact_mod_cast asF32_le isWord
  unfold coin
  exact div_le_one_of_le₀ isBelow (by positivity)

/-- What was last set for the mutations. -/
inductive MutationTuning where
  | uniform
  | cyclic (ids : List Nat) (cursor : Nat)
  | sampled (distribution : Distribution)

/-- What was last set for the iterations. -/
inductive IterTuning where
  | random
  | fixed (iters : Nat)
  | sampled (distribution : Distribution)

/-- What was last set. -/
structure Tuning where
  mutations : MutationTuning
  iters : IterTuning

/-- A call, with the numbers that the generator is going to give. -/
inductive Call where
  | setIters (iters : Nat)
  | setIterProbabilitiesPow (distribution : Distribution)
  | setMutationIds (mutations : List Nat)
  | setMutationProbabilities (distribution : Distribution)
  | setMutationIdsAndIters (mutations : List Nat) (iters : Nat)
  | pushMutationId (mutationId : Nat)
  | reset
  | schedule (draws : List UInt64)
  | iterations (draws : List UInt64)

namespace MutationTuning

/-- An empty list of ids sets nothing. -/
def ofIds (ids : List Nat) : MutationTuning :=
  if ids = [] then .uniform else .cyclic ids 0

/-- An id behind the others, or alone. -/
def push (id : Nat) : MutationTuning → MutationTuning
  | .cyclic ids cursor => .cyclic (ids ++ [id]) cursor
  | _ => .cyclic [id] 0

/-- The next of the ids, in a cycle. -/
def advance : MutationTuning → MutationTuning
  | .cyclic ids cursor => .cyclic ids ((cursor + 1) % ids.length)
  | tuning => tuning

/-- What `schedule` is to do with the numbers that are drawn. -/
def Schedules
    (mutations : Nat) :
    MutationTuning → List Nat → Except Failure Nat → Prop
  | .uniform, draws, result =>
      result =
        match Rand.below mutations draws with
        | some (id, _) => .ok id
        | none => .error .starved
  | .cyclic ids cursor, _, result =>
      ∃ id, ids[cursor]? = some id ∧ result = .ok id
  | .sampled _, [], result => result = .error .starved
  | .sampled distribution, value :: _, result =>
      ∃ id,
        Picks distribution.probabilities (coin value) id ∧ result = .ok id

end MutationTuning

/-- What `iterations` is to do with the numbers that are drawn. -/
def IterTuning.Iterates : IterTuning → List Nat → Except Failure Nat → Prop
  | .random, draws, result =>
      result =
        match Rand.below maxStackPow draws with
        | some (pow, _) => .ok (2 ^ (1 + pow))
        | none => .error .starved
  | .fixed iters, _, result => result = .ok iters
  | .sampled _, [], result => result = .error .starved
  | .sampled distribution, value :: _, result =>
      ∃ pow,
        Picks distribution.probabilities (coin value) pow ∧
          result = .ok (2 ^ (1 + pow))

/-- The most recent setting replaces what was set before. -/
def Tuning.after (tuning : Tuning) : Call → Tuning
  | .setIters iters => { tuning with iters := .fixed iters }
  | .setIterProbabilitiesPow distribution =>
      { tuning with iters := .sampled distribution }
  | .setMutationIds ids => { tuning with mutations := .ofIds ids }
  | .setMutationProbabilities distribution =>
      { tuning with mutations := .sampled distribution }
  | .setMutationIdsAndIters ids iters => ⟨.ofIds ids, .fixed iters⟩
  | .pushMutationId id => { tuning with mutations := tuning.mutations.push id }
  | .reset => ⟨.uniform, .random⟩
  | .schedule _ => { tuning with mutations := tuning.mutations.advance }
  | .iterations _ => tuning

/-- The metadata, and what they are to represent. -/
structure Tuned where
  metadata : Metadata
  tuning : Tuning

/-- A new mutator. -/
def Tuned.new : Tuned :=
  ⟨.default, ⟨.uniform, .random⟩⟩

section

variable (mutations : Nat)

/-- The numbers that are drawn, from these metadata. -/
def drawing
    (metadata : Metadata)
    (draws : List UInt64) : Drawing Metadata :=
  ⟨draws.map UInt64.toNat, metadata⟩

/-- The metadata after a call that returns. -/
def perform
    (metadata : Metadata) : Call → Option Metadata
  | .setIters iters => some (metadata.setIters iters)
  | .setIterProbabilitiesPow distribution =>
      some (metadata.setIterProbabilitiesPow distribution.probabilities)
  | .setMutationIds ids => some (metadata.setMutationIds ids)
  | .setMutationProbabilities distribution =>
      some (metadata.setMutationProbabilities distribution.probabilities)
  | .setMutationIdsAndIters ids iters =>
      some (metadata.setMutationIdsAndIters ids iters)
  | .pushMutationId id => some (metadata.pushMutationId id)
  | .reset => some metadata.reset
  | .schedule draws =>
      match (schedule mutations).outcome (drawing metadata draws) with
      | (.ok _, after) => some after.own
      | (.error _, _) => none
  | .iterations draws =>
      match iterations.outcome (drawing metadata draws) with
      | (.ok _, after) => some after.own
      | (.error _, _) => none

/-- A call that returns, and what it sets. -/
def Step : StepRelation Tuned Call :=
  fun now call next =>
    perform mutations now.metadata call = some next.metadata ∧
      next.tuning = now.tuning.after call

/-- What is scheduled and iterated follows what was set most recently. -/
def Follows (now : Tuned) : Call → Prop
  | .schedule draws =>
      now.tuning.mutations.Schedules mutations (draws.map UInt64.toNat)
        ((schedule mutations).outcome (drawing now.metadata draws)).1
  | .iterations draws =>
      now.tuning.iters.Iterates (draws.map UInt64.toNat)
        (iterations.outcome (drawing now.metadata draws)).1
  | _ => True

/--
No distribution is stored when one of the setters that leave it is called, the ids
are those of mutations, and no more than 63 powers of two can be picked.
-/
def Keeps (now : Tuned) : Call → Prop
  | .setIterProbabilitiesPow distribution =>
      1 ≤ (distribution.probabilities.take 63).sum
  | .setMutationIds ids =>
      (∀ id ∈ ids, id < mutations) ∧
        (ids = [] → now.metadata.mutationProbabilitiesCumulative = [])
  | .setMutationIdsAndIters ids _ =>
      (∀ id ∈ ids, id < mutations) ∧
        (ids = [] → now.metadata.mutationProbabilitiesCumulative = []) ∧
        now.metadata.iterProbabilitiesPowCumulative = []
  | .pushMutationId id => id < mutations
  | .reset =>
      now.metadata.mutationProbabilitiesCumulative = [] ∧
        now.metadata.iterProbabilitiesPowCumulative = []
  | _ => True

end

/-- The metadata are those of what was set last for the mutations. -/
def RepresentsMutations
    (mutations : Nat)
    (metadata : Metadata) : MutationTuning → Prop
  | .uniform =>
      metadata.mutationIds = [] ∧ metadata.nextId = 0 ∧
        metadata.mutationProbabilitiesCumulative = []
  | .cyclic ids cursor =>
      metadata.mutationIds = ids ∧ metadata.nextId = cursor ∧
        cursor < ids.length ∧ ∀ id ∈ ids, id < mutations
  | .sampled distribution =>
      metadata.mutationIds = [] ∧ metadata.nextId = 0 ∧
        metadata.mutationProbabilitiesCumulative =
          calculateCumulativeSumInPlace distribution.probabilities

/-- The metadata are those of what was set last for the iterations. -/
def RepresentsIters (metadata : Metadata) : IterTuning → Prop
  | .random =>
      metadata.iters = none ∧ metadata.iterProbabilitiesPowCumulative = []
  | .fixed iters =>
      metadata.iters = some iters ∧ metadata.iterProbabilitiesPowCumulative = []
  | .sampled distribution =>
      metadata.iterProbabilitiesPowCumulative =
          calculateCumulativeSumInPlace distribution.probabilities ∧
        1 ≤ (distribution.probabilities.take 63).sum

/-- The metadata represent what was set last. -/
structure Represents
    (mutations : Nat)
    (now : Tuned) : Prop where
  mutationsAre : RepresentsMutations mutations now.metadata now.tuning.mutations
  itersAre : RepresentsIters now.metadata now.tuning.iters

section

variable {mutations : Nat}
variable {metadata : Metadata}

theorem Distribution.cumulative_ne_nil
    (distribution : Distribution) :
    calculateCumulativeSumInPlace distribution.probabilities ≠ [] := by
  obtain ⟨position, found⟩ := distribution.exists_findIdx? zero_le_one
  intro isNil
  rw [isNil] at found
  cases found

theorem outcome_sample
    (distribution : Distribution)
    (draws : List UInt64) :
    (draws = [] ∧
        (sample
              (calculateCumulativeSumInPlace
                distribution.probabilities)).outcome
            (drawing metadata draws) =
          (.error .starved, drawing metadata draws)) ∨
      ∃ value rest position,
        draws = value :: rest ∧
          Picks distribution.probabilities (coin value.toNat) position ∧
          (sample
                (calculateCumulativeSumInPlace
                  distribution.probabilities)).outcome
              (drawing metadata draws) =
            (.ok position, drawing metadata rest) := by
  cases draws with
  | nil =>
      exact .inl ⟨rfl, rfl⟩
  | cons value rest =>
      obtain ⟨position, found⟩ :=
        distribution.exists_findIdx? (coin_le_one value.toNat_lt)
      refine
        .inr ⟨value, rest, position, rfl, picks_of_findIdx? found, ?_⟩
      have isDrawn :
          (next : Mutation Metadata Nat).outcome
              (drawing metadata (value :: rest)) =
            (.ok value.toNat, drawing metadata rest) := rfl
      unfold sample
      rw [outcome_bind_ok isDrawn]
      dsimp only
      rw [found]
      rfl

theorem outcome_below
    (bound : Nat)
    (draws : List UInt64) :
    (below bound : Mutation Metadata Nat).outcome (drawing metadata draws) =
      match Rand.below bound (draws.map UInt64.toNat) with
      | some (value, left) => (.ok value, ⟨left, metadata⟩)
      | none => (.error .starved, drawing metadata draws) := by
  have isDraws : (drawing metadata draws).draws = draws.map UInt64.toNat := rfl
  unfold below draw
  rw [outcome_bind_ok outcome_get, isDraws]
  cases Rand.below bound (draws.map UInt64.toNat) with
  | none =>
      rfl
  | some drawn =>
      rfl

theorem schedule_uniform
    (nonempty : 0 < mutations)
    (represents : RepresentsMutations mutations metadata .uniform)
    (draws : List UInt64) :
    (schedule mutations).outcome (drawing metadata draws) =
      (below mutations).outcome (drawing metadata draws) := by
  obtain ⟨noIds, -, noDistribution⟩ := represents
  have isOwn :
      (own : Mutation Metadata Metadata).outcome (drawing metadata draws) =
        (.ok metadata, drawing metadata draws) := rfl
  unfold schedule
  rw [if_neg nonempty.ne', outcome_bind_ok isOwn, noIds, noDistribution]
  rfl

theorem schedule_sampled
    {distribution : Distribution}
    (nonempty : 0 < mutations)
    (represents : RepresentsMutations mutations metadata (.sampled distribution))
    (draws : List UInt64) :
    (schedule mutations).outcome (drawing metadata draws) =
      (sample
          (calculateCumulativeSumInPlace distribution.probabilities)).outcome
        (drawing metadata draws) := by
  obtain ⟨noIds, -, isDistribution⟩ := represents
  have isOwn :
      (own : Mutation Metadata Metadata).outcome (drawing metadata draws) =
        (.ok metadata, drawing metadata draws) := rfl
  have notEmpty :
      ¬(calculateCumulativeSumInPlace distribution.probabilities).isEmpty = true :=
    fun isEmpty =>
      distribution.cumulative_ne_nil (List.isEmpty_iff.mp isEmpty)
  unfold schedule
  rw [if_neg nonempty.ne', outcome_bind_ok isOwn, noIds, isDistribution,
    if_pos List.isEmpty_nil, if_neg notEmpty]

theorem schedule_cyclic
    {ids : List Nat}
    {cursor : Nat}
    (represents : RepresentsMutations mutations metadata (.cyclic ids cursor))
    (draws : List UInt64) :
    ∃ id,
      ids[cursor]? = some id ∧
        (schedule mutations).outcome (drawing metadata draws) =
          (.ok id, drawing metadata.advance draws) := by
  obtain ⟨isIds, isCursor, inIds, areMutations⟩ := represents
  have isEntry := List.getElem?_eq_getElem inIds
  have isMutation := areMutations _ (List.getElem_mem inIds)
  have isOwn :
      (own : Mutation Metadata Metadata).outcome (drawing metadata draws) =
        (.ok metadata, drawing metadata draws) := rfl
  have isChanged :
      (change Metadata.advance : Mutation Metadata Unit).outcome
          (drawing metadata draws) =
        (.ok (), drawing metadata.advance draws) := rfl
  have isUnwrapped :
      (unwrap (some ids[cursor]) : Mutation Metadata Nat).outcome
          (drawing metadata draws) =
        (.ok ids[cursor], drawing metadata draws) := rfl
  have notEmpty : ¬metadata.mutationIds.isEmpty = true := by
    intro isEmpty
    rw [isIds, List.isEmpty_iff] at isEmpty
    rw [isEmpty] at inIds
    exact Nat.not_lt_zero _ inIds
  refine ⟨_, isEntry, ?_⟩
  unfold schedule
  rw [if_neg (Nat.ne_zero_of_lt isMutation), outcome_bind_ok isOwn,
    if_neg notEmpty, isIds, isCursor, isEntry, outcome_bind_ok isUnwrapped,
    outcome_bind_ok isChanged, if_pos isMutation]
  rfl

theorem represents_advance
    {ids : List Nat}
    {cursor : Nat}
    (represents : RepresentsMutations mutations metadata (.cyclic ids cursor)) :
    RepresentsMutations mutations metadata.advance
      (MutationTuning.cyclic ids cursor).advance := by
  obtain ⟨isIds, isCursor, inIds, areMutations⟩ := represents
  have positive : 0 < ids.length := Nat.zero_lt_of_lt inIds
  refine ⟨isIds, ?_, Nat.mod_lt _ positive, areMutations⟩
  change (if _ then _ else _) = _
  rw [isIds, isCursor]
  split
  · rename_i isLast
    have isEnd : cursor + 1 = ids.length := Nat.le_antisymm inIds isLast
    rw [isEnd, Nat.mod_self]
  · rename_i isInside
    exact (Nat.mod_eq_of_lt (Nat.not_le.mp isInside)).symm

/-- What `schedule` does where the metadata represent a tuning. -/
theorem schedule_spec
    {tuning : MutationTuning}
    (nonempty : 0 < mutations)
    (represents : RepresentsMutations mutations metadata tuning)
    (draws : List UInt64) :
    tuning.Schedules mutations (draws.map UInt64.toNat)
        ((schedule mutations).outcome (drawing metadata draws)).1 ∧
      RepresentsMutations mutations
        ((schedule mutations).outcome (drawing metadata draws)).2.own
        (match ((schedule mutations).outcome (drawing metadata draws)).1 with
          | .ok _ => tuning.advance
          | .error _ => tuning) ∧
      ∀ iters, RepresentsIters metadata iters →
        RepresentsIters
          ((schedule mutations).outcome (drawing metadata draws)).2.own iters := by
  cases tuning with
  | uniform =>
      rw [schedule_uniform nonempty represents, outcome_below]
      cases isDrawn : Rand.below mutations (draws.map UInt64.toNat) with
      | none =>
          refine ⟨?_, represents, fun _ isIters => isIters⟩
          rw [MutationTuning.Schedules, isDrawn]
      | some drawn =>
          refine ⟨?_, represents, fun _ isIters => isIters⟩
          rw [MutationTuning.Schedules, isDrawn]
  | cyclic ids cursor =>
      obtain ⟨id, isEntry, isOutcome⟩ := schedule_cyclic represents draws
      rw [isOutcome]
      refine ⟨⟨id, isEntry, rfl⟩, represents_advance represents, ?_⟩
      intro iters isIters
      cases iters <;> exact isIters
  | sampled distribution =>
      rw [schedule_sampled nonempty represents]
      obtain ⟨rfl, starves⟩ | ⟨value, rest, id, rfl, picks, isOutcome⟩ :=
        @outcome_sample metadata distribution draws
      · rw [starves]
        exact ⟨rfl, represents, fun _ isIters => isIters⟩
      · rw [isOutcome]
        exact ⟨⟨id, picks, rfl⟩, represents, fun _ isIters => isIters⟩

theorem outcome_shiftedOne
    {bits : Nat}
    {state : Drawing Metadata}
    (fits : bits < 64) :
    (shiftedOne bits).outcome state = (.ok (2 ^ bits), state) := by
  unfold shiftedOne
  rw [if_pos fits]
  rfl

theorem Picks.lt_of_sum
    {probabilities : List ℚ}
    {threshold : ℚ}
    {position bound : Nat}
    (picks : Picks probabilities threshold position)
    (nonneg : ∀ probability ∈ probabilities, 0 ≤ probability)
    (atMostOne : threshold ≤ 1)
    (isSum : 1 ≤ (probabilities.take bound).sum)
    (positive : 0 < bound) :
    position < bound := by
  by_contra isOut
  have isOut := Nat.not_lt.mp isOut
  have ordered := sum_take_mono nonneg isOut
  have isAbove := picks.above (Nat.ne_zero_of_lt (positive.trans_le isOut))
  exact absurd (isSum.trans ordered) (not_le.mpr (isAbove.trans_le atMostOne))

/-- What `iterations` does where the metadata represent a tuning. -/
theorem iterations_spec
    {tuning : IterTuning}
    (represents : RepresentsIters metadata tuning)
    (draws : List UInt64) :
    tuning.Iterates (draws.map UInt64.toNat)
        (iterations.outcome (drawing metadata draws)).1 ∧
      (iterations.outcome (drawing metadata draws)).2.own = metadata := by
  have isOwn :
      (own : Mutation Metadata Metadata).outcome (drawing metadata draws) =
        (.ok metadata, drawing metadata draws) := rfl
  unfold iterations
  rw [outcome_bind_ok isOwn]
  cases tuning with
  | random =>
      obtain ⟨noIters, noDistribution⟩ := represents
      rw [noDistribution, noIters, if_pos List.isEmpty_nil]
      dsimp only
      rw [outcome_bind, outcome_below]
      cases isDrawn : Rand.below maxStackPow (draws.map UInt64.toNat) with
      | none =>
          refine ⟨?_, rfl⟩
          rw [IterTuning.Iterates, isDrawn]
      | some drawn =>
          have isBelow : drawn.1 < maxStackPow := Rand.below_lt (by decide) isDrawn
          have fits : 1 + drawn.1 < 64 := by
            unfold maxStackPow at isBelow
            omega
          dsimp only
          rw [outcome_shiftedOne fits]
          refine ⟨?_, rfl⟩
          rw [IterTuning.Iterates, isDrawn]
  | fixed iters =>
      obtain ⟨isIters, noDistribution⟩ := represents
      rw [noDistribution, isIters, if_pos List.isEmpty_nil]
      exact ⟨rfl, rfl⟩
  | sampled distribution =>
      obtain ⟨isDistribution, isSum⟩ := represents
      have notEmpty :
          ¬(calculateCumulativeSumInPlace distribution.probabilities).isEmpty =
            true :=
        fun isEmpty =>
          distribution.cumulative_ne_nil (List.isEmpty_iff.mp isEmpty)
      rw [isDistribution, if_neg notEmpty]
      obtain ⟨rfl, starves⟩ | ⟨value, rest, pow, rfl, picks, isOutcome⟩ :=
        @outcome_sample metadata distribution draws
      · rw [outcome_bind_error starves]
        exact ⟨rfl, rfl⟩
      · have isPower :=
          picks.lt_of_sum distribution.nonneg (coin_le_one value.toNat_lt) isSum
            (by decide)
        rw [outcome_bind_ok isOutcome, outcome_shiftedOne (by omega)]
        exact ⟨⟨pow, picks, rfl⟩, rfl⟩

theorem represents_ofIds
    {ids : List Nat}
    (areMutations : ∀ id ∈ ids, id < mutations)
    (noDistribution :
      ids = [] → metadata.mutationProbabilitiesCumulative = [])
    (isIds : metadata.mutationIds = ids)
    (isStart : metadata.nextId = 0) :
    RepresentsMutations mutations metadata (.ofIds ids) := by
  unfold MutationTuning.ofIds
  split
  · rename_i isEmpty
    exact ⟨isIds.trans isEmpty, isStart, noDistribution isEmpty⟩
  · rename_i nonempty
    exact ⟨isIds, isStart, List.length_pos_iff.mpr nonempty, areMutations⟩

theorem represents_push
    {tuning : MutationTuning}
    {id : Nat}
    (isMutation : id < mutations)
    (represents : RepresentsMutations mutations metadata tuning) :
    RepresentsMutations mutations (metadata.pushMutationId id)
      (tuning.push id) := by
  have alone :
      metadata.mutationIds = [] ∧ metadata.nextId = 0 →
        RepresentsMutations mutations (metadata.pushMutationId id)
          (.cyclic [id] 0) := by
    rintro ⟨noIds, isStart⟩
    refine ⟨?_, isStart, Nat.one_pos, ?_⟩
    · rw [Metadata.pushMutationId, noIds, List.nil_append]
    · rintro other isOther
      obtain rfl := List.mem_singleton.mp isOther
      exact isMutation
  cases tuning with
  | uniform =>
      exact alone ⟨represents.1, represents.2.1⟩
  | cyclic ids cursor =>
      obtain ⟨isIds, isCursor, inIds, areMutations⟩ := represents
      refine ⟨?_, isCursor, ?_, ?_⟩
      · rw [Metadata.pushMutationId, isIds]
      · rw [List.length_append]
        exact Nat.lt_add_right _ inIds
      · intro other isOther
        rcases List.mem_append.mp isOther with isOld | isNew
        · exact areMutations other isOld
        · obtain rfl := List.mem_singleton.mp isNew
          exact isMutation
  | sampled distribution =>
      exact alone ⟨represents.1, represents.2.1⟩

theorem represents_step
    {now next : Tuned}
    {call : Call}
    (nonempty : 0 < mutations)
    (represents : Represents mutations now)
    (keeps : Keeps mutations now call)
    (taken : Step mutations now call next) :
    Represents mutations next := by
  obtain ⟨metadata, tuning⟩ := now
  obtain ⟨after, tuningAfter⟩ := next
  obtain ⟨performed, isTuning⟩ := taken
  obtain ⟨mutationsAre, itersAre⟩ := represents
  dsimp only at performed isTuning mutationsAre itersAre
  subst isTuning
  cases call with
  | setIters iters =>
      obtain rfl := Option.some.inj performed
      refine ⟨?_, rfl, rfl⟩
      cases tuning.mutations <;> exact mutationsAre
  | setIterProbabilitiesPow distribution =>
      obtain rfl := Option.some.inj performed
      refine ⟨?_, rfl, keeps⟩
      cases tuning.mutations <;> exact mutationsAre
  | setMutationIds ids =>
      obtain rfl := Option.some.inj performed
      refine ⟨represents_ofIds keeps.1 keeps.2 rfl rfl, ?_⟩
      cases tuning.iters <;> exact itersAre
  | setMutationProbabilities distribution =>
      obtain rfl := Option.some.inj performed
      refine ⟨⟨rfl, rfl, rfl⟩, ?_⟩
      cases tuning.iters <;> exact itersAre
  | setMutationIdsAndIters ids iters =>
      obtain rfl := Option.some.inj performed
      obtain ⟨areMutations, noDistribution, noIters⟩ := keeps
      exact ⟨represents_ofIds areMutations noDistribution rfl rfl, rfl, noIters⟩
  | pushMutationId id =>
      obtain rfl := Option.some.inj performed
      refine ⟨represents_push keeps mutationsAre, ?_⟩
      cases tuning.iters <;> exact itersAre
  | reset =>
      obtain rfl := Option.some.inj performed
      exact ⟨⟨rfl, rfl, keeps.1⟩, rfl, keeps.2⟩
  | schedule draws =>
      obtain ⟨-, isAdvanced, sameIters⟩ :=
        schedule_spec nonempty mutationsAre draws
      simp only [perform] at performed
      split at performed
      · rename_i id final isOutcome
        obtain rfl := Option.some.inj performed
        rw [isOutcome] at isAdvanced sameIters
        exact ⟨isAdvanced, sameIters _ itersAre⟩
      · cases performed
  | iterations draws =>
      obtain ⟨-, same⟩ := iterations_spec itersAre draws
      simp only [perform] at performed
      split at performed
      · rename_i iters final isOutcome
        obtain rfl := Option.some.inj performed
        rw [isOutcome] at same
        dsimp only at same
        subst same
        exact ⟨mutationsAre, itersAre⟩
      · cases performed

theorem follows_of_represents
    {now : Tuned}
    {call : Call}
    (nonempty : 0 < mutations)
    (represents : Represents mutations now) :
    Follows mutations now call := by
  cases call with
  | schedule draws =>
      exact (schedule_spec nonempty represents.mutationsAre draws).1
  | iterations draws =>
      exact (iterations_spec represents.itersAre draws).1
  | _ =>
      trivial

end

/--
In every run of a mutator in which no setter leaves a distribution behind that it
should have removed, `schedule` and `iterations` do what was set most recently, and
fail only when the generator gives too few numbers.
-/
theorem most_recent_tuning_wins
    (mutations : Nat)
    (nonempty : 0 < mutations)
    (calls : List Call)
    (keeps : Run.Throughout (Step mutations) (Keeps mutations) .new calls) :
    Run.Throughout (Step mutations) (Follows mutations) .new calls := by
  have initially : Represents mutations .new := ⟨⟨rfl, rfl, rfl⟩, rfl, rfl⟩
  refine
    @Run.throughout_of_invariant _ _ (Step mutations) (Keeps mutations)
      (Follows mutations) (Represents mutations) ?_ ?_ _ _ initially keeps
  · exact fun represents _ => follows_of_represents nonempty represents
  · exact represents_step nonempty

/-- The distribution that always picks the first position. -/
def certain : Distribution where
  probabilities := [1]
  nonneg := by simp
  sum_eq := by simp

/-- Distributions are set, and then a list of ids and a fixed count. -/
def retuned : List Call :=
  [.setMutationProbabilities certain, .schedule [1], .setIterProbabilitiesPow certain,
    .iterations [1], .setMutationIds [1, 2], .schedule [], .schedule [], .setIters 5,
    .iterations []]

theorem most_recent_tuning_wins_retuned :
    Run.Throughout (Step 3) (Follows 3) .new retuned := by
  refine most_recent_tuning_wins 3 (by decide) _ ?_
  intro earlier call state isPrefix run
  have isCall : call ∈ retuned :=
    isPrefix.subset (List.mem_append_right _ (List.mem_singleton_self call))
  simp only [retuned, List.mem_cons, List.not_mem_nil, or_false] at isCall
  rcases isCall with rfl | rfl | rfl | rfl | rfl | rfl | rfl | rfl | rfl
  case inr.inr.inl =>
    exact (show (1 : ℚ) ≤ ([1].take 63).sum by simp)
  case inr.inr.inr.inr.inl =>
    exact ⟨by decide, nofun⟩
  all_goals trivial

/--
After a reset, and after a fixed count was set with the ids, the distributions that
were set before are still in use.
-/
theorem distributions_outlive_reset :
    (∃ now,
      Run (Step 3) .new [.setMutationProbabilities certain, .reset] now ∧
        ¬Follows 3 now (.schedule [1])) ∧
      ∃ now,
        Run (Step 3) .new
            [.setIterProbabilitiesPow certain, .setMutationIdsAndIters [0] 5]
            now ∧
          ¬Follows 3 now (.iterations [1]) := by
  have setDistribution :
      Step 3 .new (.setMutationProbabilities certain)
        ⟨Metadata.default.setMutationProbabilities [1], ⟨.sampled certain, .random⟩⟩ :=
    ⟨rfl, rfl⟩
  have reset :
      Step 3
        ⟨Metadata.default.setMutationProbabilities [1], ⟨.sampled certain, .random⟩⟩
        .reset
        ⟨(Metadata.default.setMutationProbabilities [1]).reset,
          ⟨.uniform, .random⟩⟩ :=
    ⟨rfl, rfl⟩
  have setIters :
      Step 3 .new (.setIterProbabilitiesPow certain)
        ⟨Metadata.default.setIterProbabilitiesPow [1], ⟨.uniform, .sampled certain⟩⟩ :=
    ⟨rfl, rfl⟩
  have setBoth :
      Step 3
        ⟨Metadata.default.setIterProbabilitiesPow [1], ⟨.uniform, .sampled certain⟩⟩
        (.setMutationIdsAndIters [0] 5)
        ⟨(Metadata.default.setIterProbabilitiesPow [1]).setMutationIdsAndIters [0] 5,
          ⟨.cyclic [0] 0, .fixed 5⟩⟩ :=
    ⟨rfl, rfl⟩
  refine
    ⟨⟨_, .cons setDistribution (.single reset), fun follows => ?_⟩,
      ⟨_, .cons setIters (.single setBoth), fun follows => ?_⟩⟩
  · have isFirst :
        ((schedule 3).outcome
          (drawing (Metadata.default.setMutationProbabilities [1]).reset
            [1])).1 = .ok 0 := by
      decide +kernel
    have isSecond : _ = Except.ok 1 := follows
    rw [isFirst] at isSecond
    cases isSecond
  · have isPower :
        (iterations.outcome
          (drawing
            ((Metadata.default.setIterProbabilitiesPow [1]).setMutationIdsAndIters
              [0] 5)
            [1])).1 = .ok 2 := by
      decide +kernel
    have isFixed : _ = Except.ok 5 := follows
    rw [isPower] at isFixed
    cases isFixed

end MeFuzz.Mutators.Tuneable
