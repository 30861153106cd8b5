import MeFuzz.MOptScheduler
import Mathlib.Algebra.BigOperators.Fin

namespace MeFuzz.MOptScheduler

open Procedure

/-!
# The distribution of MOpt

In exact arithmetic the positions of a swarm are clamped to positive numbers and
divided by their sum, so the probabilities rise strictly and end at one.  The scan
for a draw then ends at the least operator whose probability exceeds it.
-/

section

variable {Number : Type} [Field Number]
variable {operatorNum : Nat} {row : Fin operatorNum → Number}

theorem asF64_eq (whole : Nat) : (asF64 whole : Number) = whole := by
  rw [asF64, NNRatCast.ofScientific_eq_ite]
  simp

theorem cumulativeAt_eq_sum
    {index : Nat}
    (isIndex : index < operatorNum) :
    cumulativeAt row index isIndex = ((List.ofFn row).take (index + 1)).sum := by
  induction index with
  | zero =>
      rw [List.sum_take_succ _ _ (by simpa using isIndex)]
      simp [cumulativeAt]
  | succ index ih =>
      rw [List.sum_take_succ _ _ (by simpa using isIndex), cumulativeAt,
        ih]
      simp

theorem cumulativeAt_last
    {index : Nat}
    (isLast : index + 1 = operatorNum) :
    cumulativeAt row index (isLast ▸ Nat.lt_succ_self index) = (List.ofFn row).sum := by
  rw [cumulativeAt_eq_sum, isLast, List.take_of_length_le (by simp)]

variable [LinearOrder Number] [IsStrictOrderedRing Number]

theorem total_eq_sum (row : Fin operatorNum → Number) :
    total row = ∑ operator, row operator := by
  rw [total, ← List.sum_ofFn, List.sum_eq_foldl]
  norm_num

theorem clamp_pos (number : Number) : 0 < clamp number vMin vMax := by
  have minPos : (0 : Number) < vMin := by norm_num [vMin]
  have maxPos : (0 : Number) < vMax := by norm_num [vMax]
  have raisedPos : 0 < if number < vMin then vMin else number := by
    split
    · exact minPos
    · rename_i notBelow
      exact minPos.trans_le (not_lt.mp notBelow)
  exact ite_pos maxPos raisedPos

theorem cumulative_strictMono
    (positive : ∀ operator, 0 < row operator) :
    StrictMono (cumulative row) := by
  suffices
      ∀ later isIndex, ∀ operator : Fin operatorNum, operator.val < later →
        cumulativeAt row operator operator.isLt < cumulativeAt row later isIndex from
    fun first second isBefore => this second second.isLt first isBefore
  intro later
  induction later with
  | zero =>
      intro _ operator isBefore
      exact absurd isBefore (Nat.not_lt_zero _)
  | succ later ih =>
      intro isIndex operator isBefore
      have rises :
          cumulativeAt row later (Nat.lt_of_succ_lt isIndex) <
            cumulativeAt row (later + 1) isIndex :=
        lt_add_of_pos_right _ (positive _)
      rcases Nat.lt_succ_iff_lt_or_eq.mp isBefore with earlier | same
      · exact (ih _ operator earlier).trans rises
      · exact (by simpa only [same] using rises)

theorem normalised_spec
    (some : 0 < operatorNum)
    (positive : ∀ operator, 0 < row operator) :
    (∀ operator, 0 < normalised row operator) ∧
      (List.ofFn (normalised row)).sum = 1 := by
  have sum := total_eq_sum row
  have sumPos : 0 < total row := by
    rw [sum]
    exact Finset.sum_pos (fun operator _ => positive operator)
      ⟨⟨0, some⟩, Finset.mem_univ _⟩
  refine ⟨fun operator => div_pos (positive operator) sumPos, ?_⟩
  rw [List.sum_ofFn]
  change ∑ operator, row operator / total row = 1
  rw [← Finset.sum_div, ← sum, div_self sumPos.ne']

/-- Cumulative probabilities: positive, strictly rising, and one at the end. -/
structure IsDistribution (probabilityNow : Fin operatorNum → Number) : Prop where
  positive : ∀ operator, 0 < probabilityNow operator
  rises : StrictMono probabilityNow
  ends : ∀ operator : Fin operatorNum, operator.val + 1 = operatorNum →
    probabilityNow operator = 1

theorem isDistribution_cumulative
    (some : 0 < operatorNum)
    (positive : ∀ operator, 0 < row operator) :
    IsDistribution (cumulative (normalised row)) := by
  obtain ⟨partsPositive, makeUpOne⟩ := normalised_spec some positive
  have rises := cumulative_strictMono partsPositive
  refine ⟨fun operator => ?_, rises, fun operator isLast => ?_⟩
  · have first : 0 < cumulative (normalised row) ⟨0, some⟩ := partsPositive _
    exact first.trans_le (rises.monotone (Nat.zero_le _))
  · rw [← makeUpOne]
    exact cumulativeAt_last isLast

variable {probabilityNow : Fin operatorNum → Number}

omit [IsStrictOrderedRing Number] in
theorem IsDistribution.lastOf_eq_one
    (some : 0 < operatorNum)
    (distribution : IsDistribution probabilityNow) :
    lastOf probabilityNow = .ok 1 := by
  rw [lastOf_eq some, distribution.ends _ (Nat.sub_add_cancel some)]

theorem IsDistribution.checkLast_eq
    (some : 0 < operatorNum)
    (distribution : IsDistribution probabilityNow) :
    checkLast probabilityNow = .ok () := by
  rw [checkLast, distribution.lastOf_eq_one some]
  change (if _ then _ else _) = _
  rw [if_neg (by norm_num)]
  rfl

variable {Rand : Type} {swarmNum : Nat}
variable (generator : Generator Rand)

/-- The probabilities of some swarms are distributions, and a swarm is in use. -/
structure Distributed
    (swarms : List (Fin swarmNum))
    (swarmNow : Nat)
    (mopt : MOpt Number Rand operatorNum swarmNum) : Prop where
  probabilities : ∀ swarm ∈ swarms, IsDistribution (mopt.swarms swarm).probabilityNow
  swarmNow : mopt.swarmNow = swarmNow

theorem moveSwarm_satisfies
    (some : 0 < operatorNum)
    (swarms : List (Fin swarmNum))
    (swarmNow : Nat)
    (swarm : Fin swarmNum)
    {failed : Failure → MOpt Number Rand operatorNum swarmNum → Prop} :
    Satisfies (Distributed swarms swarmNow) (moveSwarm generator swarm)
      (fun _ => Distributed (swarms ++ [swarm]) swarmNow) failed := by
  intro mopt distributed
  have isDistribution :
      ∀ draws,
        IsDistribution
          ((mopt.swarms swarm).move mopt.wNow mopt.gBest draws).probabilityNow :=
    fun draws => isDistribution_cumulative some fun operator => clamp_pos _
  rw [moveSwarm, outcome_bind_ok outcome_get]
  generalize drawEach (drawPair generator) operatorNum mopt.rand = drawn
  obtain ⟨draws, rand⟩ := drawn
  rw [outcome_bind_ok (outcome_set _), (isDistribution draws).checkLast_eq some]
  refine ⟨fun other isSwarm => ?_, distributed.swarmNow⟩
  change
    IsDistribution (Function.update mopt.swarms swarm _ other).probabilityNow
  by_cases isSame : other = swarm
  · rw [isSame, Function.update_self]
    exact isDistribution draws
  · rw [Function.update_of_ne isSame]
    refine distributed.probabilities other ?_
    simpa [isSame] using isSwarm

omit [IsStrictOrderedRing Number] in
theorem startSwarm_distributed
    {swarms : List (Fin swarmNum)}
    {swarmNow : Nat}
    {mopt : MOpt Number Rand operatorNum swarmNum}
    (swarm : Fin swarmNum)
    (distributed : Distributed swarms swarmNow mopt) :
    Distributed swarms swarmNow (startSwarm generator swarm mopt) := by
  refine ⟨fun other isSwarm => ?_, distributed.swarmNow⟩
  change
    IsDistribution (Function.update mopt.swarms swarm _ other).probabilityNow
  by_cases isSame : other = swarm
  · rw [isSame, Function.update_self]
    exact distributed.probabilities swarm (isSame ▸ isSwarm)
  · rw [Function.update_of_ne isSame]
    exact distributed.probabilities other isSwarm

/-- `pso_initialize` gives each swarm a distribution. -/
theorem psoInitialize_satisfies
    (some : 0 < operatorNum)
    (swarmNow : Nat) :
    Satisfies (fun mopt : MOpt Number Rand operatorNum swarmNum =>
        mopt.swarmNow = swarmNow)
      (psoInitialize generator)
      (fun _ => Distributed (List.finRange swarmNum) swarmNow)
      fun _ _ => False := by
  refine Satisfies.through (Distributed [] swarmNow) ?_ fun _ => ?_
  · intro mopt inUse
    exact ⟨fun _ isSwarm => absurd isSwarm List.not_mem_nil, inUse⟩
  · refine Satisfies.forM (fun done => Distributed done swarmNow)
      fun done swarm _ _ => ?_
    refine Satisfies.through (Distributed done swarmNow) ?_ fun _ =>
      moveSwarm_satisfies generator some done swarmNow swarm
    intro mopt distributed
    exact startSwarm_distributed generator swarm distributed

/--
`pso_update` gives each swarm a distribution, unless the sum of the finds does not
fit its type.
-/
theorem psoUpdate_satisfies
    (some : 0 < operatorNum)
    (mopt : MOpt Number Rand operatorNum swarmNum) :
    Satisfies (· = mopt) (psoUpdate generator)
      (fun _ => Distributed (List.finRange swarmNum) 0)
      fun failure _ => failure = .overflow ∧ 2 ^ 64 ≤ mopt.findsSum := by
  rintro start rfl
  rw [psoUpdate, outcome_bind_ok (outcome_modify _), outcome_bind_ok (outcome_modify _)]
  have sameFinds :
      ({ start with gNow := start.gNow + 1.0 } :
        MOpt Number Rand operatorNum swarmNum).weigh.findsSum = start.findsSum := rfl
  rw [← sameFinds]
  generalize
    ({ start with gNow := start.gNow + 1.0 } :
      MOpt Number Rand operatorNum swarmNum).weigh = weighed
  refine
    Satisfies.bind (sumFinds_satisfies weighed) (fun operatorFindsSum => ?_) weighed
      ⟨_, rfl⟩
  refine Satisfies.through (Distributed [] weighed.swarmNow) ?_ fun _ => ?_
  · rintro _ ⟨operatorFindsPuppet, rfl⟩
    exact ⟨fun _ isSwarm => absurd isSwarm List.not_mem_nil, rfl⟩
  refine
    Satisfies.bind
      (Satisfies.forM (fun done => Distributed done weighed.swarmNow)
        fun done swarm _ _ => moveSwarm_satisfies generator some done _ swarm)
      fun _ => ?_
  intro moved distributed
  exact ⟨distributed.probabilities, rfl⟩

end

section

variable {Number : Type} [Field Number] [LinearOrder Number]
variable {operatorNum : Nat} {probabilityNow : Fin operatorNum → Number}
variable {operator : Fin operatorNum} {selectProb : Number}

omit [Field Number] in
theorem scan_eq
    {before rest : List (Fin operatorNum)}
    (notBefore : ∀ earlier ∈ before, ¬selectProb < probabilityNow earlier)
    (exceeds : selectProb < probabilityNow operator) :
    scan selectProb probabilityNow (before ++ operator :: rest) =
      (operator.val, if operator.val = 0 then 0 else 1) := by
  induction before with
  | nil =>
      rw [List.nil_append, scan, if_pos exceeds, if_pos exceeds]
      split <;> rfl
  | cons earlier before ih =>
      have notFirst := notBefore earlier List.mem_cons_self
      rw [List.cons_append, scan, if_neg notFirst, if_neg notFirst, ite_self]
      exact ih fun later isLater =>
        notBefore later (List.mem_cons_of_mem _ isLater)

omit [Field Number] in
theorem isBelowBefore_eq
    (notBefore : ∀ earlier < operator, ¬selectProb < probabilityNow earlier) :
    isBelowBefore selectProb probabilityNow operator
        (if operator.val = 0 then 0 else 1) = .ok false := by
  by_cases isFirst : operator.val = 0
  · rw [if_pos isFirst]
    rfl
  · have isOperator : 1 ≤ operator.val := Nat.pos_of_ne_zero isFirst
    have isEarlier : operator.val - 1 < operator.val :=
      Nat.sub_lt isOperator Nat.one_pos
    have isIndex := isEarlier.trans operator.isLt
    have notBelow := notBefore ⟨operator - 1, isIndex⟩ isEarlier
    rw [if_neg isFirst, isBelowBefore, if_pos rfl, subU64, if_pos isOperator]
    change (entry probabilityNow (operator - 1) >>= fun _ => _) = _
    rw [entry, dif_pos isIndex]
    exact congrArg Except.ok (decide_eq_false notBelow)

theorem IsDistribution.isAboveBehind_eq
    (distribution : IsDistribution probabilityNow)
    (exceeds : selectProb < probabilityNow operator) :
    isAboveBehind selectProb probabilityNow operator = .ok false := by
  by_cases isOperator : operator.val + 1 < operatorNum
  · have rises :
        probabilityNow operator < probabilityNow ⟨operator + 1, isOperator⟩ :=
      distribution.rises (Nat.lt_succ_self operator.val)
    rw [isAboveBehind, if_pos isOperator, entry, dif_pos isOperator]
    exact congrArg Except.ok (decide_eq_false (exceeds.trans rises).not_gt)
  · rw [isAboveBehind, if_neg isOperator]
    rfl

theorem IsDistribution.checkNeighbours_eq
    (distribution : IsDistribution probabilityNow)
    (notBefore : ∀ earlier < operator, ¬selectProb < probabilityNow earlier)
    (exceeds : selectProb < probabilityNow operator) :
    checkNeighbours selectProb probabilityNow operator
        (if operator.val = 0 then 0 else 1) = .ok () := by
  rw [checkNeighbours, isBelowBefore_eq notBefore,
    distribution.isAboveBehind_eq exceeds]
  rfl

theorem exists_split_finRange (operator : Fin operatorNum) :
    ∃ before rest,
      List.finRange operatorNum = before ++ operator :: rest ∧
        ∀ earlier ∈ before, earlier < operator := by
  obtain ⟨before, rest, split⟩ :=
    List.append_of_mem (List.mem_finRange operator)
  have ordered := List.pairwise_lt_finRange operatorNum
  rw [split, List.pairwise_append] at ordered
  exact ⟨before, rest, split, fun earlier isBefore =>
    ordered.2.2 earlier isBefore operator List.mem_cons_self⟩

variable [IsStrictOrderedRing Number]
variable {Rand : Type} {swarmNum : Nat} {generator : Generator Rand}
variable {mopt : MOpt Number Rand operatorNum swarmNum}

/-- What `select_algorithm` draws, as a part of one. -/
def drawn
    (generator : Generator Rand)
    (rand : Rand) : Number :=
  ((generator.below 10000 rand).1 : Number) / 10000

theorem drawn_lt_one
    (generator : Generator Rand)
    (rand : Rand) : drawn generator rand < (1 : Number) := by
  have isBelow : (generator.below 10000 rand).1 < 10000 :=
    generator.below_lt rand (by norm_num)
  rw [drawn, div_lt_one (by norm_num)]
  exact_mod_cast isBelow

theorem selectProbOf_one (rand : Rand) :
    selectProbOf 1 (generator.below 10000 rand).1 = (drawn generator rand : Number) := by
  rw [selectProbOf, drawn, asF64_eq, one_mul, div_eq_mul_inv]
  norm_num

omit [IsStrictOrderedRing Number] in
theorem IsDistribution.exists_first
    (some : 0 < operatorNum)
    (distribution : IsDistribution probabilityNow)
    (lessThanOne : selectProb < 1) :
    ∃ operator, selectProb < probabilityNow operator ∧
      ∀ earlier < operator, ¬selectProb < probabilityNow earlier := by
  have lastExceeds :
      selectProb < probabilityNow ⟨operatorNum - 1, Nat.sub_lt some Nat.one_pos⟩ := by
    rw [distribution.ends _ (Nat.sub_add_cancel some)]
    exact lessThanOne
  obtain ⟨operator, exceeds, isMinimal⟩ :=
    wellFounded_lt.has_min {operator | selectProb < probabilityNow operator}
      ⟨_, lastExceeds⟩
  exact ⟨operator, exceeds, fun earlier isEarlier exceedsEarlier =>
    isMinimal earlier exceedsEarlier isEarlier⟩

theorem selectAlgorithm_isLeast
    (some : 0 < operatorNum)
    (inUse : mopt.swarmNow < swarmNum)
    (distribution : IsDistribution (mopt.swarms ⟨mopt.swarmNow, inUse⟩).probabilityNow) :
    ∃ index,
      outcome (selectAlgorithm generator) mopt =
          (.ok index, { mopt with rand := (generator.below 10000 mopt.rand).2 }) ∧
        IsLeast
          {index | ∃ isOperator,
            drawn generator mopt.rand <
              (mopt.swarms ⟨mopt.swarmNow, inUse⟩).probabilityNow ⟨index, isOperator⟩}
          index := by
  generalize isTable :
    (mopt.swarms ⟨mopt.swarmNow, inUse⟩).probabilityNow = probabilityNow
    at distribution ⊢
  obtain ⟨operator, exceeds, notBefore⟩ :=
    distribution.exists_first some (drawn_lt_one generator mopt.rand)
  obtain ⟨before, rest, split, areEarlier⟩ := exists_split_finRange operator
  refine ⟨operator, ?_, ⟨operator.isLt, exceeds⟩, ?_⟩
  · rw [selectAlgorithm, outcome_bind_ok outcome_get, swarmAt_eq inUse,
      outcome_bind_ok (outcome_lift _), isTable, distribution.lastOf_eq_one some,
      outcome_bind_ok (outcome_lift _)]
    change outcome (set _ >>= fun _ => _) mopt = _
    rw [outcome_bind_ok (outcome_set _), selectProbOf_one, split]
    dsimp only
    rw [scan_eq (fun earlier isBefore => notBefore earlier (areEarlier earlier isBefore))
      exceeds]
    dsimp only
    rw [distribution.checkNeighbours_eq notBefore exceeds]
    rfl
  · rintro index ⟨isOperator, exceedsThere⟩
    by_contra isEarlier
    exact notBefore ⟨index, isOperator⟩ (not_le.mp isEarlier) exceedsThere

/--
A scheduler that has been initialised, and updated any number of times.  Between
the updates anything may change but the probabilities.
-/
inductive Reachable (generator : Generator Rand) :
    MOpt Number Rand operatorNum swarmNum → Prop where
  | initialised
      {rand : Rand}
      {mopt : MOpt Number Rand operatorNum swarmNum}
      (isNew : new generator rand = .ok mopt) :
      Reachable generator mopt
  | used
      {before after : MOpt Number Rand operatorNum swarmNum}
      (reachable : Reachable generator before)
      (inUse : after.swarmNow < swarmNum)
      (same : ∀ swarm,
        (after.swarms swarm).probabilityNow = (before.swarms swarm).probabilityNow) :
      Reachable generator after
  | updated
      {before after : MOpt Number Rand operatorNum swarmNum}
      (reachable : Reachable generator before)
      (returned : outcome (psoUpdate generator) before = (.ok (), after)) :
      Reachable generator after

theorem exists_new
    (some : 0 < operatorNum)
    (generator : Generator Rand)
    (rand : Rand) :
    ∃ mopt : MOpt Number Rand operatorNum swarmNum,
      new generator rand = .ok mopt ∧
        Distributed (List.finRange swarmNum) 0 mopt := by
  have initialised :=
    psoInitialize_satisfies generator some 0
      (fresh rand : MOpt Number Rand operatorNum swarmNum) rfl
  rw [new]
  generalize
    outcome (psoInitialize generator)
      (fresh rand : MOpt Number Rand operatorNum swarmNum) = result
    at initialised ⊢
  obtain ⟨returned, next⟩ := result
  cases returned with
  | error failure =>
      exact False.elim initialised
  | ok _ =>
      exact ⟨next, rfl, initialised⟩

theorem Reachable.distributed
    (some : 0 < operatorNum)
    (oneSwarm : 0 < swarmNum)
    (reachable : Reachable generator mopt) :
    mopt.swarmNow < swarmNum ∧
      ∀ swarm, IsDistribution (mopt.swarms swarm).probabilityNow := by
  induction reachable with
  | @initialised rand mopt isNew =>
      obtain ⟨start, isStart, distributed⟩ :
          ∃ start : MOpt Number Rand operatorNum swarmNum, _ :=
        exists_new some generator rand
      obtain rfl := Except.ok.inj (isStart.symm.trans isNew)
      exact ⟨distributed.swarmNow.symm ▸ oneSwarm, fun swarm =>
        distributed.probabilities swarm (List.mem_finRange swarm)⟩
  | used _ inUse same ih =>
      exact ⟨inUse, fun swarm => same swarm ▸ ih.2 swarm⟩
  | @updated before after _ returned _ =>
      have updated := psoUpdate_satisfies generator some before before rfl
      rw [returned] at updated
      exact ⟨updated.swarmNow.symm ▸ oneSwarm, fun swarm =>
        updated.probabilities swarm (List.mem_finRange swarm)⟩

theorem psoInitialize_returns
    (some : 0 < operatorNum)
    (start : MOpt Number Rand operatorNum swarmNum) :
    (outcome (psoInitialize generator) start).1 = .ok () := by
  have initialised := psoInitialize_satisfies generator some start.swarmNow start rfl
  generalize outcome (psoInitialize generator) start = result at initialised ⊢
  obtain ⟨returned, next⟩ := result
  cases returned with
  | error failure =>
      exact False.elim initialised
  | ok _ =>
      rfl

theorem psoUpdate_returns
    (some : 0 < operatorNum)
    (mopt : MOpt Number Rand operatorNum swarmNum) :
    (outcome (psoUpdate generator) mopt).1 = .ok () ∨
      (outcome (psoUpdate generator) mopt).1 = .error .overflow ∧
        2 ^ 64 ≤ mopt.findsSum := by
  have updated := psoUpdate_satisfies generator some mopt mopt rfl
  generalize outcome (psoUpdate generator) mopt = result at updated ⊢
  obtain ⟨returned, next⟩ := result
  cases returned with
  | error failure =>
      exact .inr ⟨updated.1 ▸ rfl, updated.2⟩
  | ok _ =>
      exact .inl rfl

/--
In exact arithmetic, initialising and updating the scheduler never fail but for counts
that do not fit their type.  After any run `select_algorithm` returns the least
operator whose cumulative probability exceeds the draw.
-/
theorem selectAlgorithm_inverts_distribution
    (some : 0 < operatorNum)
    (oneSwarm : 0 < swarmNum)
    (reachable : Reachable generator mopt) :
    (∀ start : MOpt Number Rand operatorNum swarmNum,
        (outcome (psoInitialize generator) start).1 = .ok ()) ∧
      ((outcome (psoUpdate generator) mopt).1 = .ok () ∨
        (outcome (psoUpdate generator) mopt).1 = .error .overflow ∧
          2 ^ 64 ≤ mopt.findsSum) ∧
      ∃ inUse index,
        outcome (selectAlgorithm generator) mopt =
            (.ok index, { mopt with rand := (generator.below 10000 mopt.rand).2 }) ∧
          IsLeast
            {index | ∃ isOperator,
              drawn generator mopt.rand <
                (mopt.swarms ⟨mopt.swarmNow, inUse⟩).probabilityNow ⟨index, isOperator⟩}
            index := by
  obtain ⟨inUse, distributions⟩ := reachable.distributed some oneSwarm
  exact ⟨psoInitialize_returns some, psoUpdate_returns some mopt, inUse,
    selectAlgorithm_isLeast some inUse (distributions _)⟩

end

/-- Two operators, whose draw is zero, after an update of their swarm. -/
theorem selectAlgorithm_of_two :
    ∃ before mopt : MOpt ℚ Unit 2 1,
      Reachable lowest before ∧
        outcome (psoUpdate lowest) before = (.ok (), mopt) ∧
          ∃ index, (outcome (selectAlgorithm lowest) mopt).1 = .ok index := by
  obtain ⟨before, isNew, _⟩ : ∃ before : MOpt ℚ Unit 2 1, _ :=
    exists_new (by decide) lowest ()
  have reachable := Reachable.initialised isNew
  have noFinds : before.findsSum = 0 := by
    have computed : (new lowest () : Except _ (MOpt ℚ Unit 2 1)).map (·.findsSum) = .ok 0 := by
      decide +kernel
    rw [isNew] at computed
    exact Except.ok.inj computed
  obtain ⟨_, updates, _⟩ :=
    selectAlgorithm_inverts_distribution (by decide) (by decide) reachable
  have returns : (outcome (psoUpdate lowest) before).1 = .ok () :=
    updates.resolve_right fun overflows => absurd (noFinds ▸ overflows.2) (by decide)
  have updated : outcome (psoUpdate lowest) before = (.ok (), _) := Prod.ext returns rfl
  obtain ⟨_, _, _, index, returned, _⟩ :=
    selectAlgorithm_inverts_distribution (by decide) (by decide)
      (reachable.updated updated)
  exact ⟨before, _, reachable, updated, index, congrArg Prod.fst returned⟩

/-- Without operators there is no last probability to be checked. -/
theorem psoInitialize_without_operators_panics :
    (outcome (psoInitialize lowest) (fresh () : MOpt ℚ Unit 0 1)).1 =
      .error .underflow := by
  rfl

end MeFuzz.MOptScheduler
