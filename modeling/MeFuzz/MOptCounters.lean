import MeFuzz.MOptMutator

namespace MeFuzz.MOptScheduler

open Procedure
open Mutators (MutationResult)

/-!
# The counters of MOpt stay ordered

What has been kept of a counter never exceeds it, in core mode as for each swarm.  So
no difference of counters falls below zero, whichever mutator ends a period that
another has begun.
-/

namespace OperatorCounters

variable {operatorNum : Nat}

/-- What has been kept of the counters does not exceed them. -/
structure Ordered (counters : OperatorCounters operatorNum) : Prop where
  lastCycles : ∀ operator,
    counters.operatorCyclesV3 operator ≤ counters.operatorCyclesV2 operator
  cycles : ∀ operator,
    counters.operatorCycles operator ≤ counters.operatorCyclesV2 operator
  finds : ∀ operator,
    counters.operatorFinds operator ≤ counters.operatorFindsV2 operator

theorem ordered_zero : Ordered (zero : OperatorCounters operatorNum) :=
  ⟨fun _ => le_rfl, fun _ => le_rfl, fun _ => le_rfl⟩

/-- A change that keeps counters in order, and fails only when one is too large. -/
def KeepsOrder
    (change : OperatorCounters operatorNum →
      Except Failure (OperatorCounters operatorNum)) : Prop :=
  ∀ counters, counters.Ordered →
    match change counters with
    | .ok next => next.Ordered
    | .error failure => failure = .overflow

variable {lesser greater : Fin operatorNum → Nat}
variable {operator : Fin operatorNum}

theorem le_update
    {more : Nat}
    (ordered : ∀ other, lesser other ≤ greater other)
    (inOrder : lesser operator ≤ more)
    (other : Fin operatorNum) :
    lesser other ≤ Function.update greater operator more other := by
  by_cases isSame : other = operator
  · rw [isSame, Function.update_self]
    exact inOrder
  · rw [Function.update_of_ne isSame]
    exact ordered other

theorem update_le_update
    {less more : Nat}
    (ordered : ∀ other, lesser other ≤ greater other)
    (inOrder : less ≤ more)
    (other : Fin operatorNum) :
    Function.update lesser operator less other ≤
      Function.update greater operator more other := by
  by_cases isSame : other = operator
  · rw [isSame, Function.update_self, Function.update_self]
    exact inOrder
  · rw [Function.update_of_ne isSame, Function.update_of_ne isSame]
    exact ordered other

theorem update_le
    {less : Nat}
    (ordered : ∀ other, lesser other ≤ greater other)
    (inOrder : less ≤ greater operator)
    (other : Fin operatorNum) :
    Function.update lesser operator less other ≤ greater other := by
  rw [← Function.update_eq_self operator greater]
  exact update_le_update ordered inOrder other

variable {counters : OperatorCounters operatorNum}

theorem Ordered.keepCycles
    (ordered : counters.Ordered)
    (operator : Fin operatorNum) :
    (counters.keepCycles operator).Ordered where
  lastCycles := update_le ordered.lastCycles le_rfl
  cycles := ordered.cycles
  finds := ordered.finds

theorem Ordered.keep
    (ordered : counters.Ordered)
    (operator : Fin operatorNum) :
    (counters.keep operator).Ordered where
  lastCycles := ordered.lastCycles
  cycles := update_le ordered.cycles le_rfl
  finds := update_le ordered.finds le_rfl

theorem Ordered.goBack
    (ordered : counters.Ordered)
    (operator : Fin operatorNum) :
    (counters.goBack operator).Ordered where
  lastCycles := update_le_update ordered.lastCycles le_rfl
  cycles := le_update ordered.cycles le_rfl
  finds := le_update ordered.finds le_rfl

theorem le_add
    (ordered : ∀ other, lesser other ≤ greater other)
    (operator : Fin operatorNum)
    (amount : Nat) :
    lesser operator ≤ greater operator + amount :=
  (ordered operator).trans (Nat.le_add_right _ _)

theorem keepsOrder_addCycle
    {idx : Nat}
    (isOperator : idx < operatorNum) :
    KeepsOrder fun counters : OperatorCounters operatorNum => counters.addCycle idx := by
  intro counters ordered
  dsimp only
  by_cases fits : counters.operatorCyclesV2 ⟨idx, isOperator⟩ + 1 < 2 ^ 64
  · have added :
        counters.addCycle idx =
          .ok { counters with
            operatorCyclesV2 :=
              Function.update counters.operatorCyclesV2 ⟨idx, isOperator⟩
                (counters.operatorCyclesV2 ⟨idx, isOperator⟩ + 1) } := by
      simp only [addCycle, entry, dif_pos isOperator, bind, Except.bind, addU64,
        if_pos fits]
    rw [added]
    exact
      { lastCycles := le_update ordered.lastCycles (le_add ordered.lastCycles _ 1)
        cycles := le_update ordered.cycles (le_add ordered.cycles _ 1)
        finds := ordered.finds }
  · have overflows : counters.addCycle idx = .error .overflow := by
      simp only [addCycle, entry, dif_pos isOperator, bind, Except.bind, addU64,
        if_neg fits]
    rw [overflows]

theorem keepsOrder_addFinds
    (operator : Fin operatorNum)
    (diff : Nat) :
    KeepsOrder fun counters => counters.addFinds operator diff := by
  intro counters ordered
  dsimp only
  by_cases isUsed :
      counters.operatorCyclesV3 operator < counters.operatorCyclesV2 operator
  · by_cases fits : counters.operatorFindsV2 operator + diff < 2 ^ 64
    · simp only [addFinds, if_pos isUsed, addU64, if_pos fits, bind, Except.bind]
      exact
        { lastCycles := ordered.lastCycles
          cycles := ordered.cycles
          finds := le_update ordered.finds (le_add ordered.finds operator diff) }
    · simp only [addFinds, if_pos isUsed, addU64, if_neg fits, bind, Except.bind]
  · simp only [addFinds, if_neg isUsed]
    exact ordered

end OperatorCounters

section

variable {Number Rand : Type}
variable {operatorNum swarmNum : Nat}

/-- The counters are ordered, and the swarm in use is below a bound. -/
structure MOpt.OrderedBelow
    (bound : Nat)
    (mopt : MOpt Number Rand operatorNum swarmNum) : Prop where
  swarmNow : mopt.swarmNow < bound
  core : mopt.core.Ordered
  pilot : ∀ swarm, (mopt.swarms swarm).pilot.Ordered
  finds : mopt.findsUntilLastSwarm ≤ mopt.totalFinds

/-- The counters are ordered, and the swarm in use is one of the swarms. -/
abbrev MOpt.Ordered (mopt : MOpt Number Rand operatorNum swarmNum) : Prop :=
  mopt.OrderedBelow swarmNum

/-- A procedure that keeps the order, and fails only when a number is too large. -/
abbrev KeepsOrdered
    {Value : Type}
    (bound : Nat)
    (procedure : Procedure Failure (MOpt Number Rand operatorNum swarmNum) Value) : Prop :=
  Preserves (MOpt.OrderedBelow bound) procedure (fun _ => True) (· = .overflow)

variable {bound : Nat}

theorem addU64_fails
    {first second : Nat}
    {failure : Failure}
    (failed : addU64 first second = .error failure) :
    failure = .overflow := by
  rw [addU64] at failed
  split at failed
  · cases failed
  · exact (Except.error.inj failed).symm

theorem keepsOrdered_addU64 (first second : Nat) :
    KeepsOrdered bound
      (liftM (addU64 first second) :
        Procedure Failure (MOpt Number Rand operatorNum swarmNum) Nat) :=
  Preserves.lift (fun _ _ => trivial) fun _ => addU64_fails

variable {Value : Type}

theorem keepsOrdered_pure
    (value : Value) :
    KeepsOrdered bound
      (pure value : Procedure Failure (MOpt Number Rand operatorNum swarmNum) Value) :=
  Preserves.pure trivial

theorem MOpt.OrderedBelow.setSwarm
    {mopt : MOpt Number Rand operatorNum swarmNum}
    {entries : Swarm Number operatorNum}
    (ordered : mopt.OrderedBelow bound)
    (swarm : Fin swarmNum)
    (isOrdered : entries.pilot.Ordered) :
    (mopt.setSwarm swarm entries).OrderedBelow bound where
  swarmNow := ordered.swarmNow
  core := ordered.core
  pilot other := by
    change (Function.update mopt.swarms swarm entries other).pilot.Ordered
    by_cases isSame : other = swarm
    · rw [isSame, Function.update_self]
      exact isOrdered
    · rw [Function.update_of_ne isSame]
      exact ordered.pilot other
  finds := ordered.finds

/-- A way to change counters that keeps the order when the change does. -/
def Counts
    (bound : Nat)
    (counting :
      (OperatorCounters operatorNum → Except Failure (OperatorCounters operatorNum)) →
        Procedure Failure (MOpt Number Rand operatorNum swarmNum) Unit) : Prop :=
  ∀ change, OperatorCounters.KeepsOrder change → KeepsOrdered bound (counting change)

theorem counts_changeCore :
    Counts bound (@changeCore Number Rand operatorNum swarmNum) := by
  intro change keeps mopt ordered
  have changed := keeps mopt.core ordered.core
  rw [changeCore, outcome_bind_ok outcome_get, outcome_bind, outcome_lift]
  generalize change mopt.core = result at changed ⊢
  cases result with
  | error failure =>
      exact changed
  | ok core =>
      exact ⟨trivial, ordered.swarmNow, changed, ordered.pilot, ordered.finds⟩

theorem keepsOrdered_changeSwarm
    {swarm : Nat}
    {change : Swarm Number operatorNum → Except Failure (Swarm Number operatorNum)}
    (isSwarm : swarm < swarmNum)
    (keeps : ∀ entries, entries.pilot.Ordered →
      match change entries with
      | .ok next => next.pilot.Ordered
      | .error failure => failure = .overflow) :
    KeepsOrdered bound
      (changeSwarm swarm change :
        Procedure Failure (MOpt Number Rand operatorNum swarmNum) Unit) := by
  intro mopt ordered
  have changed := keeps (mopt.swarms ⟨swarm, isSwarm⟩) (ordered.pilot _)
  rw [changeSwarm, dif_pos isSwarm, outcome_bind_ok outcome_get, outcome_bind,
    outcome_lift]
  generalize change (mopt.swarms ⟨swarm, isSwarm⟩) = result at changed ⊢
  cases result with
  | error failure =>
      exact changed
  | ok entries =>
      exact ⟨trivial, ordered.setSwarm _ changed⟩

theorem counts_changePilot
    {swarm : Nat}
    (isSwarm : swarm < swarmNum) :
    Counts bound (@changePilot Number Rand operatorNum swarmNum swarm) := by
  intro change keeps
  refine keepsOrdered_changeSwarm isSwarm fun entries isOrdered => ?_
  have changed := keeps entries.pilot isOrdered
  generalize change entries.pilot = result at changed ⊢
  cases result with
  | error failure =>
      exact changed
  | ok pilot =>
      exact changed

theorem keepsOrdered_countFinds
    {counting :
      (OperatorCounters operatorNum → Except Failure (OperatorCounters operatorNum)) →
        Procedure Failure (MOpt Number Rand operatorNum swarmNum) Unit}
    (counts : Counts bound counting)
    (before after : Nat) :
    KeepsOrdered bound (countFinds counting before after) := by
  rw [countFinds]
  split
  · intro mopt ordered
    rw [outcome_bind_ok outcome_get, outcome_bind, outcome_lift, addU64]
    by_cases fits : mopt.totalFinds + (after - before) < 2 ^ 64
    · rw [if_pos fits]
      dsimp only
      rw [outcome_bind_ok (outcome_modify _)]
      refine
        Preserves.forM _
          (fun operator => counts _ (OperatorCounters.keepsOrder_addFinds operator _)) _ ?_
      exact ⟨ordered.swarmNow, ordered.core, ordered.pilot,
        ordered.finds.trans (Nat.le_add_right _ _)⟩
    · rw [if_neg fits]
  · exact keepsOrdered_pure _

theorem keepsOrdered_sumFinds :
    KeepsOrdered bound
      (sumFinds : Procedure Failure (MOpt Number Rand operatorNum swarmNum) Nat) := by
  intro mopt ordered
  have summed := sumFinds_satisfies mopt mopt ⟨_, rfl⟩
  generalize outcome sumFinds mopt = result at summed ⊢
  obtain ⟨returned, next⟩ := result
  cases returned with
  | error failure =>
      exact summed.1
  | ok sum =>
      obtain ⟨operatorFindsPuppet, rfl⟩ := summed
      exact ⟨trivial, ordered.swarmNow, ordered.core, ordered.pilot, ordered.finds⟩

theorem efficiency_returns
    [OfScientific Number] [Div Number]
    {counters : OperatorCounters operatorNum}
    (ordered : counters.Ordered)
    (operator : Fin operatorNum) :
    ∃ eff : Number, efficiency counters operator = .ok eff := by
  rw [efficiency]
  split
  · rw [subU64, if_pos (ordered.finds operator), subU64, if_pos (ordered.cycles operator)]
    exact ⟨_, rfl⟩
  · exact ⟨_, rfl⟩

/-- A failure that is neither a difference below zero nor an access out of a table. -/
def Failure.InRange (failure : Failure) : Prop :=
  failure ≠ .underflow ∧ failure ≠ .outOfTable

/-- The failure is in range, and an error leaves the counters ordered. -/
def Settled
    (failure : Failure)
    (mopt : MOpt Number Rand operatorNum swarmNum) : Prop :=
  failure.InRange ∧ ∀ error, failure = .error error → mopt.Ordered

theorem settles
    {procedure : Procedure Failure (MOpt Number Rand operatorNum swarmNum) Value}
    (keeps : KeepsOrdered swarmNum procedure) :
    Satisfies (MOpt.OrderedBelow swarmNum) procedure (fun _ => MOpt.Ordered) Settled := by
  refine Satisfies.weaken keeps (fun _ holds => holds) (fun _ _ holds => holds.2) ?_
  rintro _ mopt rfl
  exact ⟨⟨by decide, by decide⟩, fun _ isError => by cases isError⟩

theorem iterations_fails
    {draw : Nat}
    {failure : Failure}
    (failed : iterations draw = .error failure) :
    failure = .overflow := by
  rw [iterations] at failed
  split at failed
  · cases failed
  · exact (Except.error.inj failed).symm

/-- What holds after calls: ordered counters, or a panic of another kind. -/
def Lasting : Except Failure (Node Number Rand operatorNum swarmNum) → Prop
  | .ok node => node.mopt.Ordered
  | .error failure => failure.InRange

theorem lasting_after
    {node : Node Number Rand operatorNum swarmNum}
    {returned : Value → List StdMOptMutator}
    {procedure : Procedure Failure (MOpt Number Rand operatorNum swarmNum) Value}
    (satisfies :
      Satisfies (MOpt.OrderedBelow swarmNum) procedure (fun _ => MOpt.Ordered) Settled)
    (ordered : node.mopt.Ordered)
    {others : Node Number Rand operatorNum swarmNum} :
    Lasting (others.after returned (outcome procedure node.mopt)) := by
  have reached := satisfies node.mopt ordered
  generalize outcome procedure node.mopt = result at reached ⊢
  obtain ⟨result, mopt⟩ := result
  cases result with
  | ok value =>
      exact reached
  | error failure =>
      cases failure with
      | error error =>
          exact reached.2 error rfl
      | unwrapped _ =>
          exact reached.1
      | underflow =>
          exact reached.1
      | overflow =>
          exact reached.1
      | outOfTable =>
          exact reached.1

variable [LT Number] [DecidableLT Number]

theorem scan_inTable
    (some : 0 < operatorNum)
    (selectProb : Number)
    (probabilityNow : Fin operatorNum → Number)
    (operators : List (Fin operatorNum)) :
    (scan selectProb probabilityNow operators).1 < operatorNum ∧
      ((scan selectProb probabilityNow operators).2 = 1 →
        1 ≤ (scan selectProb probabilityNow operators).1) := by
  induction operators with
  | nil =>
      exact ⟨some, fun sentry => by cases sentry⟩
  | cons i rest ih =>
      rw [scan]
      by_cases isFirst : i.val = 0
      · rw [if_pos isFirst]
        split
        · exact ⟨i.isLt, fun sentry => by cases sentry⟩
        · exact ih
      · rw [if_neg isFirst]
        split
        · exact ⟨i.isLt, fun _ => Nat.pos_of_ne_zero isFirst⟩
        · exact ih

theorem checkNeighbours_cases
    (selectProb : Number)
    (probabilityNow : Fin operatorNum → Number)
    {res sentry : Nat}
    (inTable : res < operatorNum)
    (notFirst : sentry = 1 → 1 ≤ res) :
    checkNeighbours selectProb probabilityNow res sentry = .ok () ∨
      ∃ error, checkNeighbours selectProb probabilityNow res sentry =
        .error (.error error) := by
  have below :
      ∃ isBelow, isBelowBefore selectProb probabilityNow res sentry = .ok isBelow := by
    rw [isBelowBefore]
    split
    · rename_i isSentry
      have isIndex : res - 1 < operatorNum := by omega
      refine ⟨decide (selectProb < probabilityNow ⟨res - 1, isIndex⟩), ?_⟩
      rw [subU64, if_pos (notFirst isSentry)]
      change (entry probabilityNow (res - 1) >>= fun _ => _) = _
      rw [entry, dif_pos isIndex]
      rfl
    · exact ⟨false, rfl⟩
  have above :
      ∃ isAbove, isAboveBehind selectProb probabilityNow res = .ok isAbove := by
    rw [isAboveBehind]
    split
    · rename_i isIndex
      refine ⟨decide (probabilityNow ⟨res + 1, isIndex⟩ < selectProb), ?_⟩
      rw [entry, dif_pos isIndex]
      rfl
    · exact ⟨false, rfl⟩
  obtain ⟨isBelow, isBelowOk⟩ := below
  obtain ⟨isAbove, isAboveOk⟩ := above
  rw [checkNeighbours, isBelowOk, isAboveOk]
  cases isBelow with
  | true =>
      exact .inr ⟨_, rfl⟩
  | false =>
      cases isAbove with
      | true =>
          exact .inr ⟨_, rfl⟩
      | false =>
          exact .inl rfl

variable [OfScientific Number]

section

variable [Mul Number]
variable {generator : Generator Rand}

theorem selectAlgorithm_satisfies
    (generator : Generator Rand)
    (some : 0 < operatorNum) :
    Satisfies (MOpt.OrderedBelow swarmNum)
      (selectAlgorithm generator :
        Procedure Failure (MOpt Number Rand operatorNum swarmNum) Nat)
      (fun idx mopt => idx < operatorNum ∧ mopt.Ordered)
      fun failure _ => ∃ error, failure = .error error := by
  intro mopt ordered
  rw [selectAlgorithm, outcome_bind_ok outcome_get, swarmAt_eq ordered.swarmNow,
    outcome_bind_ok (outcome_lift _), lastOf_eq some, outcome_bind_ok (outcome_lift _)]
  dsimp only
  rw [outcome_bind_ok (outcome_set _)]
  generalize (selectProbOf _ _ : Number) = selectProb
  obtain ⟨inTable, notFirst⟩ :=
    scan_inTable some selectProb
      (mopt.swarms ⟨mopt.swarmNow, ordered.swarmNow⟩).probabilityNow
      (List.finRange operatorNum)
  rcases checkNeighbours_cases selectProb _ inTable notFirst with passed | ⟨error, failed⟩
  · rw [passed, outcome_bind_ok (outcome_lift _)]
    exact ⟨inTable, ordered.swarmNow, ordered.core, ordered.pilot, ordered.finds⟩
  · rw [failed, outcome_bind_error (outcome_lift _)]
    exact ⟨error, rfl⟩

theorem schedule_satisfies
    (some : 0 < operatorNum) :
    Satisfies (MOpt.OrderedBelow swarmNum)
      (schedule generator :
        Procedure Failure (MOpt Number Rand operatorNum swarmNum) Nat)
      (fun idx mopt => idx < operatorNum ∧ mopt.Ordered) Settled := by
  intro mopt ordered
  have selected := selectAlgorithm_satisfies generator some mopt ordered
  rw [schedule, outcome_adapt]
  generalize outcome (selectAlgorithm generator) mopt = result at selected ⊢
  obtain ⟨returned, next⟩ := result
  cases returned with
  | ok idx =>
      exact selected
  | error failure =>
      obtain ⟨error, rfl⟩ := selected
      exact ⟨⟨Failure.noConfusion, Failure.noConfusion⟩, fun _ isError => by cases isError⟩

/-- `mutate` in either mode, on counters that it keeps in order. -/
theorem mutateCounting_satisfies
    {counting :
      (OperatorCounters operatorNum → Except Failure (OperatorCounters operatorNum)) →
        Procedure Failure (MOpt Number Rand operatorNum swarmNum) Unit}
    (some : 0 < operatorNum)
    (counts : Counts swarmNum counting)
    (draw : Nat)
    (mutations : Nat → Nat → Except Corpus.Error MutationResult) :
    Satisfies (MOpt.OrderedBelow swarmNum)
      (mutateCounting generator counting draw mutations)
      (fun _ => MOpt.Ordered) Settled := by
  have kept :
      ∀ operator, KeepsOrdered swarmNum
        (counting fun counters => .ok (counters.keepCycles operator)) :=
    fun operator => counts _ fun _ isOrdered => isOrdered.keepCycles operator
  refine Satisfies.through MOpt.Ordered (settles (Preserves.forM _ kept)) fun _ => ?_
  refine
    Satisfies.through MOpt.Ordered
      (settles (Preserves.lift (fun _ _ => trivial) fun _ => iterations_fails))
      fun iterations => ?_
  refine @Satisfies.foldlM _ _ _ _ _ (fun _ _ => MOpt.Ordered) _ _ ?_ _
  intro done iteration rest r _
  refine Satisfies.bind (schedule_satisfies some) fun idx => ?_
  rintro mopt ⟨isOperator, ordered⟩
  rw [outcome_bind, outcome_lift]
  cases mutations iteration idx with
  | error error =>
      exact ⟨⟨Failure.noConfusion, Failure.noConfusion⟩, fun _ _ => ordered⟩
  | ok result =>
      refine
        Satisfies.through MOpt.Ordered
          (settles (counts _ (OperatorCounters.keepsOrder_addCycle isOperator)))
          (fun _ => ?_) mopt ordered
      exact Satisfies.pure fun _ holds => holds

theorem scheduledMutate_satisfies
    (some : 0 < operatorNum)
    (mode : MOptMode)
    (draw : Nat)
    (mutations : Nat → Nat → Except Corpus.Error MutationResult) :
    Satisfies (MOpt.OrderedBelow swarmNum)
      (scheduledMutate generator mode draw mutations :
        Procedure Failure (MOpt Number Rand operatorNum swarmNum) MutationResult)
      (fun _ => MOpt.Ordered) Settled := by
  cases mode with
  | corefuzzing =>
      exact mutateCounting_satisfies some counts_changeCore draw mutations
  | pilotfuzzing =>
      intro mopt ordered
      rw [scheduledMutate, pilotMutate, outcome_bind_ok outcome_get]
      exact
        mutateCounting_satisfies some (counts_changePilot ordered.swarmNow) draw
          mutations mopt ordered

end

theorem bestSwarm_lt
    (oneSwarm : 0 < swarmNum)
    (mopt : MOpt Number Rand operatorNum swarmNum) :
    mopt.bestSwarm < swarmNum := by
  suffices
      ∀ (swarms : List (Fin swarmNum)) (best : Number × Nat), best.2 < swarmNum →
        (swarms.foldl
          (fun (best : Number × Nat) i =>
            if best.1 < (mopt.swarms i).swarmFitness then
              ((mopt.swarms i).swarmFitness, i.val)
            else best)
          best).2 < swarmNum from
    this _ _ oneSwarm
  intro swarms
  induction swarms with
  | nil =>
      exact fun _ isSwarm => isSwarm
  | cons swarm rest ih =>
      intro best isSwarm
      refine ih _ ?_
      dsimp only
      split
      · exact swarm.isLt
      · exact isSwarm

theorem enterCore_orders
    (oneSwarm : 0 < swarmNum) :
    Satisfies (MOpt.OrderedBelow bound) enterCore
      (fun _ (mopt : MOpt Number Rand operatorNum swarmNum) => True ∧ mopt.Ordered)
      fun failure _ => failure = .overflow := by
  refine Preserves.andThen (Preserves.forM _ fun operator => ?_) fun _ _ => ?_
  · exact counts_changeCore _ fun _ isOrdered => isOrdered.goBack operator
  intro mopt ordered
  exact ⟨trivial, bestSwarm_lt oneSwarm mopt, ordered.core, ordered.pilot, ordered.finds⟩

variable [Div Number]

theorem rate_ordered
    {entries : Swarm Number operatorNum}
    (operator : Fin operatorNum)
    (ordered : entries.pilot.Ordered) :
    match entries.rate operator with
    | .ok next => next.pilot.Ordered
    | .error failure => failure = .overflow := by
  obtain ⟨eff, isEff⟩ : ∃ eff : Number, _ := efficiency_returns ordered operator
  have rated :
      ∃ next, entries.rate operator = .ok next ∧
        next.pilot = entries.pilot.keep operator := by
    rw [Swarm.rate, isEff]
    by_cases isBetter : entries.effBest operator < eff
    · exact ⟨_, if_pos isBetter, rfl⟩
    · exact ⟨_, if_neg isBetter, rfl⟩
  obtain ⟨next, isNext, samePilot⟩ := rated
  rw [isNext]
  have kept := ordered.keep operator
  rwa [← samePilot] at kept

theorem keepsOrdered_rateSwarm
    {swarmNow : Nat}
    (inUse : swarmNow < swarmNum) :
    KeepsOrdered bound
      (rateSwarm swarmNow :
        Procedure Failure (MOpt Number Rand operatorNum swarmNum) Unit) := by
  refine Preserves.bind Preserves.get fun start ordered => ?_
  rw [subU64, if_pos ordered.finds]
  refine Preserves.bind (Preserves.lift (fun _ _ => trivial) ?_) fun newFinds _ => ?_
  · exact fun _ failed => by cases failed
  refine Preserves.bind (keepsOrdered_changeSwarm inUse ?_) fun _ _ => ?_
  · exact fun _ isOrdered => isOrdered
  refine Preserves.bind (Preserves.modify fun mopt ordered => ?_) fun _ _ => ?_
  · exact ⟨ordered.swarmNow, ordered.core, ordered.pilot, le_rfl⟩
  exact
    Preserves.forM _ fun operator =>
      keepsOrdered_changeSwarm inUse fun entries => rate_ordered operator

variable [Add Number]

/-- Each row of clamped positions passes the check of its last probability. -/
def Normalises
    (Number : Type)
    [LT Number] [DecidableLT Number] [OfScientific Number] [Add Number] [Div Number]
    (operatorNum : Nat) : Prop :=
  ∀ row : Fin operatorNum → Number,
    checkLast (cumulative (normalised fun operator => clamp (row operator) vMin vMax)) =
      .ok ()

variable [Sub Number] [Mul Number]
variable {generator : Generator Rand}

theorem moveSwarm_preserves
    {Fails : Failure → Prop}
    (normalises : Normalises Number operatorNum)
    (swarm : Fin swarmNum) :
    Preserves (MOpt.OrderedBelow bound)
      (moveSwarm generator swarm :
        Procedure Failure (MOpt Number Rand operatorNum swarmNum) Unit)
      (fun _ => True) Fails := by
  intro mopt ordered
  rw [moveSwarm, outcome_bind_ok outcome_get]
  generalize drawEach (drawPair generator) operatorNum mopt.rand = drawn
  obtain ⟨draws, rand⟩ := drawn
  have passes :
      checkLast
          ((mopt.swarms swarm).move mopt.wNow mopt.gBest draws).probabilityNow =
        .ok () :=
    normalises _
  dsimp only
  rw [outcome_bind_ok (outcome_set _), passes]
  refine ⟨trivial, MOpt.OrderedBelow.setSwarm ?_ swarm (ordered.pilot swarm)⟩
  exact ⟨ordered.swarmNow, ordered.core, ordered.pilot, ordered.finds⟩

/-- `pso_update` leaves the first swarm in use. -/
theorem psoUpdate_orders
    (normalises : Normalises Number operatorNum)
    (oneSwarm : 0 < swarmNum) :
    Satisfies (MOpt.OrderedBelow bound) (psoUpdate generator)
      (fun _ (mopt : MOpt Number Rand operatorNum swarmNum) => True ∧ mopt.Ordered)
      fun failure _ => failure = .overflow := by
  refine Preserves.andThen (Preserves.modify fun mopt ordered => ?_) fun _ _ => ?_
  · exact ⟨ordered.swarmNow, ordered.core, ordered.pilot, ordered.finds⟩
  refine Preserves.andThen (Preserves.modify fun mopt ordered => ?_) fun _ _ => ?_
  · exact ⟨ordered.swarmNow, ordered.core, ordered.pilot, ordered.finds⟩
  refine Preserves.andThen keepsOrdered_sumFinds fun operatorFindsSum _ => ?_
  refine Preserves.andThen (Preserves.modify fun mopt ordered => ?_) fun _ _ => ?_
  · exact ⟨ordered.swarmNow, ordered.core, ordered.pilot, ordered.finds⟩
  refine
    Preserves.andThen (Preserves.forM _ (moveSwarm_preserves normalises)) fun _ _ => ?_
  intro mopt ordered
  exact ⟨trivial, oneSwarm, ordered.core, ordered.pilot, ordered.finds⟩

/-- `post_exec` in core mode. -/
theorem keepsOrdered_postExecCore
    (normalises : Normalises Number operatorNum)
    (oneSwarm : 0 < swarmNum)
    (before after : Nat) :
    KeepsOrdered swarmNum
      (postExecCore generator before after :
        Procedure Failure (MOpt Number Rand operatorNum swarmNum) MOptMode) := by
  refine Preserves.bind Preserves.get fun start _ => ?_
  refine Preserves.bind (keepsOrdered_addU64 _ _) fun coreTime _ => ?_
  refine Preserves.bind (Preserves.modify fun mopt ordered => ?_) fun _ _ => ?_
  · exact ⟨ordered.swarmNow, ordered.core, ordered.pilot, ordered.finds⟩
  refine
    Preserves.bind (keepsOrdered_countFinds counts_changeCore before after) fun _ _ => ?_
  refine Preserves.bind Preserves.get fun mopt _ => ?_
  split
  · refine Preserves.bind (Preserves.modify fun mopt ordered => ?_) fun _ _ => ?_
    · exact ⟨ordered.swarmNow, ordered.core, ordered.pilot, le_rfl⟩
    refine Preserves.bind (Preserves.forM _ fun operator => ?_) fun _ _ => ?_
    · exact counts_changeCore _ fun _ isOrdered => isOrdered.keep operator
    exact
      Preserves.bind (psoUpdate_orders normalises oneSwarm) fun _ _ =>
        keepsOrdered_pure _
  · exact keepsOrdered_pure _

theorem keepsOrdered_nextSwarm
    (normalises : Normalises Number operatorNum)
    (oneSwarm : 0 < swarmNum) :
    KeepsOrdered swarmNum
      (nextSwarm generator :
        Procedure Failure (MOpt Number Rand operatorNum swarmNum) MOptMode) := by
  intro mopt ordered
  rw [nextSwarm, outcome_bind_ok outcome_get, outcome_bind, outcome_lift, addU64]
  by_cases fits : mopt.swarmNow + 1 < 2 ^ 64
  · rw [if_pos fits]
    dsimp only
    rw [outcome_bind_ok (outcome_modify _)]
    have isNext :
        MOpt.OrderedBelow (swarmNum + 1) { mopt with swarmNow := mopt.swarmNow + 1 } :=
      ⟨Nat.succ_lt_succ ordered.swarmNow, ordered.core, ordered.pilot, ordered.finds⟩
    by_cases single : swarmNum = 1
    · rw [if_pos single]
      exact
        Satisfies.bind (psoUpdate_orders normalises oneSwarm)
          (fun _ => Satisfies.pure fun _ holds => ⟨trivial, holds.2⟩) _ isNext
    rw [if_neg single]
    by_cases isLast : mopt.swarmNow + 1 = swarmNum
    · rw [if_pos isLast]
      exact enterCore_orders oneSwarm _ isNext
    · rw [if_neg isLast]
      have inUse : mopt.swarmNow + 1 < swarmNum :=
        lt_of_le_of_ne ordered.swarmNow isLast
      exact ⟨trivial, inUse, ordered.core, ordered.pilot, ordered.finds⟩
  · rw [if_neg fits]

/-- `post_exec` in pilot mode. -/
theorem keepsOrdered_postExecPilot
    (normalises : Normalises Number operatorNum)
    (oneSwarm : 0 < swarmNum)
    (before after : Nat) :
    KeepsOrdered swarmNum
      (postExecPilot generator before after :
        Procedure Failure (MOpt Number Rand operatorNum swarmNum) MOptMode) := by
  refine Preserves.bind Preserves.get fun start _ => ?_
  refine Preserves.bind (keepsOrdered_addU64 _ _) fun pilotTime _ => ?_
  refine Preserves.bind (Preserves.modify fun mopt ordered => ?_) fun _ _ => ?_
  · exact ⟨ordered.swarmNow, ordered.core, ordered.pilot, ordered.finds⟩
  refine Preserves.bind Preserves.get fun used inUse => ?_
  refine
    Preserves.bind
      (keepsOrdered_countFinds (counts_changePilot inUse.swarmNow) before after)
      fun _ _ => ?_
  refine Preserves.bind Preserves.get fun mopt _ => ?_
  split
  · exact
      Preserves.bind (keepsOrdered_rateSwarm inUse.swarmNow) fun _ _ =>
        keepsOrdered_nextSwarm normalises oneSwarm
  · exact keepsOrdered_pure _

theorem keepsOrdered_postExec
    (normalises : Normalises Number operatorNum)
    (oneSwarm : 0 < swarmNum)
    (mutator : StdMOptMutator)
    (after : Nat) :
    KeepsOrdered swarmNum
      (postExec generator mutator after :
        Procedure Failure (MOpt Number Rand operatorNum swarmNum) MOptMode) := by
  rw [postExec]
  split
  · exact keepsOrdered_postExecCore normalises oneSwarm _ after
  · exact keepsOrdered_postExecPilot normalises oneSwarm _ after

theorem lasting_step
    {node : Node Number Rand operatorNum swarmNum}
    (normalises : Normalises Number operatorNum)
    (some : 0 < operatorNum)
    (oneSwarm : 0 < swarmNum)
    (ordered : node.mopt.Ordered)
    (call : Call) :
    Lasting (node.step generator call) := by
  cases call with
  | create =>
      exact ordered
  | mutate mutator finds draw mutations =>
      rw [Node.step]
      split
      · exact ordered
      · exact lasting_after (scheduledMutate_satisfies some _ draw mutations) ordered
  | postExec mutator finds =>
      rw [Node.step]
      split
      · exact ordered
      · exact
          lasting_after (settles (keepsOrdered_postExec normalises oneSwarm _ finds))
            ordered

theorem lasting_run
    {node : Node Number Rand operatorNum swarmNum}
    (normalises : Normalises Number operatorNum)
    (some : 0 < operatorNum)
    (oneSwarm : 0 < swarmNum)
    (ordered : node.mopt.Ordered)
    (calls : List Call) :
    Lasting (node.run generator calls) := by
  induction calls generalizing node with
  | nil =>
      exact ordered
  | cons call rest ih =>
      have stepped : Lasting (node.step generator call) :=
        lasting_step normalises some oneSwarm ordered call
      rw [Node.run, List.foldlM_cons]
      generalize node.step generator call = result at stepped ⊢
      cases result with
      | error failure =>
          exact stepped
      | ok next =>
          exact ih stepped

theorem some_of_new
    {rand : Rand}
    {mopt : MOpt Number Rand operatorNum swarmNum}
    (oneSwarm : 0 < swarmNum)
    (isNew : new generator rand = .ok mopt) :
    0 < operatorNum := by
  by_contra none
  obtain rfl : operatorNum = 0 := Nat.eq_zero_of_not_pos none
  obtain ⟨others, rfl⟩ := Nat.exists_eq_add_one_of_ne_zero oneSwarm.ne'
  rw [new, psoInitialize, outcome_bind_ok (outcome_modify _), List.finRange_succ,
    List.forM_cons] at isNew
  cases isNew

theorem exists_new_ordered
    (normalises : Normalises Number operatorNum)
    (oneSwarm : 0 < swarmNum)
    (generator : Generator Rand)
    (rand : Rand) :
    ∃ mopt : MOpt Number Rand operatorNum swarmNum,
      new generator rand = .ok mopt ∧ mopt.Ordered := by
  have keeps :
      Preserves (MOpt.OrderedBelow swarmNum)
        (psoInitialize generator :
          Procedure Failure (MOpt Number Rand operatorNum swarmNum) Unit)
        (fun _ => True) fun _ => False := by
    refine Preserves.bind (Preserves.modify fun mopt ordered => ?_) fun _ _ => ?_
    · exact ⟨ordered.swarmNow, ordered.core, ordered.pilot, ordered.finds⟩
    refine Preserves.forM _ fun swarm => ?_
    refine Preserves.bind (Preserves.modify fun mopt ordered => ?_) fun _ _ => ?_
    · refine MOpt.OrderedBelow.setSwarm ?_ swarm (ordered.pilot swarm)
      exact ⟨ordered.swarmNow, ordered.core, ordered.pilot, ordered.finds⟩
    · exact moveSwarm_preserves normalises swarm
  have initialised :=
    keeps (fresh rand)
      ⟨oneSwarm, OperatorCounters.ordered_zero, fun _ => OperatorCounters.ordered_zero,
        le_rfl⟩
  rw [new]
  generalize
    outcome (psoInitialize generator)
      (fresh rand : MOpt Number Rand operatorNum swarmNum) = result
    at initialised ⊢
  obtain ⟨returned, next⟩ := result
  cases returned with
  | error failure =>
      exact False.elim initialised
  | ok _ =>
      exact ⟨next, rfl, initialised.2⟩

end

end MeFuzz.MOptScheduler
