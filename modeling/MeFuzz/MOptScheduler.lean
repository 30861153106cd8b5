import MeFuzz.InMemoryCorpus
import MeFuzz.Procedures

namespace MeFuzz.MOptScheduler

open Procedure

/-!
# The scheduler of MOpt

Particle swarms give each mutation operator a probability.  The numbers are of any
type that has the arithmetic of `f64`, and the generator is any that draws below a
bound.  The tables of the source have an entry for each swarm and operator; those of
one swarm stand together here.
-/

/-- An error, and what panics. -/
inductive Failure where
  | error (error : Corpus.Error)
  | unwrapped (error : Corpus.Error)
  | underflow
  | overflow
  | outOfTable
  deriving Repr, DecidableEq

/-- `StdRand`, as far as the scheduler uses it. -/
structure Generator (Rand : Type) where
  below : Nat → Rand → Nat × Rand
  below_lt : ∀ {bound : Nat} (rand : Rand), 0 < bound → (below bound rand).1 < bound

/-- A generator that always draws the least number. -/
def lowest : Generator Unit where
  below _ rand := (0, rand)
  below_lt _ positive := positive

/-- What is counted for the operators, in core mode or for a swarm in pilot mode. -/
structure OperatorCounters (operatorNum : Nat) where
  operatorFinds : Fin operatorNum → Nat
  operatorFindsV2 : Fin operatorNum → Nat
  operatorCycles : Fin operatorNum → Nat
  operatorCyclesV2 : Fin operatorNum → Nat
  operatorCyclesV3 : Fin operatorNum → Nat

/-- The entries of one swarm in the tables. -/
structure Swarm (Number : Type) (operatorNum : Nat) where
  xNow : Fin operatorNum → Number
  lBest : Fin operatorNum → Number
  effBest : Fin operatorNum → Number
  vNow : Fin operatorNum → Number
  probabilityNow : Fin operatorNum → Number
  swarmFitness : Number
  pilot : OperatorCounters operatorNum

/-- `MOpt`. -/
structure MOpt (Number Rand : Type) (operatorNum swarmNum : Nat) where
  rand : Rand
  totalFinds : Nat
  findsUntilLastSwarm : Nat
  wInit : Number
  wEnd : Number
  wNow : Number
  gNow : Number
  gMax : Number
  periodPilot : Nat
  periodCore : Nat
  pilotTime : Nat
  coreTime : Nat
  swarmNow : Nat
  swarms : Fin swarmNum → Swarm Number operatorNum
  gBest : Fin operatorNum → Number
  operatorFindsPuppet : Fin operatorNum → Nat
  core : OperatorCounters operatorNum

/-- `+` of unsigned integers of 64 bits. -/
def addU64 (first second : Nat) : Except Failure Nat :=
  if first + second < 2 ^ 64 then .ok (first + second) else .error .overflow

/-- `-` of unsigned integers of 64 bits. -/
def subU64 (first second : Nat) : Except Failure Nat :=
  if second ≤ first then .ok (first - second) else .error .underflow

/-- An entry of a table. -/
def entry
    {Value : Type}
    {size : Nat}
    (table : Fin size → Value)
    (index : Nat) : Except Failure Value :=
  if isIndex : index < size then .ok (table ⟨index, isIndex⟩)
  else .error .outOfTable

section

variable {Number Rand : Type}
variable {operatorNum swarmNum : Nat}

/-- The entries of a swarm. -/
def swarmAt
    (mopt : MOpt Number Rand operatorNum swarmNum)
    (swarm : Nat) : Except Failure (Swarm Number operatorNum) :=
  entry mopt.swarms swarm

/-- The scheduler with other entries of a swarm. -/
def MOpt.setSwarm
    (mopt : MOpt Number Rand operatorNum swarmNum)
    (swarm : Fin swarmNum)
    (entries : Swarm Number operatorNum) : MOpt Number Rand operatorNum swarmNum :=
  { mopt with swarms := Function.update mopt.swarms swarm entries }

variable [OfScientific Number]

/-- `as f64`. -/
def asF64 (whole : Nat) : Number :=
  OfScientific.ofScientific whole false 0

/-- `V_MIN`. -/
def vMin : Number := 0.05

/-- `V_MAX`. -/
def vMax : Number := 1.0

variable [LT Number] [DecidableLT Number]

/-- `f64::clamp`. -/
def clamp (number low high : Number) : Number :=
  let number := if number < low then low else number
  if high < number then high else number

variable [Add Number] [Sub Number] [Mul Number] [Div Number]

/-- The sum of a row, from `0.0` on. -/
def total (row : Fin operatorNum → Number) : Number :=
  (List.ofFn row).foldl (· + ·) 0.0

/-- The sum of a row up to an entry. -/
def cumulativeAt (row : Fin operatorNum → Number) :
    (index : Nat) → index < operatorNum → Number
  | 0, isIndex => row ⟨0, isIndex⟩
  | index + 1, isIndex =>
      cumulativeAt row index (Nat.lt_of_succ_lt isIndex) + row ⟨index + 1, isIndex⟩

/-- The sums of a row, one for each entry. -/
def cumulative (row : Fin operatorNum → Number) : Fin operatorNum → Number :=
  fun operator => cumulativeAt row operator operator.isLt

/-- A row, divided by its sum. -/
def normalised (row : Fin operatorNum → Number) : Fin operatorNum → Number :=
  fun operator => row operator / total row

/-- Something that is drawn for each operator, one after the other. -/
def drawEach
    {Value : Type}
    (draw : Rand → Value × Rand) :
    (operatorNum : Nat) → Rand → (Fin operatorNum → Value) × Rand
  | 0, rand => (Fin.elim0, rand)
  | rest + 1, rand =>
      let first := draw rand
      let later := drawEach draw rest first.2
      (Fin.cons first.1 later.1, later.2)

/-- The two draws for the velocity of an operator. -/
def drawPair
    (generator : Generator Rand)
    (rand : Rand) : (Nat × Nat) × Rand :=
  let first := generator.below 1000 rand
  let second := generator.below 1000 first.2
  ((first.1, second.1), second.2)

/-- The new `v_now` of an operator of a swarm. -/
def velocity
    (wNow gBest : Number)
    (draws : Nat × Nat)
    (vNow lBest xNow : Number) : Number :=
  wNow * vNow + asF64 draws.1 * 0.001 * (lBest - xNow) +
    asF64 draws.2 * 0.001 * (gBest - xNow)

/-- `probability_now[swarm][operator_num - 1]`. -/
def lastOf (row : Fin operatorNum → Number) : Except Failure Number := do
  entry row (← subU64 operatorNum 1)

/-- The check of the last probability. -/
def checkLast (probabilityNow : Fin operatorNum → Number) : Except Failure Unit := do
  let last ← lastOf probabilityNow
  if last < 0.99 ∨ 1.01 < last then
    .error (.error (.illegalState "MOpt: Error in pso_update"))
  else pure ()

variable (generator : Generator Rand)

/-- The positions of a swarm, moved and clamped. -/
def Swarm.moved
    (entries : Swarm Number operatorNum)
    (vNow : Fin operatorNum → Number) : Fin operatorNum → Number :=
  fun operator => clamp (entries.xNow operator + vNow operator) vMin vMax

/-- The entries of a swarm after its operators have moved. -/
def Swarm.move
    (entries : Swarm Number operatorNum)
    (wNow : Number)
    (gBest : Fin operatorNum → Number)
    (draws : Fin operatorNum → Nat × Nat) : Swarm Number operatorNum :=
  let vNow := fun operator =>
    velocity wNow (gBest operator) (draws operator) (entries.vNow operator)
      (entries.lBest operator) (entries.xNow operator)
  let xNow := normalised (entries.moved vNow)
  { entries with vNow, xNow, probabilityNow := cumulative xNow }

/-- The part that both loops over the swarms share. -/
def moveSwarm
    (swarm : Fin swarmNum) :
    Procedure Failure (MOpt Number Rand operatorNum swarmNum) Unit := do
  let mopt ← get
  let (draws, rand) := drawEach (drawPair generator) operatorNum mopt.rand
  let entries := (mopt.swarms swarm).move mopt.wNow mopt.gBest draws
  set ({ mopt with rand }.setSwarm swarm entries)
  checkLast entries.probabilityNow

/-- The new `w_now`, after `g_now` has been taken back to its range. -/
def MOpt.weigh
    (mopt : MOpt Number Rand operatorNum swarmNum) :
    MOpt Number Rand operatorNum swarmNum :=
  let gNow := if mopt.gMax < mopt.gNow then 0.0 else mopt.gNow
  { mopt with
    gNow
    wNow := (mopt.wInit - mopt.wEnd) * (mopt.gMax - gNow) / mopt.gMax + mopt.wEnd }

/-- The positions at which the operators of a swarm start. -/
def startSwarm
    (swarm : Fin swarmNum)
    (mopt : MOpt Number Rand operatorNum swarmNum) :
    MOpt Number Rand operatorNum swarmNum :=
  let (draws, rand) := drawEach (generator.below 7000) operatorNum mopt.rand
  let xNow : Fin operatorNum → Number := fun operator =>
    asF64 (draws operator) * 0.0001 + 0.1
  { mopt with rand, gBest := fun _ => 0.5 }.setSwarm swarm
    { mopt.swarms swarm with
      xNow := normalised xNow
      vNow := fun _ => 0.1
      lBest := fun _ => 0.5 }

/-- `MOpt::pso_initialize`. -/
def psoInitialize : Procedure Failure (MOpt Number Rand operatorNum swarmNum) Unit := do
  modify MOpt.weigh
  forM (List.finRange swarmNum) fun swarm => do
    modify (startSwarm generator swarm)
    moveSwarm generator swarm

/-- `operator_finds_puppet` of an operator. -/
def findsPuppet
    (mopt : MOpt Number Rand operatorNum swarmNum)
    (operator : Fin operatorNum) : Except Failure Nat :=
  (List.finRange swarmNum).foldlM
    (fun puppet swarm =>
      addU64 puppet ((mopt.swarms swarm).pilot.operatorFinds operator))
    (mopt.core.operatorFinds operator)

/-- The loop of `pso_update` for `operator_finds_sum`. -/
def sumFinds : Procedure Failure (MOpt Number Rand operatorNum swarmNum) Nat :=
  (List.finRange operatorNum).foldlM
    (fun operatorFindsSum operator => do
      let puppet ← findsPuppet (← get) operator
      modify fun mopt =>
        { mopt with
          operatorFindsPuppet :=
            Function.update mopt.operatorFindsPuppet operator puppet }
      addU64 operatorFindsSum puppet)
    0

/-- The new `g_best`. -/
def MOpt.share
    (mopt : MOpt Number Rand operatorNum swarmNum)
    (operatorFindsSum : Nat) : MOpt Number Rand operatorNum swarmNum :=
  { mopt with
    gBest := fun operator =>
      if 0 < mopt.operatorFindsPuppet operator then
        asF64 (mopt.operatorFindsPuppet operator) / asF64 operatorFindsSum
      else mopt.gBest operator }

/-- `MOpt::pso_update`. -/
def psoUpdate : Procedure Failure (MOpt Number Rand operatorNum swarmNum) Unit := do
  modify fun mopt => { mopt with gNow := mopt.gNow + 1.0 }
  modify MOpt.weigh
  let operatorFindsSum ← sumFinds
  modify (MOpt.share · operatorFindsSum)
  forM (List.finRange swarmNum) (moveSwarm generator)
  modify fun mopt => { mopt with swarmNow := 0 }

/-- The loop of `select_algorithm`, for `res` and `sentry`. -/
def scan
    (selectProb : Number)
    (probabilityNow : Fin operatorNum → Number) :
    List (Fin operatorNum) → Nat × Nat
  | [] => (0, 0)
  | i :: rest =>
      if i.val = 0 then
        if selectProb < probabilityNow i then (i, 0)
        else scan selectProb probabilityNow rest
      else if selectProb < probabilityNow i then (i, 1)
      else scan selectProb probabilityNow rest

/-- `sentry == 1 && select_prob < probability_now[res - 1]`. -/
def isBelowBefore
    (selectProb : Number)
    (probabilityNow : Fin operatorNum → Number)
    (res sentry : Nat) : Except Failure Bool :=
  if sentry = 1 then do
    let before ← entry probabilityNow (← subU64 res 1)
    pure (decide (selectProb < before))
  else pure false

/-- `res + 1 < operator_num && select_prob > probability_now[res + 1]`. -/
def isAboveBehind
    (selectProb : Number)
    (probabilityNow : Fin operatorNum → Number)
    (res : Nat) : Except Failure Bool :=
  if res + 1 < operatorNum then do
    let behind ← entry probabilityNow (res + 1)
    pure (decide (behind < selectProb))
  else pure false

/-- The check of `res` by its neighbours. -/
def checkNeighbours
    (selectProb : Number)
    (probabilityNow : Fin operatorNum → Number)
    (res sentry : Nat) : Except Failure Unit := do
  let isBelow ← isBelowBefore selectProb probabilityNow res sentry
  let isAbove ← isAboveBehind selectProb probabilityNow res
  if isBelow || isAbove then
    .error (.error (.illegalState "MOpt: Error in select_algorithm"))
  else pure ()

/-- The draw, as a part of the last probability. -/
def selectProbOf (last : Number) (draw : Nat) : Number :=
  last * (asF64 draw * 0.0001)

/-- `MOpt::select_algorithm`. -/
def selectAlgorithm : Procedure Failure (MOpt Number Rand operatorNum swarmNum) Nat := do
  let mopt ← get
  let entries ← swarmAt mopt mopt.swarmNow
  let last ← lastOf entries.probabilityNow
  let (draw, rand) := generator.below 10000 mopt.rand
  set { mopt with rand }
  let selectProb := selectProbOf last draw
  let (res, sentry) :=
    scan selectProb entries.probabilityNow (List.finRange operatorNum)
  checkNeighbours selectProb entries.probabilityNow res sentry
  pure res

/-- Counters that have counted nothing. -/
def OperatorCounters.zero : OperatorCounters operatorNum where
  operatorFinds _ := 0
  operatorFindsV2 _ := 0
  operatorCycles _ := 0
  operatorCyclesV2 _ := 0
  operatorCyclesV3 _ := 0

/-- The scheduler that `MOpt::new` initialises. -/
def fresh (rand : Rand) : MOpt Number Rand operatorNum swarmNum where
  rand
  totalFinds := 0
  findsUntilLastSwarm := 0
  wInit := 0.9
  wEnd := 0.3
  wNow := 0.0
  gNow := 0.0
  gMax := 5000.0
  periodPilot := 50000
  periodCore := 500000
  pilotTime := 0
  coreTime := 0
  swarmNow := 0
  swarms _ :=
    { xNow := fun _ => 0.0
      lBest := fun _ => 0.0
      effBest := fun _ => 0.0
      vNow := fun _ => 0.0
      probabilityNow := fun _ => 0.0
      swarmFitness := 0.0
      pilot := .zero }
  gBest _ := 0.0
  operatorFindsPuppet _ := 0
  core := .zero

/-- `MOpt::new`, with the generator that the seed gives. -/
def new (rand : Rand) : Except Failure (MOpt Number Rand operatorNum swarmNum) :=
  match outcome (psoInitialize generator) (fresh rand) with
  | (.ok _, mopt) => .ok mopt
  | (.error failure, _) => .error failure

end

section

variable {Number Rand : Type}
variable {operatorNum swarmNum : Nat}

theorem swarmAt_eq
    {mopt : MOpt Number Rand operatorNum swarmNum}
    (inUse : mopt.swarmNow < swarmNum) :
    swarmAt mopt mopt.swarmNow = .ok (mopt.swarms ⟨mopt.swarmNow, inUse⟩) :=
  dif_pos inUse

theorem lastOf_eq
    {probabilityNow : Fin operatorNum → Number}
    (some : 0 < operatorNum) :
    lastOf probabilityNow =
      .ok (probabilityNow ⟨operatorNum - 1, Nat.sub_lt some Nat.one_pos⟩) := by
  have isOperator : 1 ≤ operatorNum := some
  have isIndex : operatorNum - 1 < operatorNum := Nat.sub_lt some Nat.one_pos
  rw [lastOf, subU64, if_pos isOperator]
  exact dif_pos isIndex

end

section

variable {Number Rand : Type} {operatorNum swarmNum : Nat}

theorem foldlM_addU64
    {Item : Type}
    (finds : Item → Nat)
    (items : List Item)
    (start : Nat) :
    match items.foldlM (fun sum item => addU64 sum (finds item)) start with
    | .ok sum => sum = start + (items.map finds).sum
    | .error failure =>
        failure = .overflow ∧ 2 ^ 64 ≤ start + (items.map finds).sum := by
  induction items generalizing start with
  | nil =>
      rfl
  | cons item rest ih =>
      rw [List.foldlM_cons, List.map_cons, List.sum_cons, ← Nat.add_assoc]
      by_cases fits : start + finds item < 2 ^ 64
      · rw [addU64, if_pos fits]
        exact ih (start + finds item)
      · rw [addU64, if_neg fits]
        exact ⟨rfl, (not_lt.mp fits).trans (Nat.le_add_right _ _)⟩

/-- The finds of an operator, in core mode and in all swarms. -/
def MOpt.findsOf
    (mopt : MOpt Number Rand operatorNum swarmNum)
    (operator : Fin operatorNum) : Nat :=
  mopt.core.operatorFinds operator +
    ((List.finRange swarmNum).map fun swarm =>
      (mopt.swarms swarm).pilot.operatorFinds operator).sum

/-- The finds of all operators. -/
def MOpt.findsSum (mopt : MOpt Number Rand operatorNum swarmNum) : Nat :=
  ((List.finRange operatorNum).map mopt.findsOf).sum

theorem findsPuppet_spec
    (mopt : MOpt Number Rand operatorNum swarmNum)
    (operator : Fin operatorNum) :
    match findsPuppet mopt operator with
    | .ok puppet => puppet = mopt.findsOf operator
    | .error failure => failure = .overflow ∧ 2 ^ 64 ≤ mopt.findsOf operator :=
  foldlM_addU64 _ _ _

/-- Nothing has changed but `operator_finds_puppet`. -/
def MOpt.SamePuppets (before after : MOpt Number Rand operatorNum swarmNum) : Prop :=
  ∃ operatorFindsPuppet, after = { before with operatorFindsPuppet }

theorem MOpt.findsOf_le_sum
    (mopt : MOpt Number Rand operatorNum swarmNum)
    {done rest : List (Fin operatorNum)}
    {operator : Fin operatorNum}
    (split : List.finRange operatorNum = done ++ operator :: rest) :
    (done.map mopt.findsOf).sum + mopt.findsOf operator ≤ mopt.findsSum := by
  rw [findsSum, split, List.map_append, List.sum_append, List.map_cons, List.sum_cons]
  omega

theorem sumFinds_satisfies (mopt : MOpt Number Rand operatorNum swarmNum) :
    Satisfies mopt.SamePuppets sumFinds (fun _ => mopt.SamePuppets)
      fun failure _ => failure = .overflow ∧ 2 ^ 64 ≤ mopt.findsSum := by
  refine
    ((@Satisfies.foldlM _ _ _ _ _
      (fun done sum now =>
        sum = (done.map mopt.findsOf).sum ∧ mopt.SamePuppets now)
      _ _ ?_ 0).weaken (fun _ same => ⟨rfl, same⟩) (fun _ _ holds => holds.2)
        fun _ _ holds => holds)
  rintro done operator rest sum split _ ⟨rfl, operatorFindsPuppet, rfl⟩
  have notMore := mopt.findsOf_le_sum split
  have finds := findsPuppet_spec { mopt with operatorFindsPuppet } operator
  rw [outcome_bind_ok outcome_get, outcome_bind, outcome_lift]
  generalize findsPuppet _ operator = counted at finds ⊢
  cases counted with
  | error failure =>
      exact ⟨finds.1, finds.2.trans (Nat.le_of_add_left_le notMore)⟩
  | ok puppet =>
      obtain rfl : puppet = mopt.findsOf operator := finds
      dsimp only
      rw [outcome_bind_ok (outcome_modify _), outcome_lift, addU64]
      by_cases fits : (done.map mopt.findsOf).sum + mopt.findsOf operator < 2 ^ 64
      · rw [if_pos fits]
        refine ⟨?_, _, rfl⟩
        rw [List.map_append, List.sum_append, List.map_singleton, List.sum_singleton]
      · rw [if_neg fits]
        exact ⟨rfl, (not_lt.mp fits).trans notMore⟩

end

end MeFuzz.MOptScheduler
