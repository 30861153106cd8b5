import MeFuzz.SchedulerState

namespace MeFuzz.Scheduler.PowerScore

open Corpus (CorpusId Error)

/-!
# Power scores

The power of a testcase is the product of four factors from tables and of one that
the power schedule gives.  The numbers are exact.  Logarithms of frequencies are
only compared with each other and with integers, for which powers are compared.
-/

/-- `PowerSchedule`. -/
inductive PowerSchedule where
  | explore
  | exploit
  | fast
  | coe
  | lin
  | quad
  deriving Repr, DecidableEq

/-- What `compute` may end with, and what would go wrong in its arithmetic. -/
inductive Failure where
  | error (error : Error)
  | unknown (message : String)
  | divisionByZero
  | overflow
  deriving DecidableEq

section

variable {Value : Type}

/-- `?` on a result of the corpus. -/
def lift : Except Error Value → Except Failure Value
  | .ok value => .ok value
  | .error error => .error (.error error)

/-- A division. -/
def divide (dividend divisor : ℚ) : Except Failure ℚ :=
  if divisor = 0 then .error .divisionByZero else .ok (dividend / divisor)

/-- A division of unsigned integers. -/
def divideU64 (dividend divisor : Nat) : Except Failure Nat :=
  if divisor = 0 then .error .divisionByZero else .ok (dividend / divisor)

/-- A value that has to fit a type. -/
def fitting (limit value : Nat) : Except Failure Nat :=
  if value ≤ limit then .ok value else .error .overflow

end

/-- `i32::MAX`, `u32::MAX` and `usize::MAX`. -/
def maxI32 : Nat := 2 ^ 31 - 1
def maxU32 : Nat := 2 ^ 32 - 1
def maxUsize : Nat := 2 ^ 64 - 1

/-- `MAX_FACTOR`. -/
def maxFactor : ℚ := 32

/-- `HAVOC_MAX_MULT`. -/
def havocMaxMult : ℚ := 64

/-- `psmeta.n_fuzz()[n_fuzz_entry]`. -/
def frequency
    (psmeta : SchedulerMetadata)
    (nFuzzEntry : Nat) : Except Failure Nat :=
  if nFuzzEntry < nFuzzSize then .ok (psmeta.nFuzz nFuzzEntry)
  else .error (.error .panicked)

/-- The number of paths, and the product of their frequencies. -/
structure Paths where
  nPaths : Nat
  product : Nat
  deriving DecidableEq

section

variable {Input : Type}
variable (psmeta : SchedulerMetadata)
variable (entry : Testcase Input)
variable (state : State Input)

/-- `metadata().get::<SchedulerTestcaseMetaData>()` of a testcase. -/
def testcaseMetadata
    (testcase : Testcase Input) : Except Failure SchedulerTestcaseMetaData :=
  lift
    (orKeyNotFound "SchedulerTestcaseMetaData not found" testcase.schedulerMeta)

/-- The metadata of an entry; that which is scored is at hand. -/
def pathMetadata
    (curIndex idx : CorpusId) : Except Failure SchedulerTestcaseMetaData :=
  if curIndex = idx then testcaseMetadata entry
  else do
    let testcase ← lift (state.corpus.get idx)
    testcaseMetadata testcase

/-- The loop over the corpus for `fuzz_mu`. -/
def addPaths (curIndex : CorpusId) : List CorpusId → Paths → Except Failure Paths
  | [], paths => .ok paths
  | idx :: rest, paths => do
      let tcmeta ← pathMetadata entry state curIndex idx
      let count ← frequency psmeta tcmeta.nFuzzEntry
      let nPaths ← fitting maxI32 (paths.nPaths + 1)
      addPaths curIndex rest ⟨nPaths, paths.product * count⟩

/-- What `fuzz_mu` is computed from. -/
def fuzzMu (strat : Option PowerSchedule) : Except Failure Paths :=
  if strat = some .coe then do
    let curIndex ← lift (orPanic state.corpus.current)
    let paths ← addPaths psmeta entry state curIndex state.corpus.ids ⟨0, 1⟩
    if paths.nPaths = 0 then .error (.unknown "Queue state corrput")
    else .ok paths
  else .ok ⟨0, 1⟩

end

/-- The logarithm of a frequency is above the mean of those of the paths. -/
def IsAboveMean (count : Nat) (paths : Paths) : Prop :=
  paths.product < count ^ paths.nPaths

instance (count : Nat) (paths : Paths) : Decidable (IsAboveMean count paths) :=
  inferInstanceAs (Decidable (_ < _))

/-- `perf_score` for the execution time. -/
def execScore (q avg : ℚ) : ℚ :=
  if avg < q * (1 / 10) then 10
  else if avg < q * (1 / 5) then 25
  else if avg < q * (1 / 2) then 50
  else if avg < q * (3 / 4) then 75
  else if q * 4 < avg then 300
  else if q * 3 < avg then 200
  else if q * 2 < avg then 150
  else 100

/-- The factor for the bitmap size. -/
def bitmapFactor (q avg : ℚ) : ℚ :=
  if avg < q * (3 / 10) then 3
  else if avg < q * (1 / 2) then 2
  else if avg < q * (3 / 4) then 3 / 2
  else if q * 3 < avg then 1 / 4
  else if q * 2 < avg then 1 / 2
  else if q * (3 / 2) < avg then 3 / 4
  else 1

/-- The factor for the handicap. -/
def handicapFactor (handicap : Nat) : ℚ :=
  if 4 ≤ handicap then 4
  else if 0 < handicap then 2
  else 1

/-- The factor for the depth. -/
def depthFactor (depth : Nat) : ℚ :=
  if 4 ≤ depth ∧ depth < 8 then 2
  else if 8 ≤ depth ∧ depth < 14 then 3
  else if 14 ≤ depth ∧ depth < 25 then 4
  else if 25 ≤ depth then 5
  else 1

/-- The `match` of `FAST`: the logarithm of a frequency is below k if it is below 2^k. -/
def fastFactor (count : Nat) (favored : Bool) : ℚ :=
  if count < 2 ^ 2 then 4
  else if count < 2 ^ 4 then 3
  else if count < 2 ^ 5 then 2
  else if 2 ^ 6 ≤ count ∧ count < 2 ^ 7 then if favored then 1 else 4 / 5
  else if 2 ^ 7 ≤ count ∧ count < 2 ^ 8 then if favored then 1 else 3 / 5
  else if 2 ^ 8 ≤ count then if favored then 1 else 2 / 5
  else 1

section

variable {count : Nat}

theorem sum_logb
    {counts : List Nat}
    (allPositive : ∀ other ∈ counts, 0 < other) :
    (counts.map fun other : Nat => Real.logb 2 other).sum =
      Real.logb 2 (counts.prod : Nat) := by
  induction counts with
  | nil =>
      simp
  | cons first rest ih =>
      have restPositive : ∀ other ∈ rest, 0 < other := fun other isLater =>
        allPositive other (List.mem_cons_of_mem first isLater)
      have isFirst : (first : ℝ) ≠ 0 :=
        Nat.cast_ne_zero.mpr (allPositive first List.mem_cons_self).ne'
      have isRest : ((rest.prod : Nat) : ℝ) ≠ 0 :=
        Nat.cast_ne_zero.mpr (List.prod_pos restPositive).ne'
      rw [List.map_cons, List.sum_cons, ih restPositive,
        List.prod_cons, Nat.cast_mul, Real.logb_mul isFirst isRest]

theorem mean_logb_lt_iff
    {counts : List Nat}
    (notEmpty : counts ≠ [])
    (allPositive : ∀ other ∈ counts, 0 < other)
    (positive : 0 < count) :
    (counts.map fun other : Nat => Real.logb 2 other).sum / counts.length <
        Real.logb 2 count ↔
      IsAboveMean count ⟨counts.length, counts.prod⟩ := by
  have isLength : (0 : ℝ) < counts.length :=
    Nat.cast_pos.mpr (List.length_pos_iff.mpr notEmpty)
  have isProduct : (0 : ℝ) < (counts.prod : Nat) :=
    Nat.cast_pos.mpr (List.prod_pos allPositive)
  have isPower : (0 : ℝ) < (count : ℝ) ^ counts.length :=
    pow_pos (Nat.cast_pos.mpr positive) _
  rw [sum_logb allPositive, div_lt_iff₀ isLength, mul_comm, ← Real.logb_pow,
    Real.logb_lt_logb_iff (by norm_num) isProduct isPower]
  unfold IsAboveMean
  exact_mod_cast Iff.rfl

end

section

variable {Input : Type}

/-- `perf_score` in front of the factor of the schedule. -/
def basePower
    (psmeta : SchedulerMetadata)
    (execTime : Nat)
    (tcmeta : SchedulerTestcaseMetaData) : ℚ :=
  execScore execTime (psmeta.execTime / psmeta.cycles) *
    bitmapFactor tcmeta.bitmapSize
      ((psmeta.bitmapSize / psmeta.bitmapEntries : Nat) : ℚ) *
    handicapFactor tcmeta.handicap * depthFactor tcmeta.depth

/-- `factor`. -/
def factorOf
    (psmeta : SchedulerMetadata)
    (entry : Testcase Input)
    (tcmeta : SchedulerTestcaseMetaData)
    (paths : Paths) : Option PowerSchedule → Except Failure ℚ
  | none => .ok 1
  | some .explore => .ok 1
  | some .exploit => .ok maxFactor
  | some .coe => do
      let count ← frequency psmeta tcmeta.nFuzzEntry
      .ok (if IsAboveMean count paths ∧ entry.isFavored = false then 0 else 1)
  | some .fast =>
      if entry.fuzzLevel ≠ 0 then do
        let count ← frequency psmeta tcmeta.nFuzzEntry
        let factor := fastFactor count entry.isFavored
        .ok (if entry.isFavored then factor * (23 / 20) else factor)
      else .ok 1
  | some .lin => do
      let count ← frequency psmeta tcmeta.nFuzzEntry
      divide entry.fuzzLevel (← fitting maxU32 (count + 1))
  | some .quad => do
      let squared ← fitting maxUsize (entry.fuzzLevel * entry.fuzzLevel)
      let count ← frequency psmeta tcmeta.nFuzzEntry
      divide squared (← fitting maxU32 (count + 1))

/-- The last part of `compute`: the factor of the schedule, and the two bounds. -/
def bounded (strat : Option PowerSchedule) (perfScore factor : ℚ) : ℚ :=
  let perfScore :=
    if strat = none ∨ strat = some .explore then perfScore
    else perfScore * min factor maxFactor
  let perfScore :=
    if strat = some .coe ∧ perfScore < 1 then 1 else perfScore
  min perfScore (havocMaxMult * 100)

/-- `CorpusPowerTestcaseScore::compute`, with `psmeta.strat()` as an argument. -/
def compute
    (strat : Option PowerSchedule)
    (entry : Testcase Input)
    (state : State Input) : Except Failure ℚ := do
  let psmeta ←
    lift (orKeyNotFound "SchedulerMetadata not found" state.schedulerMetadata)
  let paths ← fuzzMu psmeta entry state strat
  let execTime ← lift (orKeyNotFound "exec_time not set" entry.execTime)
  let _ ← divide psmeta.execTime psmeta.cycles
  let _ ← divideU64 psmeta.bitmapSize psmeta.bitmapEntries
  let tcmeta ← testcaseMetadata entry
  let factor ← factorOf psmeta entry tcmeta paths strat
  .ok (bounded strat (basePower psmeta execTime tcmeta) factor)

end

section

variable {q avg : ℚ}
variable {count handicap depth execTime : Nat}
variable {psmeta : SchedulerMetadata}
variable {tcmeta : SchedulerTestcaseMetaData}

theorem execScore_ge :
    10 ≤ execScore q avg := by
  unfold execScore
  split_ifs <;> norm_num

theorem bitmapFactor_ge :
    1 / 4 ≤ bitmapFactor q avg := by
  unfold bitmapFactor
  split_ifs <;> norm_num

theorem handicapFactor_ge :
    1 ≤ handicapFactor handicap := by
  unfold handicapFactor
  split_ifs <;> norm_num

theorem depthFactor_ge :
    1 ≤ depthFactor depth := by
  unfold depthFactor
  split_ifs <;> norm_num

theorem fastFactor_ge
    {favored : Bool} :
    (if favored then 1 else 2 / 5) ≤ fastFactor count favored := by
  unfold fastFactor
  split_ifs <;> norm_num

theorem basePower_ge :
    5 / 2 ≤ basePower psmeta execTime tcmeta := by
  unfold basePower
  set exec := execScore execTime (psmeta.execTime / psmeta.cycles)
  set bitmap := bitmapFactor tcmeta.bitmapSize
    ((psmeta.bitmapSize / psmeta.bitmapEntries : Nat) : ℚ)
  have isExec : 10 ≤ exec := execScore_ge
  have isBitmap : 1 / 4 ≤ bitmap := bitmapFactor_ge
  have product : 10 * (1 / 4) ≤ exec * bitmap :=
    mul_le_mul isExec isBitmap (by norm_num) (by linarith)
  calc
    5 / 2 = 10 * (1 / 4) := by norm_num
    _ ≤ exec * bitmap := product
    _ ≤ exec * bitmap * handicapFactor tcmeta.handicap :=
      le_mul_of_one_le_right (by linarith) handicapFactor_ge
    _ ≤ exec * bitmap * handicapFactor tcmeta.handicap *
          depthFactor tcmeta.depth :=
      le_mul_of_one_le_right
        (mul_nonneg (by linarith) (zero_le_one.trans handicapFactor_ge))
        depthFactor_ge

end

/-- At least one and at most the cap; under `COE` also nothing. -/
def InRange (strat : Option PowerSchedule) (score : ℚ) : Prop :=
  (1 ≤ score ∧ score ≤ havocMaxMult * 100) ∨ (strat = some .coe ∧ score = 0)

section

variable {strat : Option PowerSchedule}
variable {base factor : ℚ}

theorem bounded_le :
    bounded strat base factor ≤ havocMaxMult * 100 :=
  min_le_right _ _

theorem inRange_bounded_iff
    (notCoe : strat ≠ some .coe) :
    InRange strat (bounded strat base factor) ↔
      1 ≤ bounded strat base factor := by
  unfold InRange
  constructor
  · rintro (⟨atLeast, -⟩ | ⟨isCoe, -⟩)
    · exact atLeast
    · exact absurd isCoe notCoe
  · intro atLeast
    exact .inl ⟨atLeast, bounded_le⟩

theorem one_le_bounded_of_explore
    (isExplore : strat = none ∨ strat = some .explore)
    (isBase : 5 / 2 ≤ base) :
    1 ≤ bounded strat base factor := by
  unfold bounded
  rw [if_pos isExplore]
  dsimp only
  rw [if_neg]
  · exact le_min (by linarith) (by norm_num [havocMaxMult])
  · rintro ⟨isCoe, -⟩
    rw [isCoe] at isExplore
    rcases isExplore with impossible | impossible <;> cases impossible

/-- `COE` has the bound that the others should have. -/
theorem one_le_bounded_coe :
    1 ≤ bounded (some .coe) base factor := by
  unfold bounded
  rw [if_neg (by simp)]
  dsimp only
  refine le_min ?_ (by norm_num [havocMaxMult])
  split_ifs with isLow
  · exact le_rfl
  · exact not_lt.mp fun below => isLow ⟨rfl, below⟩

theorem one_le_bounded_iff
    (isScaled : strat ≠ none ∧ strat ≠ some .explore ∧ strat ≠ some .coe)
    (isBase : 5 / 2 ≤ base) :
    1 ≤ bounded strat base factor ↔ 1 ≤ base * factor := by
  obtain ⟨notNone, notExplore, notCoe⟩ := isScaled
  unfold bounded
  rw [if_neg (by simp [notNone, notExplore])]
  dsimp only
  rw [if_neg fun isCoe => notCoe isCoe.1, le_min_iff]
  have cap : (1 : ℚ) ≤ havocMaxMult * 100 := by norm_num [havocMaxMult]
  have atMost : 1 ≤ base * maxFactor := by
    unfold maxFactor
    linarith
  rcases le_total factor maxFactor with isLow | isHigh
  · rw [min_eq_left isLow]
    exact and_iff_left cap
  · rw [min_eq_right isHigh]
    refine iff_of_true ⟨atMost, cap⟩ (atMost.trans ?_)
    exact mul_le_mul_of_nonneg_left isHigh (by linarith)

theorem inRange_scaled_iff
    (isScaled : strat ≠ none ∧ strat ≠ some .explore ∧ strat ≠ some .coe)
    (isBase : 5 / 2 ≤ base) :
    InRange strat (bounded strat base factor) ↔ 1 ≤ base * factor :=
  (inRange_bounded_iff isScaled.2.2).trans (one_le_bounded_iff isScaled isBase)

end

theorem bind_eq_ok
    {First Second : Type}
    {first : Except Failure First}
    {next : First → Except Failure Second}
    {result : Second} :
    (first >>= next) = .ok result ↔
      ∃ value, first = .ok value ∧ next value = .ok result := by
  cases first with
  | error failure =>
      exact iff_of_false nofun fun ⟨_, isOk, _⟩ => nomatch isOk
  | ok value =>
      constructor
      · exact fun returns => ⟨value, rfl, returns⟩
      · rintro ⟨same, isSame, returns⟩
        obtain rfl := Except.ok.inj isSame
        exact returns

theorem checked_eq_ok
    {Value : Type}
    {fails : Prop}
    [Decidable fails]
    {failure : Failure}
    {value result : Value} :
    (if fails then .error failure else .ok value : Except Failure Value) =
        .ok result ↔
      ¬fails ∧ result = value := by
  split
  · rename_i hasFailed
    exact iff_of_false nofun fun holds => holds.1 hasFailed
  · rename_i notFailed
    rw [Except.ok.injEq]
    exact ⟨fun same => ⟨notFailed, same.symm⟩, fun holds => holds.2.symm⟩

theorem divide_eq_ok
    {dividend divisor quotient : ℚ} :
    divide dividend divisor = .ok quotient ↔
      divisor ≠ 0 ∧ quotient = dividend / divisor :=
  checked_eq_ok

theorem divideU64_eq_ok
    {dividend divisor quotient : Nat} :
    divideU64 dividend divisor = .ok quotient ↔
      divisor ≠ 0 ∧ quotient = dividend / divisor :=
  checked_eq_ok

theorem fitting_eq_ok
    {limit value result : Nat} :
    fitting limit value = .ok result ↔ value ≤ limit ∧ result = value := by
  unfold fitting
  by_cases fits : value ≤ limit
  · rw [if_pos fits, Except.ok.injEq]
    exact ⟨fun same => ⟨fits, same.symm⟩, fun holds => holds.2.symm⟩
  · rw [if_neg fits]
    exact iff_of_false nofun fun holds => fits holds.1

section

variable {Input : Type}
variable {strat : Option PowerSchedule}
variable {entry : Testcase Input}
variable {state : State Input}
variable {psmeta : SchedulerMetadata}
variable {execTime : Nat}
variable {tcmeta : SchedulerTestcaseMetaData}

/-- A testcase has the metadata of the schedule, with an index into `n_fuzz`. -/
def HasMetadata
    (testcase : Testcase Input)
    (tcmeta : SchedulerTestcaseMetaData) : Prop :=
  testcase.schedulerMeta = some tcmeta ∧ tcmeta.nFuzzEntry < nFuzzSize

/--
All that the score is computed from is there.  Under `COE` there is a current entry,
which may be the one that is scored, and the others have their metadata.
-/
structure Ready
    (strat : Option PowerSchedule)
    (entry : Testcase Input)
    (state : State Input)
    (psmeta : SchedulerMetadata)
    (execTime : Nat)
    (tcmeta : SchedulerTestcaseMetaData) : Prop where
  schedulerMetadata : state.schedulerMetadata = some psmeta
  hasExecTime : entry.execTime = some execTime
  hasMetadata : HasMetadata entry tcmeta
  paths :
    strat = some .coe →
      state.corpus.ids ≠ [] ∧
      ∃ curIndex, state.corpus.current = some curIndex ∧
        ∀ idx ∈ state.corpus.ids, idx ≠ curIndex →
          ∃ testcase otherMeta,
            state.corpus.find idx = some testcase ∧ HasMetadata testcase otherMeta

theorem HasMetadata.get
    {testcase : Testcase Input}
    (has : HasMetadata testcase tcmeta) :
    testcaseMetadata testcase = .ok tcmeta := by
  rw [testcaseMetadata, has.1]
  rfl

theorem HasMetadata.frequency
    {testcase : Testcase Input}
    (has : HasMetadata testcase tcmeta) :
    frequency psmeta tcmeta.nFuzzEntry = .ok (psmeta.nFuzz tcmeta.nFuzzEntry) :=
  if_pos has.2

theorem compute_eq_ok
    (ready : Ready strat entry state psmeta execTime tcmeta)
    {score : ℚ} :
    compute strat entry state = .ok score ↔
      ∃ paths factor,
        fuzzMu psmeta entry state strat = .ok paths ∧
        psmeta.cycles ≠ 0 ∧ psmeta.bitmapEntries ≠ 0 ∧
        factorOf psmeta entry tcmeta paths strat = .ok factor ∧
        score = bounded strat (basePower psmeta execTime tcmeta) factor := by
  have hasState :
      lift (orKeyNotFound "SchedulerMetadata not found" state.schedulerMetadata) =
        .ok psmeta := by
    rw [ready.schedulerMetadata]
    rfl
  have hasTime :
      lift (orKeyNotFound "exec_time not set" entry.execTime) = .ok execTime := by
    rw [ready.hasExecTime]
    rfl
  unfold compute
  simp only [hasState, hasTime, ready.hasMetadata.get, bind_eq_ok, divide_eq_ok,
    divideU64_eq_ok, Except.ok.injEq, exists_eq_left', ne_eq, Nat.cast_eq_zero]
  constructor
  · rintro ⟨paths, areFuzzMu, -, ⟨cycles, -⟩, -, ⟨entries, -⟩, factor, isFactor, rfl⟩
    exact ⟨paths, factor, areFuzzMu, cycles, entries, isFactor, rfl⟩
  · rintro ⟨paths, factor, areFuzzMu, cycles, entries, isFactor, rfl⟩
    exact ⟨paths, areFuzzMu, _, ⟨cycles, rfl⟩, _, ⟨entries, rfl⟩, factor, isFactor, rfl⟩

theorem addPaths_iff
    {curIndex : CorpusId}
    {ids : List CorpusId}
    {paths : Paths}
    (hasMetadata : HasMetadata entry tcmeta)
    (others :
      ∀ idx ∈ ids, idx ≠ curIndex →
        ∃ testcase otherMeta,
          state.corpus.find idx = some testcase ∧ HasMetadata testcase otherMeta)
    (fits : paths.nPaths ≤ maxI32) :
    (∀ last,
      addPaths psmeta entry state curIndex ids paths = .ok last →
        last.nPaths = paths.nPaths + ids.length) ∧
    ((∃ last, addPaths psmeta entry state curIndex ids paths = .ok last) ↔
      paths.nPaths + ids.length ≤ maxI32) := by
  induction ids generalizing paths with
  | nil =>
      refine ⟨?_, iff_of_true ⟨paths, rfl⟩ fits⟩
      intro last isLast
      rw [← Except.ok.inj isLast]
      rfl
  | cons idx rest ih =>
      obtain ⟨found, isFound, hasFound⟩ :
          ∃ found,
            pathMetadata entry state curIndex idx = .ok found ∧
            found.nFuzzEntry < nFuzzSize := by
        unfold pathMetadata
        by_cases isCurrent : curIndex = idx
        · rw [if_pos isCurrent]
          exact ⟨tcmeta, hasMetadata.get, hasMetadata.2⟩
        · obtain ⟨testcase, otherMeta, isThere, has⟩ :=
            others idx List.mem_cons_self (Ne.symm isCurrent)
          rw [if_neg isCurrent, Corpus.InMemoryCorpus.get_eq_ok.mpr isThere]
          exact ⟨otherMeta, has.get, has.2⟩
      have isCount : frequency psmeta found.nFuzzEntry =
          .ok (psmeta.nFuzz found.nFuzzEntry) := if_pos hasFound
      have body :
          addPaths psmeta entry state curIndex (idx :: rest) paths =
            fitting maxI32 (paths.nPaths + 1) >>= fun nPaths =>
              addPaths psmeta entry state curIndex rest
                ⟨nPaths, paths.product * psmeta.nFuzz found.nFuzzEntry⟩ := by
        rw [addPaths, isFound]
        change (frequency psmeta found.nFuzzEntry >>= _) = _
        rw [isCount]
        rfl
      rw [body, List.length_cons]
      by_cases oneMore : paths.nPaths + 1 ≤ maxI32
      · have isFitting : fitting maxI32 (paths.nPaths + 1) = .ok (paths.nPaths + 1) :=
          if_pos oneMore
        obtain ⟨counted, returns⟩ :=
          @ih
            ⟨paths.nPaths + 1, paths.product * psmeta.nFuzz found.nFuzzEntry⟩
            (fun other isLater => others other (List.mem_cons_of_mem idx isLater))
            oneMore
        have moved : paths.nPaths + 1 + rest.length =
            paths.nPaths + (rest.length + 1) := by omega
        dsimp only at counted returns
        rw [moved] at counted returns
        rw [isFitting]
        exact ⟨counted, returns⟩
      · have isFitting :
            fitting maxI32 (paths.nPaths + 1) = .error .overflow := if_neg oneMore
        rw [isFitting]
        exact ⟨nofun, iff_of_false nofun (by omega)⟩

theorem fuzzMu_coe_iff
    (ready : Ready (some .coe) entry state psmeta execTime tcmeta) :
    (∃ paths, fuzzMu psmeta entry state (some .coe) = .ok paths) ↔
      state.corpus.ids.length ≤ maxI32 := by
  obtain ⟨notEmpty, curIndex, isCurrent, others⟩ := ready.paths rfl
  obtain ⟨counted, returns⟩ :=
    @addPaths_iff Input entry state psmeta tcmeta curIndex state.corpus.ids ⟨0, 1⟩
      ready.hasMetadata others (Nat.zero_le _)
  rw [Nat.zero_add] at returns
  have current : lift (orPanic state.corpus.current) = .ok curIndex := by
    rw [isCurrent]
    rfl
  rw [← returns, fuzzMu, if_pos rfl]
  simp only [current, bind_eq_ok, Except.ok.injEq, exists_eq_left']
  constructor
  · rintro ⟨_, paths, areAdded, -⟩
    exact ⟨paths, areAdded⟩
  · rintro ⟨paths, areAdded⟩
    have positive : paths.nPaths ≠ 0 := by
      have length := List.length_pos_iff.mpr notEmpty
      have isCounted := counted paths areAdded
      omega
    refine ⟨paths, paths, areAdded, ?_⟩
    rw [if_neg positive]

/-- The factor of `FAST` takes at most three fifths. -/
theorem factorOf_fast
    {paths : Paths}
    (hasMetadata : HasMetadata entry tcmeta) :
    ∃ factor,
      factorOf psmeta entry tcmeta paths (some .fast) = .ok factor ∧
      2 / 5 ≤ factor := by
  unfold factorOf
  by_cases isFuzzed : entry.fuzzLevel ≠ 0
  · rw [if_pos isFuzzed, hasMetadata.frequency]
    refine ⟨_, rfl, ?_⟩
    have atLeast :=
      @fastFactor_ge (psmeta.nFuzz tcmeta.nFuzzEntry) entry.isFavored
    cases favored : entry.isFavored with
    | true =>
        rw [favored, if_pos rfl] at atLeast
        rw [if_pos rfl]
        linarith
    | false =>
        rw [favored, if_neg Bool.false_ne_true] at atLeast
        rw [if_neg Bool.false_ne_true]
        exact atLeast
  · rw [if_neg isFuzzed]
    exact ⟨1, rfl, by norm_num⟩

theorem factorOf_coe
    {paths : Paths}
    (hasMetadata : HasMetadata entry tcmeta) :
    ∃ factor, factorOf psmeta entry tcmeta paths (some .coe) = .ok factor := by
  unfold factorOf
  rw [hasMetadata.frequency]
  exact ⟨_, rfl⟩

theorem one_le_mul_div_iff
    {base : ℚ}
    {level count : Nat} :
    1 ≤ base * ((level : ℚ) / ((count + 1 : Nat) : ℚ)) ↔
      ((count + 1 : Nat) : ℚ) ≤ base * level := by
  have positive : (0 : ℚ) < ((count + 1 : Nat) : ℚ) :=
    Nat.cast_pos.mpr (Nat.succ_pos count)
  rw [← mul_div_assoc, one_le_div positive]

theorem factorOf_lin
    {paths : Paths}
    {factor : ℚ}
    (hasMetadata : HasMetadata entry tcmeta) :
    factorOf psmeta entry tcmeta paths (some .lin) = .ok factor ↔
      psmeta.nFuzz tcmeta.nFuzzEntry + 1 ≤ maxU32 ∧
      factor =
        entry.fuzzLevel / ((psmeta.nFuzz tcmeta.nFuzzEntry + 1 : Nat) : ℚ) := by
  unfold factorOf
  simp only [hasMetadata.frequency, bind_eq_ok, Except.ok.injEq, exists_eq_left',
    fitting_eq_ok, divide_eq_ok]
  constructor
  · rintro ⟨_, ⟨fits, rfl⟩, -, rfl⟩
    exact ⟨fits, rfl⟩
  · rintro ⟨fits, rfl⟩
    exact ⟨_, ⟨fits, rfl⟩, Nat.cast_ne_zero.mpr (Nat.succ_ne_zero _), rfl⟩

theorem factorOf_quad
    {paths : Paths}
    {factor : ℚ}
    (hasMetadata : HasMetadata entry tcmeta) :
    factorOf psmeta entry tcmeta paths (some .quad) = .ok factor ↔
      entry.fuzzLevel * entry.fuzzLevel ≤ maxUsize ∧
      psmeta.nFuzz tcmeta.nFuzzEntry + 1 ≤ maxU32 ∧
      factor =
        ((entry.fuzzLevel * entry.fuzzLevel : Nat) : ℚ) /
          ((psmeta.nFuzz tcmeta.nFuzzEntry + 1 : Nat) : ℚ) := by
  unfold factorOf
  simp only [hasMetadata.frequency, bind_eq_ok, Except.ok.injEq, exists_eq_left',
    fitting_eq_ok, divide_eq_ok]
  constructor
  · rintro ⟨_, ⟨fitsSquare, rfl⟩, _, ⟨fits, rfl⟩, -, rfl⟩
    exact ⟨fitsSquare, fits, rfl⟩
  · rintro ⟨fitsSquare, fits, rfl⟩
    exact ⟨_, ⟨fitsSquare, rfl⟩, _, ⟨fits, rfl⟩,
      Nat.cast_ne_zero.mpr (Nat.succ_ne_zero _), rfl⟩

/-- What the schedule needs of the frequency and the level of the testcase. -/
def SuitsSchedule
    (entry : Testcase Input)
    (state : State Input)
    (psmeta : SchedulerMetadata)
    (execTime : Nat)
    (tcmeta : SchedulerTestcaseMetaData) : Option PowerSchedule → Prop
  | some .coe => state.corpus.ids.length ≤ maxI32
  | some .lin =>
      psmeta.nFuzz tcmeta.nFuzzEntry + 1 ≤ maxU32 ∧
      ((psmeta.nFuzz tcmeta.nFuzzEntry + 1 : Nat) : ℚ) ≤
        basePower psmeta execTime tcmeta * entry.fuzzLevel
  | some .quad =>
      entry.fuzzLevel * entry.fuzzLevel ≤ maxUsize ∧
      psmeta.nFuzz tcmeta.nFuzzEntry + 1 ≤ maxU32 ∧
      ((psmeta.nFuzz tcmeta.nFuzzEntry + 1 : Nat) : ℚ) ≤
        basePower psmeta execTime tcmeta *
          ((entry.fuzzLevel * entry.fuzzLevel : Nat) : ℚ)
  | _ => True

theorem suitsSchedule_iff
    (ready : Ready strat entry state psmeta execTime tcmeta) :
    (∃ paths factor,
      fuzzMu psmeta entry state strat = .ok paths ∧
      factorOf psmeta entry tcmeta paths strat = .ok factor ∧
      InRange strat (bounded strat (basePower psmeta execTime tcmeta) factor)) ↔
      SuitsSchedule entry state psmeta execTime tcmeta strat := by
  have isBase := @basePower_ge execTime psmeta tcmeta
  cases strat with
  | none =>
      exact iff_of_true
        ⟨_, 1, rfl, rfl, .inl ⟨one_le_bounded_of_explore (.inl rfl) isBase, bounded_le⟩⟩
        trivial
  | some schedule =>
      cases schedule with
      | explore =>
          exact iff_of_true
            ⟨_, 1, rfl, rfl,
              .inl ⟨one_le_bounded_of_explore (.inr rfl) isBase, bounded_le⟩⟩
            trivial
      | exploit =>
          refine iff_of_true ⟨_, maxFactor, rfl, rfl, ?_⟩ trivial
          refine (inRange_scaled_iff (by decide) isBase).mpr ?_
          unfold maxFactor
          linarith
      | fast =>
          obtain ⟨factor, isFactor, atLeast⟩ :=
            @factorOf_fast _ entry psmeta tcmeta ⟨0, 1⟩ ready.hasMetadata
          refine iff_of_true ⟨_, factor, rfl, isFactor, ?_⟩ trivial
          refine (inRange_scaled_iff (by decide) isBase).mpr ?_
          calc
            (1 : ℚ) = 5 / 2 * (2 / 5) := by norm_num
            _ ≤ basePower psmeta execTime tcmeta * factor :=
              mul_le_mul isBase atLeast (by norm_num) (by linarith)
      | coe =>
          refine Iff.trans ?_ (fuzzMu_coe_iff ready)
          constructor
          · rintro ⟨paths, -, areFuzzMu, -⟩
            exact ⟨paths, areFuzzMu⟩
          · rintro ⟨paths, areFuzzMu⟩
            obtain ⟨factor, isFactor⟩ := @factorOf_coe _ entry psmeta tcmeta paths
              ready.hasMetadata
            exact ⟨paths, factor, areFuzzMu, isFactor,
              .inl ⟨one_le_bounded_coe, bounded_le⟩⟩
      | lin =>
          have isScaled :
              some PowerSchedule.lin ≠ none ∧ some PowerSchedule.lin ≠ some .explore ∧
                some PowerSchedule.lin ≠ some .coe := by
            decide
          simp only [factorOf_lin ready.hasMetadata, inRange_scaled_iff isScaled isBase,
            SuitsSchedule]
          constructor
          · rintro ⟨_, _, -, ⟨fits, rfl⟩, atLeast⟩
            exact ⟨fits, one_le_mul_div_iff.mp atLeast⟩
          · rintro ⟨fits, atLeast⟩
            exact ⟨_, _, rfl, ⟨fits, rfl⟩, one_le_mul_div_iff.mpr atLeast⟩
      | quad =>
          have isScaled :
              some PowerSchedule.quad ≠ none ∧ some PowerSchedule.quad ≠ some .explore ∧
                some PowerSchedule.quad ≠ some .coe := by
            decide
          simp only [factorOf_quad ready.hasMetadata, inRange_scaled_iff isScaled isBase,
            SuitsSchedule]
          constructor
          · rintro ⟨_, _, -, ⟨fitsSquare, fits, rfl⟩, atLeast⟩
            exact ⟨fitsSquare, fits, one_le_mul_div_iff.mp atLeast⟩
          · rintro ⟨fitsSquare, fits, atLeast⟩
            exact ⟨_, _, rfl, ⟨fitsSquare, fits, rfl⟩,
              one_le_mul_div_iff.mpr atLeast⟩

/--
With all its metadata there, the score is computed and in range if and only if no
divisor is zero and the frequency suits the schedule.
-/
theorem power_score_in_range_iff
    (ready : Ready strat entry state psmeta execTime tcmeta) :
    (∃ score, compute strat entry state = .ok score ∧ InRange strat score) ↔
      psmeta.cycles ≠ 0 ∧ psmeta.bitmapEntries ≠ 0 ∧
        SuitsSchedule entry state psmeta execTime tcmeta strat := by
  simp only [compute_eq_ok ready, ← suitsSchedule_iff ready]
  constructor
  · rintro ⟨_, ⟨paths, factor, areFuzzMu, cycles, entries, isFactor, rfl⟩, inRange⟩
    exact ⟨cycles, entries, paths, factor, areFuzzMu, isFactor, inRange⟩
  · rintro ⟨cycles, entries, paths, factor, areFuzzMu, isFactor, inRange⟩
    exact ⟨_, ⟨paths, factor, areFuzzMu, cycles, entries, isFactor, rfl⟩, inRange⟩

end

/-- The metadata after the calibration of one testcase with one run. -/
def calibrated : SchedulerMetadata :=
  { SchedulerMetadata.new with
    execTime := 1000
    cycles := 1
    bitmapSize := 8
    bitmapEntries := 1 }

/-- The testcase, on its level. -/
def calibratedEntry (fuzzLevel : Nat) : Testcase Unit :=
  { Testcase.new () with
    execTime := some 1000
    fuzzLevel := fuzzLevel
    schedulerMeta := some ⟨8, 0, 0, 0, (1000, 1)⟩ }

/-- The state of the fuzzer. -/
def calibratedState : State Unit :=
  { State.new with schedulerMetadata := some calibrated }

theorem calibrated_ready
    {strat : Option PowerSchedule}
    {fuzzLevel : Nat}
    (notCoe : strat ≠ some .coe) :
    Ready strat (calibratedEntry fuzzLevel) calibratedState calibrated 1000
      ⟨8, 0, 0, 0, (1000, 1)⟩ where
  schedulerMetadata := rfl
  hasExecTime := rfl
  hasMetadata := ⟨rfl, by decide⟩
  paths := fun isCoe => absurd isCoe notCoe

/-- Under `LIN`, what was not fuzzed yet has the score 0. -/
theorem unfuzzed_is_out_of_range :
    ¬∃ score,
      compute (some .lin) (calibratedEntry 0) calibratedState = .ok score ∧
      InRange (some .lin) score := by
  rintro ⟨score, computes, inRange⟩
  obtain ⟨paths, factor, -, -, -, isFactor, rfl⟩ :=
    (compute_eq_ok (calibrated_ready (by decide))).mp computes
  obtain ⟨-, isZero⟩ := (factorOf_lin ⟨rfl, by decide⟩).mp isFactor
  have tooLow := (inRange_scaled_iff (by decide) basePower_ge).mp inRange
  rw [isZero] at tooLow
  norm_num [calibratedEntry] at tooLow

/-- On its first level, it is in range. -/
theorem power_score_in_range_fuzzed :
    ∃ score,
      compute (some .lin) (calibratedEntry 1) calibratedState = .ok score ∧
      InRange (some .lin) score := by
  refine (power_score_in_range_iff (calibrated_ready (by decide))).mpr
    ⟨by decide, by decide, by decide, ?_⟩
  have isBase :=
    @basePower_ge 1000 calibrated ⟨8, 0, 0, 0, (1000, 1)⟩
  norm_num [calibratedEntry, calibrated, SchedulerMetadata.new] at isBase ⊢
  linarith

end MeFuzz.Scheduler.PowerScore
