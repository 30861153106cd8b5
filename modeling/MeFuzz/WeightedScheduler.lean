import MeFuzz.Binary64Arithmetic
import MeFuzz.Rands
import MeFuzz.SchedulerState

namespace MeFuzz.Scheduler

open Corpus (CorpusId Error InMemoryCorpus)
open Procedure

/-!
# The weighted scheduler

Every change of the corpus makes new alias tables, from which `next` draws an
entry.  The entries that are left over when the tables are made have no alias.
They are drawn with probability one, which a draw of the upper end misses.
-/

variable {Input : Type}

/-- `TestcaseScore::compute`. -/
abbrev Score (Input : Type) :=
  Testcase Input → State Input → Except Error Float

namespace WeightedScheduler

/-- `alias_table` and `alias_probability`. -/
structure AliasTables where
  aliasTable : CorpusId → Option CorpusId
  aliasProbability : CorpusId → Option Float

/-- Tables without entries. -/
def AliasTables.empty : AliasTables :=
  ⟨fun _ => none, fun _ => none⟩

/-- An entry with its own probability and an alias for the rest. -/
def AliasTables.withAlias
    (tables : AliasTables)
    (a : CorpusId)
    (probability : Float)
    (g : CorpusId) : AliasTables where
  aliasTable := Function.update tables.aliasTable a (some g)
  aliasProbability :=
    Function.update tables.aliasProbability a (some probability)

/-- An entry that is left over. -/
def AliasTables.withoutAlias
    (tables : AliasTables)
    (id : CorpusId) : AliasTables :=
  { tables with
    aliasProbability := Function.update tables.aliasProbability id (some 1.0) }

/--
The loop that pairs the queues `s_arr` and `l_arr`, whose tops are the heads
here.  Each round leaves one entry fewer in them.
-/
def pairQueues :
    Nat → (CorpusId → Float) → List CorpusId → List CorpusId → AliasTables →
      List CorpusId × List CorpusId × AliasTables
  | fuel + 1, p, a :: s, g :: l, tables =>
      let tables := tables.withAlias a (p a) g
      let p := Function.update p g (p g + (p a - 1.0))
      if p g < 1.0 then pairQueues fuel p (g :: s) l tables
      else pairQueues fuel p s (g :: l) tables
  | _, _, s, l, tables => (s, l, tables)

/-- `p_arr`: the weights, scaled to one on average. -/
def scaled
    (ids : List CorpusId)
    (weights : CorpusId → Float)
    (sum : Float)
    (id : CorpusId) : Float :=
  weights id * Float.ofNat ids.length / sum

/-- The tables for the entries, given their weights. -/
def makeTables
    (ids : List CorpusId)
    (weights : CorpusId → Float)
    (sum : Float) : AliasTables :=
  let p := scaled ids weights sum
  let s := ids.filter fun id => p id < 1.0
  let l := ids.filter fun id => ¬p id < 1.0
  let (s, l, tables) := pairQueues (s.length + l.length) p s l .empty
  (l ++ s).foldl AliasTables.withoutAlias tables

/-- The loop that weighs the entries. -/
def weigh
    (compute : Score Input) :
    List CorpusId → (CorpusId → Float) → Float →
      Hook Input ((CorpusId → Float) × Float)
  | [], weights, sum => pure (weights, sum)
  | i :: rest, weights, sum => do
      let testcase ← getTestcase i
      let state ← get
      let weight ← compute testcase state
      weigh compute rest (Function.update weights i weight) (sum + weight)

/-- `state.metadata().get::<WeightedScheduleMetadata>()`, which must be there. -/
def getMetadata : Hook Input WeightedScheduleMetadata := do
  let state ← get
  orKeyNotFound "WeigthedScheduleMetadata not found" state.weighted

/-- Write the `WeightedScheduleMetadata` of the state. -/
def setMetadata (wsmeta : WeightedScheduleMetadata) : Hook Input Unit :=
  modify fun state => { state with weighted := some wsmeta }

/-- `WeightedScheduler::create_alias_table`. -/
def createAliasTable (compute : Score Input) : Hook Input Unit := do
  let state ← get
  let (weights, sum) ← weigh compute state.corpus.ids (fun _ => 0) 0
  let tables := makeTables state.corpus.ids weights sum
  let wsmeta ← getMetadata
  setMetadata
    { wsmeta with
      aliasProbability := tables.aliasProbability
      aliasTable := tables.aliasTable }

/-- `WeightedScheduler::new`, as far as it changes the state. -/
def new (state : State Input) : State Input :=
  { state with
    schedulerMetadata := some (state.schedulerMetadata.getD .new)
    weighted := some (state.weighted.getD .new) }

/-- `WeightedScheduler::on_add`. -/
def onAdd
    (compute : Score Input)
    (lastHash : Nat)
    (idx : CorpusId) : Hook Input Unit := do
  attachSchedulerMeta lastHash idx
  createAliasTable compute

/-- `WeightedScheduler::on_replace`. -/
def onReplace
    (compute : Score Input)
    (lastHash : Nat)
    (idx : CorpusId) : Hook Input Unit :=
  onAdd compute lastHash idx

/-- `WeightedScheduler::on_remove`. -/
def onRemove (compute : Score Input) : Hook Input Unit :=
  createAliasTable compute

/-- The number in `0.000000000..=1.000000000` that a draw stands for. -/
def probabilityOf (drawn : Nat) : Float :=
  (UInt64.ofNat drawn).toFloat / 1000000000.0

/-- Count a run in the current cycle. -/
def runsAfter (currentCycles corpusCounts : Nat) : Nat :=
  if corpusCounts ≤ currentCycles then 0 else currentCycles + 1

/-- The entry that was picked, or its alias. -/
def choose
    (wsmeta : WeightedScheduleMetadata)
    (s : CorpusId)
    (drawn : Nat) : Option CorpusId :=
  match wsmeta.aliasProbability s with
  | some probability =>
      if probabilityOf drawn < probability then some s else wsmeta.aliasTable s
  | none => none

/-- A cycle of the queue is over when the corpus has become smaller. -/
def updateDepth (currentCycles corpusCounts : Nat) : Hook Input Unit :=
  if corpusCounts < currentCycles then do
    let psmeta ← getSchedulerMetadata
    setSchedulerMetadata { psmeta with queueCycles := psmeta.queueCycles + 1 }
  else pure ()

/--
`WeightedScheduler::next`, with the values that `random_corpus_id` and
`between(0, 1000000000)` draw.
-/
def next (nth drawn : Nat) : Hook Input CorpusId := do
  let state ← get
  let corpusCounts := state.corpus.count
  if corpusCounts = 0 then throw (.empty "No entries in corpus")
  else
    let s ← orPanic (state.corpus.nth nth)
    let wsmeta ← getMetadata
    let currentCycles := wsmeta.runsInCurrentCycle
    setMetadata
      { wsmeta with runsInCurrentCycle := runsAfter currentCycles corpusCounts }
    let idx ← orPanic (choose wsmeta s drawn)
    updateDepth currentCycles corpusCounts
    setCurrent (some idx)
    updateHandicap idx
    pure idx

theorem hasValue_one : Binary64.HasValue 1.0 1 := by
  have same : (1.0 : Float) = (1 : UInt64).toFloat := by decide +kernel
  have value := Binary64.hasValue_toFloat 1 (by decide)
  rw [← same] at value
  exact_mod_cast value

theorem hasValue_billion : Binary64.HasValue 1000000000.0 1000000000 := by
  have same : (1000000000.0 : Float) = (1000000000 : UInt64).toFloat := by
    decide +kernel
  have value := Binary64.hasValue_toFloat 1000000000 (by decide)
  rw [← same] at value
  exact_mod_cast value

theorem probabilityOf_lt_one
    {drawn : Nat}
    (notAbove : drawn ≤ 1000000000) :
    probabilityOf drawn < 1.0 ↔ drawn < 1000000000 := by
  rcases notAbove.lt_or_eq with below | rfl
  · refine iff_of_true ?_ below
    have same : (UInt64.ofNat drawn).toNat = drawn := by
      rw [UInt64.toNat_ofNat']
      exact Nat.mod_eq_of_lt (by omega)
    have hasDrawn : Binary64.HasValue (UInt64.ofNat drawn).toFloat drawn := by
      have value :=
        Binary64.hasValue_toFloat (UInt64.ofNat drawn) (by rw [same]; omega)
      rwa [same] at value
    have isBelow : (drawn : ℚ) / 1000000000 ≤ 1 - 1 / 1000000000 := by
      have whole : (drawn : ℚ) + 1 ≤ 1000000000 := by exact_mod_cast below
      rw [div_le_iff₀ (by norm_num)]
      linarith
    obtain ⟨value, hasQuotient, error⟩ :=
      hasDrawn.div hasValue_billion (by norm_num)
        ((isBelow.trans (by norm_num)).trans_lt
          (one_lt_pow₀ one_lt_two (by norm_num)))
    rw [probabilityOf, hasQuotient.lt_iff hasValue_one]
    have small :
        max ((drawn : ℚ) / 1000000000 / 2 ^ 52) (2 ^ (-1074 : Int)) ≤
          1 / 2 ^ 52 := by
      refine max_le ?_ ?_
      · exact div_le_div_of_nonneg_right (isBelow.trans (by norm_num))
          (by positivity)
      · rw [one_div, ← zpow_natCast, ← zpow_neg]
        exact zpow_le_zpow_right₀ one_le_two (by norm_num)
    have upper := (abs_le.mp (error.trans small)).2
    have gap : (1 : ℚ) / 2 ^ 52 < 1 / 1000000000 := by norm_num
    linarith
  · decide +kernel

/--
While the queues are paired, what is in neither of them has an alias, and what
is in one of them has none yet.
-/
structure Pairing
    (ids s l : List CorpusId)
    (tables : AliasTables) : Prop where
  nodup : (s ++ l).Nodup
  subset : ∀ id ∈ s ++ l, id ∈ ids
  waiting : ∀ id ∈ s ++ l, tables.aliasTable id = none
  paired :
    ∀ id ∈ ids, id ∉ s ++ l →
      ∃ probability g,
        tables.aliasProbability id = some probability ∧
          tables.aliasTable id = some g ∧ g ∈ ids

theorem Pairing.perm
    {ids s l s' l' : List CorpusId}
    {tables : AliasTables}
    (pairing : Pairing ids s l tables)
    (same : (s' ++ l').Perm (s ++ l)) :
    Pairing ids s' l' tables where
  nodup := same.nodup_iff.mpr pairing.nodup
  subset := fun id isIn => pairing.subset id (same.mem_iff.mp isIn)
  waiting := fun id isIn => pairing.waiting id (same.mem_iff.mp isIn)
  paired := fun id isId notIn =>
    pairing.paired id isId (mt same.mem_iff.mpr notIn)

theorem Pairing.pair
    {ids s l : List CorpusId}
    {tables : AliasTables}
    {a g : CorpusId}
    (pairing : Pairing ids (a :: s) (g :: l) tables)
    (probability : Float) :
    Pairing ids s (g :: l) (tables.withAlias a probability g) := by
  obtain ⟨nodup, subset, waiting, paired⟩ := pairing
  rw [List.cons_append, List.nodup_cons] at nodup
  obtain ⟨notLater, nodup⟩ := nodup
  refine ⟨nodup, fun id isIn => subset id (List.mem_cons_of_mem _ isIn), ?_, ?_⟩
  · intro id isIn
    have different : id ≠ a := by
      rintro rfl
      exact notLater isIn
    exact (Function.update_of_ne different _ _).trans
      (waiting id (List.mem_cons_of_mem _ isIn))
  · intro id isId notIn
    unfold AliasTables.withAlias
    by_cases same : id = a
    · subst same
      exact ⟨probability, g, Function.update_self _ _ _,
        Function.update_self _ _ _, subset g (by simp)⟩
    · dsimp only
      rw [Function.update_of_ne same, Function.update_of_ne same]
      exact paired id isId fun isIn =>
        notIn ((List.mem_cons.mp isIn).resolve_left same)

theorem pairing_pairQueues
    {ids : List CorpusId}
    (fuel : Nat)
    (p : CorpusId → Float)
    (s l : List CorpusId)
    (tables : AliasTables)
    (pairing : Pairing ids s l tables) :
    Pairing ids (pairQueues fuel p s l tables).1
      (pairQueues fuel p s l tables).2.1
      (pairQueues fuel p s l tables).2.2 := by
  fun_induction pairQueues fuel p s l tables with
  | case1 fuel p a s g l tables next updated isSmall ih =>
      exact ih
        ((pairing.pair (p a)).perm List.perm_middle.symm)
  | case2 fuel p a s g l tables next updated notSmall ih =>
      exact ih (pairing.pair (p a))
  | case3 =>
      exact pairing

theorem foldl_withoutAlias
    (left : List CorpusId)
    (tables : AliasTables) :
    (left.foldl AliasTables.withoutAlias tables).aliasTable =
        tables.aliasTable ∧
      ∀ id,
        (left.foldl AliasTables.withoutAlias tables).aliasProbability id =
          if id ∈ left then some 1.0 else tables.aliasProbability id := by
  induction left generalizing tables with
  | nil =>
      exact ⟨rfl, fun _ => rfl⟩
  | cons first left ih =>
      obtain ⟨sameAlias, probabilities⟩ :=
        ih (tables.withoutAlias first)
      refine ⟨sameAlias, fun id => ?_⟩
      rw [List.foldl_cons, probabilities]
      by_cases isLater : id ∈ left
      · simp [isLater]
      · by_cases same : id = first
        · simp [same, AliasTables.withoutAlias]
        · simp [isLater, same, AliasTables.withoutAlias]

/-- Every entry has a probability, and an alias unless it is one. -/
def Complete
    (ids : List CorpusId)
    (tables : AliasTables) : Prop :=
  ∀ id ∈ ids,
    (∃ probability g,
        tables.aliasProbability id = some probability ∧
          tables.aliasTable id = some g ∧ g ∈ ids) ∨
      tables.aliasProbability id = some 1.0 ∧ tables.aliasTable id = none

theorem complete_makeTables
    {ids : List CorpusId}
    (nodup : ids.Nodup)
    (weights : CorpusId → Float)
    (sum : Float) :
    Complete ids (makeTables ids weights sum) := by
  unfold makeTables
  dsimp only
  generalize scaled ids weights sum = p
  generalize isS : ids.filter (fun id => decide (p id < 1.0)) = s
  generalize isL : ids.filter (fun id => decide ¬p id < 1.0) = l
  have parts : (s ++ l).Perm ids := by
    rw [← isS, ← isL]
    simpa using List.filter_append_perm (fun id => decide (p id < 1.0)) ids
  have start : Pairing ids s l .empty :=
    { nodup := parts.nodup_iff.mpr nodup
      subset := fun id isIn => parts.mem_iff.mp isIn
      waiting := fun _ _ => rfl
      paired := fun id isId notIn => absurd (parts.mem_iff.mpr isId) notIn }
  have pairing := pairing_pairQueues (s.length + l.length) p s l .empty start
  generalize pairQueues (s.length + l.length) p s l .empty = result at pairing ⊢
  obtain ⟨s, l, tables⟩ := result
  obtain ⟨sameAlias, probabilities⟩ := foldl_withoutAlias (l ++ s) tables
  intro id isId
  rw [sameAlias, probabilities]
  by_cases isLeft : id ∈ s ++ l
  · right
    have isLeftToo : id ∈ l ++ s := List.perm_append_comm.mem_iff.mp isLeft
    exact ⟨if_pos isLeftToo, pairing.waiting id isLeft⟩
  · left
    obtain ⟨probability, g, isProbability, isAlias, isOther⟩ :=
      pairing.paired id isId isLeft
    have notLeft : id ∉ l ++ s := mt List.perm_append_comm.mem_iff.mp isLeft
    exact ⟨probability, g, (if_neg notLeft).trans isProbability, isAlias,
      isOther⟩

section

variable {state : State Input}
variable {compute : Score Input}
variable {wsmeta : WeightedScheduleMetadata}

theorem outcome_getMetadata
    (isThere : state.weighted = some wsmeta) :
    (getMetadata : Hook Input _).outcome state = (.ok wsmeta, state) := by
  unfold getMetadata
  rw [outcome_bind_ok outcome_get]
  exact outcome_orKeyNotFound isThere

@[simp] theorem outcome_setMetadata :
    (setMetadata wsmeta : Hook Input _).outcome state =
      (.ok (), { state with weighted := some wsmeta }) :=
  rfl

/-- The score of an entry fails. -/
def ScoreFails
    (compute : Score Input)
    (state : State Input)
    (error : Error) : Prop :=
  ∃ id testcase,
    state.corpus.find id = some testcase ∧
      compute testcase state = .error error

theorem outcome_weigh
    (ids : List CorpusId)
    (live : ∀ id ∈ ids, id ∈ state.corpus.ids)
    (weights : CorpusId → Float)
    (sum : Float) :
    (∃ weighed,
        (weigh compute ids weights sum).outcome state = (.ok weighed, state)) ∨
      ∃ error,
        ScoreFails compute state error ∧
          (weigh compute ids weights sum).outcome state =
            (.error error, state) := by
  induction ids generalizing weights sum with
  | nil =>
      exact .inl ⟨(weights, sum), rfl⟩
  | cons id rest ih =>
      obtain ⟨testcase, found⟩ :=
        InMemoryCorpus.mem_ids.mp (live id List.mem_cons_self)
      have later := fun other isOther =>
        live other (List.mem_cons_of_mem _ isOther)
      unfold weigh
      rw [outcome_bind_ok (outcome_getTestcase_ok found),
        outcome_bind_ok outcome_get]
      cases computes : compute testcase state with
      | ok weight =>
          rw [outcome_bind_ok (outcome_lift _)]
          exact ih later _ _
      | error error =>
          exact .inr
            ⟨error, ⟨id, testcase, found, computes⟩, outcome_bind_error rfl⟩

/-- The metadata with other tables. -/
def withTables
    (wsmeta : WeightedScheduleMetadata)
    (tables : AliasTables) : WeightedScheduleMetadata :=
  { wsmeta with
    aliasProbability := tables.aliasProbability
    aliasTable := tables.aliasTable }

theorem outcome_createAliasTable
    (isThere : state.weighted = some wsmeta) :
    (∃ tables,
        Complete state.corpus.ids tables ∧
          (createAliasTable compute).outcome state =
            (.ok (),
              { state with weighted := some (withTables wsmeta tables) })) ∨
      ∃ error,
        ScoreFails compute state error ∧
          (createAliasTable compute).outcome state = (.error error, state) := by
  unfold createAliasTable
  rw [outcome_bind_ok outcome_get]
  rcases
      @outcome_weigh _ state compute state.corpus.ids (fun _ isLive => isLive)
        (fun _ => 0) 0 with
    ⟨⟨weights, sum⟩, weighs⟩ | ⟨error, scoreFails, fails⟩
  · have nodup := (InMemoryCorpus.sorted_ids state.corpus).imp ne_of_lt
    refine .inl
      ⟨_, complete_makeTables nodup weights sum,
        (outcome_bind_ok weighs).trans ?_⟩
    dsimp only
    rw [outcome_bind_ok (outcome_getMetadata isThere)]
    rfl
  · exact .inr ⟨error, scoreFails, outcome_bind_error fails⟩

theorem outcome_updateDepth
    {psmeta : SchedulerMetadata}
    (isThere : state.schedulerMetadata = some psmeta)
    (currentCycles corpusCounts : Nat) :
    ∃ psmeta,
      (updateDepth currentCycles corpusCounts : Hook Input _).outcome state =
        (.ok (), { state with schedulerMetadata := some psmeta }) := by
  unfold updateDepth
  split
  · refine ⟨{ psmeta with queueCycles := psmeta.queueCycles + 1 }, ?_⟩
    rw [outcome_bind_ok (outcome_getSchedulerMetadata isThere)]
    rfl
  · refine ⟨psmeta, ?_⟩
    rw [← isThere]
    rfl

/-- The state after an entry got its metadata. -/
def attached
    (state : State Input)
    (idx : CorpusId)
    (data : SchedulerTestcaseMetaData) : State Input :=
  { state with
    corpus :=
      state.corpus.modify idx fun testcase =>
        { testcase with schedulerMeta := some data } }

theorem outcome_onAdd
    {idx : CorpusId}
    (isThere : state.weighted = some wsmeta)
    (isLive : idx ∈ state.corpus.ids)
    (lastHash : Nat) :
    (∃ data tables,
        Complete state.corpus.ids tables ∧
          (onAdd compute lastHash idx).outcome state =
            (.ok (),
              { attached state idx data with
                weighted := some (withTables wsmeta tables) })) ∨
      (∃ message,
        (attachSchedulerMeta lastHash idx : Hook Input _).outcome state =
            (.error (.keyNotFound message), state) ∧
          (onAdd compute lastHash idx).outcome state =
            (.error (.keyNotFound message), state)) ∨
      ∃ data error,
        ScoreFails compute (attached state idx data) error ∧
          (onAdd compute lastHash idx).outcome state =
            (.error error, attached state idx data) := by
  unfold onAdd
  rcases outcome_attachSchedulerMeta isLive lastHash with
    ⟨depth, attaches⟩ | ⟨message, fails⟩
  · let data := SchedulerTestcaseMetaData.withNFuzzEntry (depth + 1) lastHash
    have sameIds : (attached state idx data).corpus.ids = state.corpus.ids :=
      InMemoryCorpus.ids_modify
    rcases @outcome_createAliasTable _ (attached state idx data) compute _ isThere
      with ⟨tables, complete, makes⟩ | ⟨error, scoreFails, fails⟩
    · rw [sameIds] at complete
      exact .inl ⟨data, tables, complete, (outcome_bind_ok attaches).trans makes⟩
    · exact .inr (.inr
        ⟨data, error, scoreFails, (outcome_bind_ok attaches).trans fails⟩)
  · exact .inr (.inl ⟨message, fails, outcome_bind_error fails⟩)

/-- The state with its tables, and entries that have their metadata. -/
structure Ready (state : State Input) : Prop where
  psmeta : state.schedulerMetadata.isSome = true
  tables :
    ∃ wsmeta,
      state.weighted = some wsmeta ∧
        Complete state.corpus.ids ⟨wsmeta.aliasTable, wsmeta.aliasProbability⟩
  entries :
    ∀ id ∈ state.corpus.ids,
      ∃ testcase,
        state.corpus.find id = some testcase ∧
          testcase.schedulerMeta.isSome = true

theorem choose_cases
    {s : CorpusId}
    {drawn : Nat}
    (complete :
      Complete state.corpus.ids ⟨wsmeta.aliasTable, wsmeta.aliasProbability⟩)
    (isLive : s ∈ state.corpus.ids)
    (notAbove : drawn ≤ 1000000000) :
    (drawn = 1000000000 ∧ wsmeta.aliasTable s = none) ∧
        choose wsmeta s drawn = none ∨
      ¬(drawn = 1000000000 ∧ wsmeta.aliasTable s = none) ∧
        ∃ idx ∈ state.corpus.ids, choose wsmeta s drawn = some idx := by
  unfold choose
  rcases complete s isLive with
    ⟨probability, g, isProbability, isAlias, isOther⟩ | ⟨isOne, noAlias⟩
  · dsimp only at isProbability isAlias
    rw [isProbability, isAlias]
    refine .inr ⟨by simp, ?_⟩
    by_cases isSmall : probabilityOf drawn < probability
    · exact ⟨s, isLive, if_pos isSmall⟩
    · exact ⟨g, isOther, if_neg isSmall⟩
  · dsimp only at isOne noAlias
    rw [isOne, noAlias]
    dsimp only
    by_cases isEnd : drawn = 1000000000
    · refine .inl ⟨⟨isEnd, rfl⟩, if_neg ?_⟩
      rw [probabilityOf_lt_one notAbove]
      omega
    · refine .inr ⟨fun both => isEnd both.1, s, isLive, if_pos ?_⟩
      rw [probabilityOf_lt_one notAbove]
      omega

theorem outcome_next
    {nth drawn : Nat}
    {s idx : CorpusId}
    (ready : Ready state)
    (isThere : state.weighted = some wsmeta)
    (picks : state.corpus.nth nth = some s)
    (chooses : choose wsmeta s drawn = some idx)
    (isLive : idx ∈ state.corpus.ids) :
    ∃ psmeta data,
      (next nth drawn).outcome state =
        (.ok idx,
          { state with
            corpus :=
              (state.corpus.setCurrent (some idx)).modify idx fun testcase =>
                { testcase with schedulerMeta := some data }
            schedulerMetadata := some psmeta
            weighted :=
              some
                { wsmeta with
                  runsInCurrentCycle :=
                    runsAfter wsmeta.runsInCurrentCycle state.corpus.count } }) := by
  have notEmpty : state.corpus.count ≠ 0 := by
    rw [Ne, InMemoryCorpus.count_eq_zero]
    intro isEmpty
    rw [isEmpty] at isLive
    cases isLive
  obtain ⟨psmeta, isPsmeta⟩ := Option.isSome_iff_exists.mp ready.psmeta
  obtain ⟨testcase, found, hasData⟩ := ready.entries idx isLive
  obtain ⟨data, isData⟩ := Option.isSome_iff_exists.mp hasData
  let counted : State Input :=
    { state with
      weighted :=
        some
          { wsmeta with
            runsInCurrentCycle :=
              runsAfter wsmeta.runsInCurrentCycle state.corpus.count } }
  obtain ⟨psmetaAfter, updates⟩ :=
    @outcome_updateDepth _ counted _ isPsmeta wsmeta.runsInCurrentCycle
      state.corpus.count
  let scheduled : State Input :=
    { counted with
      corpus := state.corpus.setCurrent (some idx)
      schedulerMetadata := some psmetaAfter }
  refine
    ⟨psmetaAfter,
      { data with
        handicap :=
          if 4 ≤ data.handicap then data.handicap - 4
          else data.handicap - 1 },
      ?_⟩
  unfold next
  rw [outcome_bind_ok outcome_get, if_neg notEmpty,
    outcome_bind_ok (outcome_orPanic picks),
    outcome_bind_ok (outcome_getMetadata isThere),
    outcome_bind_ok outcome_setMetadata,
    outcome_bind_ok (outcome_orPanic chooses), outcome_bind_ok updates,
    outcome_bind_ok outcome_setCurrent,
    outcome_bind_ok
      (@outcome_updateHandicap _ scheduled _ _ _ found isData)]
  rfl

/-- Where nothing can be chosen, `next` panics. -/
theorem outcome_next_panics
    {nth drawn : Nat}
    {s : CorpusId}
    (isThere : state.weighted = some wsmeta)
    (picks : state.corpus.nth nth = some s)
    (chooses : choose wsmeta s drawn = none) :
    ∃ after, (next nth drawn).outcome state = (.error .panicked, after) := by
  have notEmpty : state.corpus.count ≠ 0 := by
    rw [Ne, InMemoryCorpus.count_eq_zero]
    intro isEmpty
    rw [InMemoryCorpus.nth_eq, isEmpty] at picks
    cases picks
  refine
    ⟨{ state with
        weighted :=
          some
            { wsmeta with
              runsInCurrentCycle :=
                runsAfter wsmeta.runsInCurrentCycle state.corpus.count } },
      ?_⟩
  unfold next
  rw [outcome_bind_ok outcome_get, if_neg notEmpty,
    outcome_bind_ok (outcome_orPanic picks),
    outcome_bind_ok (outcome_getMetadata isThere),
    outcome_bind_ok outcome_setMetadata]
  exact outcome_bind_error (outcome_orPanic_none chooses)

theorem mem_of_choose
    {s idx : CorpusId}
    {drawn : Nat}
    (complete :
      Complete state.corpus.ids ⟨wsmeta.aliasTable, wsmeta.aliasProbability⟩)
    (isLive : s ∈ state.corpus.ids)
    (chooses : choose wsmeta s drawn = some idx) :
    idx ∈ state.corpus.ids := by
  unfold choose at chooses
  rcases complete s isLive with
    ⟨probability, g, isProbability, isAlias, isOther⟩ | ⟨isOne, noAlias⟩
  · dsimp only at isProbability isAlias
    rw [isProbability, isAlias] at chooses
    dsimp only at chooses
    split at chooses
    · cases chooses
      exact isLive
    · cases chooses
      exact isOther
  · dsimp only at isOne noAlias
    rw [isOne, noAlias] at chooses
    dsimp only at chooses
    split at chooses
    · cases chooses
      exact isLive
    · cases chooses

theorem outcome_next_cases
    (ready : Ready state)
    (nth drawn : Nat) :
    (∃ idx after,
        (next nth drawn).outcome state = (.ok idx, after) ∧ Ready after ∧
          after.corpus.current = some idx ∧ idx ∈ after.corpus.ids) ∨
      ∃ error after,
        (next nth drawn).outcome state = (.error error, after) ∧
          ∀ message, error ≠ .keyNotFound message := by
  obtain ⟨wsmeta, isThere, complete⟩ := ready.tables
  by_cases isEmpty : state.corpus.count = 0
  · right
    refine ⟨.empty "No entries in corpus", state, ?_, by simp⟩
    unfold next
    rw [outcome_bind_ok outcome_get, if_pos isEmpty]
    rfl
  cases picks : state.corpus.nth nth with
  | none =>
      right
      refine ⟨.panicked, state, ?_, by simp⟩
      unfold next
      rw [outcome_bind_ok outcome_get, if_neg isEmpty]
      exact outcome_bind_error (outcome_orPanic_none picks)
  | some s =>
      have isPicked : s ∈ state.corpus.ids := by
        rw [InMemoryCorpus.nth_eq] at picks
        exact List.mem_of_getElem? picks
      cases chooses : choose wsmeta s drawn with
      | none =>
          obtain ⟨after, panics⟩ := outcome_next_panics isThere picks chooses
          exact .inr ⟨.panicked, after, panics, by simp⟩
      | some idx =>
          left
          have isLive := mem_of_choose complete isPicked chooses
          obtain ⟨psmeta, data, ends⟩ :=
            outcome_next ready isThere picks chooses isLive
          refine ⟨idx, _, ends, ⟨rfl, ⟨_, rfl, ?_⟩, ?_⟩, rfl, ?_⟩
          · dsimp only
            rw [InMemoryCorpus.ids_modify]
            exact complete
          · intro id isId
            dsimp only at isId ⊢
            rw [InMemoryCorpus.ids_modify] at isId
            obtain ⟨testcase, found, hasMeta⟩ := ready.entries id isId
            have isFound :
                (state.corpus.setCurrent (some idx)).find id = some testcase :=
              found
            rw [InMemoryCorpus.find_modify, isFound]
            split
            · exact ⟨_, rfl, rfl⟩
            · exact ⟨testcase, rfl, hasMeta⟩
          · dsimp only
            rw [InMemoryCorpus.ids_modify]
            exact isLive

end

end WeightedScheduler

end MeFuzz.Scheduler
