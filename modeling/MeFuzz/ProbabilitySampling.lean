import MeFuzz.Binary64Sums
import MeFuzz.MinimizerScheduler

namespace MeFuzz.Scheduler.ProbabilitySamplingScheduler

open Binary64
open Corpus (CorpusId Error InMemoryCorpus)
open Procedure

/-!
# The probability sampling scheduler

The scheduler stores for each entry the inverse of its score, and their sum.  To select
an entry it adds the stored numbers up until they reach a random part of the sum.  It
is not told of entries that are replaced or removed: these hooks are the default ones.
-/

variable {Input : Type}

/-- `store_probability`. -/
def storeProbability
    (score : Penalty Input Float)
    (idx : CorpusId) : Hook Input Unit := do
  let testcase ← getTestcase idx
  let factor ← computePenalty score testcase
  if factor == 0.0 then
    throw
      (.illegalState
        "Infinity probability calculated for probabilistic sampling scheduler")
  else do
    let data ← orPanic (← get).probability
    let prob := 1.0 / factor
    modify fun state =>
      { state with
        probability :=
          some
            { map := data.map.insert idx prob
              totalProbability := data.totalProbability + prob } }

/-- What is stored; at first nothing is. -/
def stored (state : State Input) : ProbabilityMetadata :=
  state.probability.getD .new

/-- `on_add`. -/
def onAdd
    (score : Penalty Input Float)
    (idx : CorpusId) : Hook Input Unit := do
  modify fun state => { state with probability := some (stored state) }
  storeProbability score idx

/-- The entry at which a sum reaches the threshold, if it does. -/
def sample (threshold : Float) :
    List (CorpusId × Float) → Float → Option CorpusId
  | [], _ => none
  | (idx, prob) :: rest, k =>
      if threshold ≤ k + prob then some idx else sample threshold rest (k + prob)

/-- What a call takes from elsewhere: the order of the hash map, and a draw. -/
structure Draw where
  order : List (CorpusId × Float) → List (CorpusId × Float)
  perm : ∀ entries, (order entries).Perm entries
  below : Fin 100

/-- The part of the sum that a draw below 100 stands for. -/
def randProb (drawn : Fin 100) : Float :=
  (UInt64.ofNat drawn).toFloat / 100.0

/-- The loop of `next` over what is stored. -/
def sampled
    (data : ProbabilityMetadata)
    (draw : Draw) : Option CorpusId :=
  sample (data.totalProbability * randProb draw.below)
    (draw.order data.map.entries) 0.0

/-- `next`, which takes the last entry where no sum reaches the threshold. -/
def next (draw : Draw) : Hook Input CorpusId := do
  if (← get).corpus.count = 0 then throw (.empty "No entries in corpus")
  else do
    let data ← orPanic (← get).probability
    let last ← orPanic ((draw.order data.map.entries).map Prod.fst).getLast?
    let ret := (sampled data draw).getD last
    setCurrent (some ret)
    pure ret

/-- The scheduler is only told of entries that are added. -/
def scheduler (score : Penalty Input Float) : Hooks Input Draw where
  onAdd _ idx := onAdd score idx
  next := next

/-- The stored numbers, in the order of the entries. -/
def probabilities (data : ProbabilityMetadata) : List Float :=
  data.map.entries.map Prod.snd

/-- The stored numbers are those of the live entries, and they are summed up. -/
structure Tracks (state : State Input) : Prop where
  keys : (stored state).map.keys = state.corpus.ids
  total :
    (stored state).totalProbability =
      (probabilities (stored state)).foldl (· + ·) 0.0

/-- A live entry is selected, at which the sum reaches the threshold. -/
def Selects (state : State Input) : Prop :=
  state.corpus.ids ≠ [] →
    ∀ draw,
      ∃ id ∈ state.corpus.ids,
        sampled (stored state) draw = some id ∧
          (next draw).outcome state =
            (.ok id, { state with corpus := state.corpus.setCurrent (some id) })

/-- What is done elsewhere leaves the entries and what is stored. -/
structure SameEntries (state after : State Input) : Prop where
  ids : after.corpus.ids = state.corpus.ids
  nextId : after.corpus.nextId = state.corpus.nextId
  probability : after.probability = state.probability

/-- Each call is a step, whether it returns or fails. -/
inductive Step
    (score : Penalty Input Float) :
    StepRelation (State Input) (Hooks.Event Input Draw) where
  | call
      {state after : State Input}
      {event : Hooks.Event Input Draw}
      {result : Except Error Unit} :
      ((scheduler score).perform event).outcome state = (result, after) →
      Step score state event after
  | elsewhere
      {state after : State Input} :
      SameEntries state after →
      Step score state .elsewhere after

/-- A score with an inverse: a number that is not too small, or an infinite one. -/
def Invertible (factor : Float) : Prop :=
  (∃ value, HasValue factor value ∧ 2 ^ (-1023 : Int) < value) ∨
    ∃ sign, factor.toModel.unpack = .infinity sign

/-- The state in which a new entry is scored. -/
def withNew
    (state : State Input)
    (testcase : Testcase Input) : State Input :=
  { state with
    corpus := (state.corpus.add testcase).2
    probability := some (stored state) }

/--
A new entry is scored, its score has an inverse, and the inverses are few and do not add
up to too much.
-/
structure Scored
    (score : Penalty Input Float)
    (state : State Input)
    (testcase : Testcase Input)
    (factor : Float) : Prop where
  answer : score testcase (withNew state testcase) = .ok factor
  invertible : Invertible factor
  few : state.corpus.count < 2 ^ 40
  small :
    ∃ values,
      HaveValues (probabilities (stored state) ++ [1.0 / factor]) values ∧
        values.sum < 2 ^ 1022

/-- What the scheduler needs of a call: new entries have scores, and none is removed. -/
def Told
    (score : Penalty Input Float)
    (state : State Input) :
    Hooks.Event Input Draw → Prop
  | .add _ testcase => ∃ factor, Scored score state testcase factor
  | .remove _ idx => idx ∉ state.corpus.ids
  | _ => True

section

open Procedure

variable {score : Penalty Input Float}
variable {state after : State Input}
variable {testcase : Testcase Input}
variable {factor : Float}

theorem Invertible.inverse
    (invertible : Invertible factor) :
    ∃ value, HasValue (1.0 / factor) value ∧ (value = 0 ∨ leastInverse ≤ value) := by
  rcases invertible with ⟨value, hasValue, above⟩ | ⟨sign, isInfinite⟩
  · obtain ⟨inverse, hasInverse, notLess⟩ := hasValue.inverse above
    exact ⟨inverse, hasInverse, .inr notLess⟩
  · exact ⟨0, hasValue_inverse_of_infinite isInfinite, .inl rfl⟩

theorem Invertible.not_zero
    (invertible : Invertible factor) :
    (factor == 0.0) = false := by
  rw [Bool.eq_false_iff]
  rcases invertible with ⟨value, hasValue, above⟩ | ⟨sign, isInfinite⟩
  · rw [ne_eq, hasValue.beq_iff hasValue_zero]
    have : (0 : ℚ) < 2 ^ (-1023 : Int) := zpow_pos two_pos _
    exact (this.trans above).ne'
  · have isZero : (0.0 : Float).toModel.unpack = .zero .positive := by rfl
    change
      ¬Float.Model.UnpackedFloat.beq factor.toModel.unpack
          (0.0 : Float).toModel.unpack =
        true
    rw [isInfinite, isZero]
    cases sign <;> decide

/-- What a new entry with a score leaves. -/
def withScored
    (state : State Input)
    (testcase : Testcase Input)
    (factor : Float) : State Input :=
  { withNew state testcase with
    probability :=
      some
        { map := (stored state).map.insert state.corpus.nextId (1.0 / factor)
          totalProbability := (stored state).totalProbability + 1.0 / factor } }

theorem outcome_add
    {draw : Draw}
    (answer : score testcase (withNew state testcase) = .ok factor)
    (notZero : (factor == 0.0) = false) :
    ((scheduler score).perform (.add draw testcase)).outcome state =
      (.ok (), withScored state testcase factor) := by
  rw [Hooks.outcome_add]
  change (onAdd score state.corpus.nextId).outcome _ = _
  have isFound :
      (withNew state testcase).corpus.find state.corpus.nextId = some testcase := by
    rw [withNew, InMemoryCorpus.find_add, if_pos rfl]
  rw [onAdd, outcome_bind_ok (outcome_modify _), storeProbability]
  change outcome _ (withNew state testcase) = _
  rw [outcome_bind_ok (outcome_getTestcase_ok isFound)]
  have computed :
      (computePenalty score testcase).outcome (withNew state testcase) =
        (.ok factor, withNew state testcase) := by
    rw [computePenalty, outcome_bind_ok outcome_get, outcome_lift, answer]
  rw [outcome_bind_ok computed, notZero]
  rfl

/-- The scheduler tracks the corpus, and its sums do not grow too large. -/
structure Known (state : State Input) : Prop where
  tracks : Tracks state
  isThere : state.corpus.ids ≠ [] → ∃ data, state.probability = some data
  few : state.corpus.count ≤ 2 ^ 40
  small :
    ∃ values,
      HaveValues (probabilities (stored state)) values ∧
        values.sum < 2 ^ 1022 ∧
          ∀ value ∈ values, value = 0 ∨ leastInverse ≤ value

theorem Known.of_same
    (known : Known state)
    (ids : after.corpus.ids = state.corpus.ids)
    (probability : after.probability = state.probability) :
    Known after := by
  have sameStored : stored after = stored state := by
    rw [stored, stored, probability]
  refine ⟨⟨?_, ?_⟩, ?_, ?_, ?_⟩
  · rw [sameStored, ids]
    exact known.tracks.keys
  · rw [sameStored]
    exact known.tracks.total
  · rw [ids, probability]
    exact known.isThere
  · rw [InMemoryCorpus.count_eq, ids, ← InMemoryCorpus.count_eq]
    exact known.few
  · rw [sameStored]
    exact known.small

theorem Known.length_probabilities
    (known : Known state) :
    (probabilities (stored state)).length = state.corpus.count := by
  rw [InMemoryCorpus.count_eq, ← known.tracks.keys]
  simp [probabilities, OrderedMap.keys]

theorem probabilities_withScored
    (tracks : Tracks state) :
    probabilities (stored (withScored state testcase factor)) =
      probabilities (stored state) ++ [1.0 / factor] := by
  have above : ∀ key ∈ (stored state).map.keys, key < state.corpus.nextId := by
    rw [tracks.keys]
    exact fun _ => InMemoryCorpus.lt_nextId
  change
    ((stored state).map.insert state.corpus.nextId (1.0 / factor)).entries.map Prod.snd = _
  rw [OrderedMap.entries_insert_of_above above, List.map_append]
  rfl

theorem Tracks.withScored
    (tracks : Tracks state) :
    Tracks (withScored state testcase factor) := by
  have above : ∀ key ∈ (stored state).map.keys, key < state.corpus.nextId := by
    rw [tracks.keys]
    exact fun _ => InMemoryCorpus.lt_nextId
  constructor
  · change
      ((stored state).map.insert state.corpus.nextId (1.0 / factor)).keys =
        (state.corpus.add testcase).2.ids
    rw [OrderedMap.keys_insert_of_above above, tracks.keys, InMemoryCorpus.ids_add]
  · rw [probabilities_withScored tracks, List.foldl_append, ← tracks.total]
    rfl

theorem Known.withScored
    (known : Known state)
    (scored : Scored score state testcase factor) :
    Known (withScored state testcase factor) := by
  refine ⟨known.tracks.withScored, fun _ => ⟨_, rfl⟩, ?_, ?_⟩
  · change (state.corpus.add testcase).2.count ≤ 2 ^ 40
    rw [InMemoryCorpus.count_eq, InMemoryCorpus.ids_add, List.length_append,
      ← InMemoryCorpus.count_eq]
    exact scored.few
  · rw [probabilities_withScored known.tracks]
    obtain ⟨values, haveValues, below⟩ := scored.small
    refine ⟨values, haveValues, below, ?_⟩
    obtain ⟨others, haveOthers, _, inverses⟩ := known.small
    obtain ⟨inverse, hasInverse, isInverse⟩ := scored.invertible.inverse
    have sameValues : values = others ++ [inverse] := by
      have haveBoth : HaveValues (probabilities (stored state) ++ [1.0 / factor])
          (others ++ [inverse]) :=
        List.rel_append haveOthers (.cons hasInverse .nil)
      exact haveValues.unique haveBoth
    intro value isValue
    rw [sameValues] at isValue
    rcases List.mem_append.mp isValue with isOther | isLast
    · exact inverses value isOther
    · rw [List.mem_singleton.mp isLast]
      exact isInverse

theorem exists_sample
    {threshold : Float}
    {entries : List (CorpusId × Float)}
    {start : Float}
    (notEmpty : entries ≠ [])
    (reached : threshold ≤ (entries.map Prod.snd).foldl (· + ·) start) :
    ∃ id ∈ entries.map Prod.fst, sample threshold entries start = some id := by
  induction entries generalizing start with
  | nil =>
      exact absurd rfl notEmpty
  | cons entry rest ih =>
      by_cases here : threshold ≤ start + entry.2
      · exact ⟨entry.1, List.mem_cons_self, if_pos here⟩
      · have later : rest ≠ [] := by
          rintro rfl
          exact here reached
        obtain ⟨id, isLater, found⟩ := ih later reached
        exact ⟨id, List.mem_cons_of_mem _ isLater, (if_neg here).trans found⟩

theorem hasValue_hundred : HasValue 100.0 100 := by
  have value : (100 : ℚ) = (7036874417766400 : Nat) * 2 ^ (-46 : Int) := by norm_num
  have unpacked :
      (100.0 : Float).toModel.unpack =
        .finite .positive 7036874417766400 (-46) (by decide) := by
    rfl
  rw [value]
  exact hasValue_of_unpack unpacked

theorem hasValue_randProb
    (drawn : Fin 100) :
    ∃ value, HasValue (randProb drawn) value ∧ value ≤ 199 / 200 := by
  have same : (UInt64.ofNat drawn).toNat = drawn := by
    rw [UInt64.toNat_ofNat']
    omega
  have hasDrawn := hasValue_toFloat (UInt64.ofNat drawn) (by omega)
  rw [same] at hasDrawn
  have most : (drawn : ℚ) ≤ 99 := by
    have isBelow : (drawn : Nat) ≤ 99 := by omega
    exact_mod_cast isBelow
  have small : (drawn : ℚ) / 100 < 2 ^ 1023 := by
    refine lt_of_lt_of_le (by linarith : (drawn : ℚ) / 100 < 2 ^ 0) ?_
    exact pow_le_pow_right₀ one_le_two (Nat.zero_le _)
  obtain ⟨value, hasValue, error⟩ := hasDrawn.div hasValue_hundred (by norm_num) small
  refine ⟨value, hasValue, ?_⟩
  have least : (2 : ℚ) ^ (-1074 : Int) ≤ 2 ^ (-52 : Int) :=
    zpow_le_zpow_right₀ one_le_two (by norm_num)
  have errorLe :
      max ((drawn : ℚ) / 100 / 2 ^ 52) (2 ^ (-1074 : Int)) ≤ 1 / 1000 := by
    refine max_le ?_ (least.trans (by norm_num))
    linarith
  have notAbove := (abs_le.mp (error.trans errorLe)).2
  linarith

theorem Known.selects
    (known : Known state) :
    Selects state := by
  intro notEmpty draw
  obtain ⟨data, isData⟩ := known.isThere notEmpty
  have isStored : stored state = data := by
    rw [stored, isData]
    rfl
  have keys : data.map.keys = state.corpus.ids := by
    rw [← isStored]
    exact known.tracks.keys
  have walked : (draw.order data.map.entries).Perm data.map.entries :=
    draw.perm _
  have someEntry : draw.order data.map.entries ≠ [] := by
    intro isEmpty
    rw [isEmpty] at walked
    rw [OrderedMap.keys, walked.nil_eq.symm] at keys
    exact notEmpty keys.symm
  obtain ⟨values, haveValues, small, inverses⟩ := known.small
  obtain ⟨part, isPart, below⟩ := hasValue_randProb draw.below
  have few := known.few
  rw [← known.length_probabilities] at few
  have total := known.tracks.total
  rw [isStored] at haveValues few total
  have reached :
      data.totalProbability * randProb draw.below ≤
        ((draw.order data.map.entries).map Prod.snd).foldl (· + ·) 0.0 := by
    rw [total]
    exact haveValues.part_le_sum inverses few small (walked.map _) isPart below
  obtain ⟨id, isEntry, found⟩ := exists_sample someEntry reached
  have isLive : id ∈ state.corpus.ids := by
    rw [← keys]
    exact (walked.map Prod.fst).mem_iff.mp isEntry
  have isSampled : sampled (stored state) draw = some id := by
    rw [isStored]
    exact found
  refine ⟨id, isLive, isSampled, ?_⟩
  have notZero : state.corpus.count ≠ 0 := by
    rw [ne_eq, InMemoryCorpus.count_eq_zero]
    exact notEmpty
  obtain ⟨last, isLast⟩ :
      ∃ last, ((draw.order data.map.entries).map Prod.fst).getLast? = some last := by
    refine Option.isSome_iff_exists.mp (List.getLast?_isSome.mpr ?_)
    exact mt List.map_eq_nil_iff.mp someEntry
  rw [isStored] at isSampled
  rw [next, outcome_bind_ok outcome_get, if_neg notZero, outcome_bind_ok outcome_get,
    outcome_bind_ok (outcome_orPanic isData), outcome_bind_ok (outcome_orPanic isLast),
    isSampled]
  rfl

theorem Known.call
    {event : Hooks.Event Input Draw}
    (known : Known state)
    (told : Told score state event) :
    Known (((scheduler score).perform event).outcome state).2 := by
  cases event with
  | add draw testcase =>
      obtain ⟨factor, scored⟩ := told
      rw [outcome_add scored.answer scored.invertible.not_zero]
      exact known.withScored scored
  | replace draw idx testcase =>
      cases found : state.corpus.find idx with
      | none =>
          rw [Hooks.outcome_replace_missing found]
          exact known
      | some prev =>
          rw [Hooks.outcome_replace found]
          exact known.of_same InMemoryCorpus.ids_modify rfl
  | remove draw idx =>
      rw [Hooks.outcome_remove_missing (InMemoryCorpus.find_eq_none.mpr told)]
      exact known
  | next draw =>
      by_cases isEmpty : state.corpus.ids = []
      · have failed :
            (next draw).outcome state = (.error (.empty "No entries in corpus"), state) := by
          rw [next, outcome_bind_ok outcome_get,
            if_pos (InMemoryCorpus.count_eq_zero.mpr isEmpty)]
          rfl
        change Known ((next draw >>= fun _ => pure ()).outcome state).2
        rw [outcome_bind_error failed]
        exact known
      · obtain ⟨id, _, _, selected⟩ := known.selects isEmpty draw
        change Known ((next draw >>= fun _ => pure ()).outcome state).2
        rw [outcome_bind_ok selected]
        exact known.of_same rfl rfl
  | elsewhere =>
      exact known

theorem Known.step
    {event : Hooks.Event Input Draw}
    (known : Known state)
    (told : Told score state event)
    (step : Step score state event after) :
    Known after := by
  cases step with
  | call reached =>
      have kept := known.call told
      rw [reached] at kept
      exact kept
  | elsewhere same =>
      exact known.of_same same.ids same.probability

/--
If new entries have scores and none is removed, the scheduler tracks the corpus, and
`next` selects a live entry in its loop.
-/
theorem always_tracks
    {start : State Input}
    {events : List (Hooks.Event Input Draw)}
    (isEmpty : start.corpus.ids = [])
    (nothing : start.probability = none)
    (run : Run ((Step score).guarded (Told score)) start events state) :
    Tracks state ∧ Selects state := by
  have known : Known state := by
    refine run.invariant (fun known step => known.step step.1 step.2) ?_
    have isStored : stored start = .new := by
      rw [stored, nothing]
      rfl
    refine ⟨⟨?_, ?_⟩, fun notEmpty => absurd isEmpty notEmpty, ?_, [], ?_, ?_, ?_⟩
    · rw [isStored, isEmpty]
      rfl
    · rw [isStored]
      rfl
    · rw [InMemoryCorpus.count_eq, isEmpty]
      exact Nat.zero_le _
    · rw [isStored]
      exact .nil
    · rw [List.sum_nil]
      positivity
    · exact fun _ isValue => absurd isValue List.not_mem_nil
  exact ⟨known.tracks, known.selects⟩

end

/-- The same score for all entries. -/
def alike : Penalty Unit Float :=
  fun _ _ => .ok 1.0

/-- The first draw, with entries in the order of their ids. -/
def firstDraw : Draw where
  order entries := entries
  perm entries := .refl entries
  below := 0

/-- Two entries were added. -/
def twoAdded : State Unit :=
  withScored (withScored .new (.new ()) 1.0) (.new ()) 1.0

/-- The first of them was removed. -/
def firstRemoved : State Unit :=
  { twoAdded with corpus := twoAdded.corpus.removed 0 }

theorem invertible_one : Invertible 1.0 :=
  .inl ⟨1, hasValue_one, zpow_lt_one_of_neg₀ one_lt_two (by norm_num)⟩

theorem added_alike
    (state : State Unit) :
    Step alike state (.add firstDraw (.new ())) (withScored state (.new ()) 1.0) :=
  .call (outcome_add rfl invertible_one.not_zero)

theorem always_tracks_two_added : Tracks twoAdded ∧ Selects twoAdded := by
  have hasInverse : HasValue (1.0 / 1.0) 1 := hasValue_of_unpack_one rfl
  have first : Told alike (.new : State Unit) (.add firstDraw (.new ())) := by
    refine ⟨1.0, rfl, invertible_one, by decide, [1], .cons hasInverse .nil, ?_⟩
    rw [List.sum_singleton]
    exact one_lt_pow₀ one_lt_two (by norm_num)
  have second :
      Told alike (withScored (.new : State Unit) (.new ()) 1.0)
        (.add firstDraw (.new ())) := by
    refine ⟨1.0, rfl, invertible_one, by decide, [1, 1],
      .cons hasInverse (.cons hasInverse .nil), ?_⟩
    rw [List.sum_cons, List.sum_singleton]
    calc
      (1 : ℚ) + 1 = 2 ^ 1 := by norm_num
      _ < 2 ^ 1022 := pow_lt_pow_right₀ one_lt_two (by norm_num)
  exact
    always_tracks rfl rfl
      (.cons ⟨first, added_alike _⟩ (.single ⟨second, added_alike _⟩))

/-- A removed entry is still tracked, and it is selected. -/
theorem removed_entry_is_selected :
    ∃ events state,
      Run (Step alike) (.new : State Unit) events state ∧
        ¬Tracks state ∧
          0 ∉ state.corpus.ids ∧
            ∃ draw, ((next draw).outcome state).1 = .ok 0 := by
  have removed : Step alike twoAdded (.remove firstDraw 0) firstRemoved := .call rfl
  refine ⟨_, firstRemoved,
    .cons (added_alike _) (.cons (added_alike _) (.single removed)), ?_, by decide, firstDraw, ?_⟩
  · intro tracks
    have keys : [0, 1] = [1] := tracks.keys
    cases keys
  · rfl

end MeFuzz.Scheduler.ProbabilitySamplingScheduler
