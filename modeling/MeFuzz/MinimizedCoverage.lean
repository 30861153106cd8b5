import MeFuzz.CorpusMinimizer

namespace MeFuzz.CorpusMinimizer

open Corpus (CorpusId Error InMemoryCorpus)
open Scheduler (Hook Penalty State computePenalty getTestcase removeTestcase)
open Procedure

/-!
# What a minimized corpus covers

Each seed stands for one entry, and each value of an index that an entry has is in the
constraints with the entry's seed.  So a model of the constraints leaves an entry for
each of them.
-/

variable {Input Entry : Type}

/-- An entry has a value other than the initial one at an index. -/
def Produces
    (execute : Input → Except Error (List Entry))
    (initial : Entry)
    (state : State Input)
    (id : CorpusId)
    (place : Nat)
    (entry : Entry) : Prop :=
  ∃ testcase input map,
    state.corpus.find id = some testcase ∧
      testcase.input = some input ∧
        execute input = .ok map ∧ map[place]? = some entry ∧ entry ≠ initial

theorem produces_iff
    {execute : Input → Except Error (List Entry)}
    {initial : Entry}
    {state : State Input}
    {idx : CorpusId}
    {testcase : Scheduler.Testcase Input}
    {input : Input}
    {map : List Entry}
    (found : state.corpus.find idx = some testcase)
    (isInput : testcase.input = some input)
    (isMap : execute input = .ok map)
    {place : Nat}
    {entry : Entry} :
    Produces execute initial state idx place entry ↔
      map[place]? = some entry ∧ entry ≠ initial := by
  constructor
  · rintro ⟨other, otherInput, otherMap, otherFound, isOther, executed, isEntry, notInitial⟩
    cases found.symm.trans otherFound
    cases isInput.symm.trans isOther
    cases isMap.symm.trans executed
    exact ⟨isEntry, notInitial⟩
  · rintro ⟨isEntry, notInitial⟩
    exact ⟨testcase, input, map, found, isInput, isMap, isEntry, notInitial⟩

section

variable [LinearOrder Entry]

/-- A seed is stored for a value of an index. -/
def Marks
    (covMap : CovMap Entry)
    (place : Nat)
    (entry : Entry)
    (seed : Nat) : Prop :=
  ∃ cov seeds,
    covMap.get place = some cov ∧ cov.get entry = some seeds ∧ seeds.get seed = some ()

variable {entry : Entry}

theorem marks_iff
    {covMap : CovMap Entry}
    {place : Nat}
    {seed : Nat} :
    Marks covMap place entry seed ↔
      ((((covMap.get place).getD .empty).get entry).getD .empty).get seed = some () := by
  constructor
  · rintro ⟨cov, seeds, isCov, isSeeds, isSeed⟩
    rw [isCov, Option.getD_some, isSeeds, Option.getD_some, isSeed]
  · intro isSeed
    cases isCov : covMap.get place with
    | none =>
        rw [isCov] at isSeed
        cases isSeed
    | some cov =>
        rw [isCov, Option.getD_some] at isSeed
        cases isSeeds : cov.get entry with
        | none =>
            rw [isSeeds] at isSeed
            cases isSeed
        | some seeds =>
            rw [isSeeds] at isSeed
            exact ⟨cov, seeds, isCov, isSeeds, isSeed⟩

/-- Storing a value marks the seed for it. -/
theorem marks_cover
    {initial : Entry}
    {covMap : CovMap Entry}
    {observed : Entry × Nat}
    {fresh place seed : Nat}
    {entry : Entry} :
    Marks (cover initial fresh covMap observed) place entry seed ↔
      Marks covMap place entry seed ∨
        (observed = (entry, place) ∧ entry ≠ initial ∧ seed = fresh) := by
  obtain ⟨value, index⟩ := observed
  rw [cover]
  dsimp only
  by_cases isInitial : value = initial
  · rw [if_neg (not_not_intro isInitial)]
    constructor
    · exact .inl
    · rintro (marks | ⟨same, notInitial, -⟩)
      · exact marks
      · cases same
        exact absurd isInitial notInitial
  · rw [if_pos isInitial, marks_iff, marks_iff, OrderedMap.get_insert]
    by_cases samePlace : place = index
    · rw [if_pos samePlace, Option.getD_some, OrderedMap.get_insert]
      by_cases sameEntry : entry = value
      · rw [if_pos sameEntry, Option.getD_some, OrderedMap.get_insert]
        by_cases sameSeed : seed = fresh
        · rw [if_pos sameSeed]
          subst samePlace sameEntry
          simp [isInitial, sameSeed]
        · rw [if_neg sameSeed, samePlace, sameEntry]
          simp [sameSeed]
      · rw [if_neg sameEntry, samePlace]
        simp [Ne.symm sameEntry]
    · rw [if_neg samePlace]
      simp [Ne.symm samePlace]

/-- Storing a map marks the seed for its values. -/
theorem marks_store
    {initial : Entry}
    {gathered : Gathered Entry}
    {idx : CorpusId}
    {weight place seed : Nat}
    {map : List Entry}
    {entry : Entry} :
    Marks (gathered.store initial idx weight map).covMap place entry seed ↔
      Marks gathered.covMap place entry seed ∨
        (map[place]? = some entry ∧ entry ≠ initial ∧ seed = gathered.fresh) := by
  suffices
      ∀ (observed : List (Entry × Nat)) (covMap : CovMap Entry),
        Marks (observed.foldl (cover initial gathered.fresh) covMap) place entry seed ↔
          Marks covMap place entry seed ∨
            ((entry, place) ∈ observed ∧ entry ≠ initial ∧ seed = gathered.fresh) by
    rw [Gathered.store, this, List.mk_mem_zipIdx_iff_getElem?]
  intro observed
  induction observed with
  | nil =>
      intro covMap
      simp
  | cons first rest ih =>
      intro covMap
      rw [List.foldl_cons, ih, marks_cover, or_assoc, List.mem_cons]
      refine or_congr_right ?_
      rw [← or_and_right, eq_comm]

/-- Seeds and coverage of the entries that were run. -/
structure GatheredFrom
    (execute : Input → Except Error (List Entry))
    (initial : Entry)
    (state : State Input)
    (done : List CorpusId)
    (gathered : Gathered Entry) : Prop where
  fresh : gathered.fresh = done.length
  seeds :
    ∀ seed, (gathered.seedExprs.get seed).map Prod.fst = done[seed]?
  marks :
    ∀ place entry seed,
      Marks gathered.covMap place entry seed ↔
        ∃ id, done[seed]? = some id ∧ Produces execute initial state id place entry

variable {compute : Penalty Input Float}
variable {execute : Input → Except Error (List Entry)}
variable {initial : Entry}
variable {state : State Input}
variable {done : List CorpusId}
variable {gathered : Gathered Entry}

theorem getElem?_snoc
    {seed : Nat}
    {idx id : CorpusId} :
    (done ++ [idx])[seed]? = some id ↔
      done[seed]? = some id ∨ (seed = done.length ∧ id = idx) := by
  rcases lt_trichotomy seed done.length with below | same | above
  · rw [List.getElem?_append_left below]
    simp [below.ne]
  · rw [same, List.getElem?_append_right le_rfl]
    simp [eq_comm]
  · rw [List.getElem?_append_right above.le, List.getElem?_eq_none (by simp; omega)]
    simp [above.ne', above.le]

theorem GatheredFrom.store
    (gatheredFrom : GatheredFrom execute initial state done gathered)
    {idx : CorpusId}
    {testcase : Scheduler.Testcase Input}
    {input : Input}
    {map : List Entry}
    (found : state.corpus.find idx = some testcase)
    (isInput : testcase.input = some input)
    (isMap : execute input = .ok map)
    (weight : Nat) :
    GatheredFrom execute initial state (done ++ [idx])
      (gathered.store initial idx weight map) := by
  have isFresh := gatheredFrom.fresh
  refine ⟨?_, ?_, ?_⟩
  · rw [List.length_append]
    exact congrArg (· + 1) isFresh
  · intro seed
    rw [Gathered.store, OrderedMap.get_insert, isFresh]
    ext id
    rw [getElem?_snoc, ← gatheredFrom.seeds]
    by_cases isLast : seed = done.length
    · have absent : gathered.seedExprs.get seed = none := by
        have noSeed := gatheredFrom.seeds seed
        rw [isLast, List.getElem?_eq_none le_rfl, Option.map_eq_none_iff] at noSeed
        rw [isLast]
        exact noSeed
      rw [if_pos isLast, absent]
      simp [isLast, eq_comm]
    · rw [if_neg isLast]
      simp [isLast]
  · intro place entry seed
    rw [marks_store, gatheredFrom.marks, isFresh]
    simp only [getElem?_snoc, or_and_right, exists_or]
    refine or_congr_right ?_
    constructor
    · rintro ⟨isEntry, notInitial, isLast⟩
      exact ⟨idx, ⟨isLast, rfl⟩, (produces_iff found isInput isMap).mpr ⟨isEntry, notInitial⟩⟩
    · rintro ⟨_, ⟨isLast, rfl⟩, produces⟩
      obtain ⟨isEntry, notInitial⟩ := (produces_iff found isInput isMap).mp produces
      exact ⟨isEntry, notInitial, isLast⟩

/-- Running an entry leaves the state, and its coverage is stored. -/
theorem gatherEntry_spec
    (gatheredFrom : GatheredFrom execute initial state done gathered)
    (idx : CorpusId) :
    Satisfies (· = state) (gatherEntry compute execute initial idx gathered)
      (fun stored now =>
        now = state ∧ GatheredFrom execute initial state (done ++ [idx]) stored)
      fun _ now => now = state := by
  rintro state rfl
  rw [gatherEntry]
  cases found : state.corpus.find idx with
  | none =>
      have failed :
          (getTestcase idx : Hook Input _).outcome state =
            (.error (Corpus.indexNotFound idx), state) := by
        rw [Scheduler.outcome_getTestcase, InMemoryCorpus.get_eq, found]
      rw [outcome_bind_error failed]
  | some testcase =>
      rw [outcome_bind_ok (Scheduler.outcome_getTestcase_ok found)]
      have computed :
          (computePenalty compute testcase).outcome state =
            (compute testcase state, state) :=
        rfl
      cases isWeight : compute testcase state with
      | error error =>
          rw [isWeight] at computed
          rw [outcome_bind_error computed]
      | ok weight =>
          rw [isWeight] at computed
          rw [outcome_bind_ok computed]
          cases isNumber : toU64 weight with
          | none =>
              rw [outcome_bind_error (Scheduler.outcome_orPanic_none rfl)]
          | some number =>
              rw [outcome_bind_ok (Scheduler.outcome_orPanic rfl)]
              cases isInput : testcase.input with
              | none =>
                  rw [outcome_bind_error (Scheduler.outcome_orPanic_none rfl)]
              | some input =>
                  rw [outcome_bind_ok (Scheduler.outcome_orPanic rfl)]
                  have executed :
                      (liftM (execute input) : Hook Input _).outcome state =
                        (execute input, state) :=
                    outcome_lift _
                  cases isMap : execute input with
                  | error error =>
                      rw [isMap] at executed
                      rw [outcome_bind_error executed]
                  | ok map =>
                      rw [isMap] at executed
                      rw [outcome_bind_ok executed]
                      exact ⟨rfl, gatheredFrom.store found isInput isMap number⟩

/-- The loop meets every entry. -/
theorem gather_spec
    {rounds : Nat}
    {rest : List CorpusId}
    (split : state.corpus.ids = done ++ rest)
    (enough : rest.length ≤ rounds)
    (gatheredFrom : GatheredFrom execute initial state done gathered) :
    Satisfies (· = state) (gather compute execute initial rounds rest.head? gathered)
      (fun answer now =>
        now = state ∧
          ∃ all,
            answer = some all ∧ GatheredFrom execute initial state state.corpus.ids all)
      fun _ now => now = state := by
  induction rest generalizing done rounds gathered with
  | nil =>
      rw [List.append_nil] at split
      rw [List.head?_nil, gather]
      rintro _ rfl
      exact ⟨rfl, gathered, rfl, split ▸ gatheredFrom⟩
  | cons idx rest ih =>
      cases rounds with
      | zero =>
          cases enough
      | succ rounds =>
          rw [List.head?_cons, gather]
          refine (gatherEntry_spec gatheredFrom idx).bind fun stored => ?_
          rintro _ ⟨rfl, storedFrom⟩
          rw [outcome_bind_ok outcome_get, InMemoryCorpus.next_eq split]
          exact
            ih (by rw [split, List.append_assoc]; rfl)
              (Nat.le_of_succ_le_succ enough) storedFrom _ rfl

/-- A disjunction holds where one of its seeds is in the model. -/
theorem eval_reduced
    {model : Nat → Bool}
    {seeds : List Nat}
    {formula : Formula}
    (isReduced : reduced seeds = some formula) :
    formula.eval model = true ↔ ∃ seed ∈ seeds, model seed = true := by
  suffices
      ∀ (rest : List Nat) (first : Formula),
        (rest.foldl (fun formula seed => Formula.or formula (.seed seed)) first).eval model =
            true ↔
          first.eval model = true ∨ ∃ seed ∈ rest, model seed = true by
    cases seeds with
    | nil =>
        cases isReduced
    | cons first rest =>
        cases isReduced
        rw [this]
        simp [Formula.eval]
  intro rest
  induction rest with
  | nil =>
      simp
  | cons seed rest ih =>
      intro first
      rw [List.foldl_cons, ih]
      simp [Formula.eval, or_assoc]

variable {orders : Orders}
variable {model : Nat → Bool}

/-- A model of the constraints has a seed for each value of each index. -/
theorem exists_selected
    (isModel : ∀ formula ∈ hardConstraints orders gathered, formula.eval model = true)
    {place seed : Nat}
    (marks : Marks gathered.covMap place entry seed) :
    ∃ selected, Marks gathered.covMap place entry selected ∧ model selected = true := by
  obtain ⟨cov, seeds, isCov, isSeeds, isSeed⟩ := marks
  have isWalked : seed ∈ (orders.seeds.walk seeds).map Prod.fst :=
    List.mem_map_of_mem (WalkOrder.mem_walk.mpr isSeed)
  cases isReduced : reduced ((orders.seeds.walk seeds).map Prod.fst) with
  | none =>
      cases isWalk : (orders.seeds.walk seeds).map Prod.fst with
      | nil =>
          rw [isWalk] at isWalked
          cases isWalked
      | cons first rest =>
          rw [isWalk] at isReduced
          cases isReduced
  | some formula =>
      have isHard : formula ∈ hardConstraints orders gathered := by
        refine List.mem_flatMap.mpr ⟨(place, cov), WalkOrder.mem_walk.mpr isCov, ?_⟩
        exact List.mem_filterMap.mpr
          ⟨(entry, seeds), WalkOrder.mem_walk.mpr isSeeds, isReduced⟩
      obtain ⟨selected, isSelected, holds⟩ := (eval_reduced isReduced).mp (isModel _ isHard)
      obtain ⟨⟨_, _⟩, isEntry, rfl⟩ := List.mem_map.mp isSelected
      exact ⟨_, ⟨cov, seeds, isCov, isSeeds, WalkOrder.mem_walk.mp isEntry⟩, holds⟩

/-- The model has set the seed of an entry to false. -/
def SetToFalse
    (gathered : Gathered Entry)
    (model : Nat → Bool)
    (id : CorpusId) : Prop :=
  ∃ seed weight, gathered.seedExprs.get seed = some (id, weight) ∧ model seed = false

variable {id : CorpusId}

/-- Each entry has one seed. -/
theorem GatheredFrom.seed_unique
    (gatheredFrom : GatheredFrom execute initial state done gathered)
    (nodup : done.Nodup)
    {first second : Nat}
    {weight other : Nat}
    (isFirst : gathered.seedExprs.get first = some (id, weight))
    (isSecond : gathered.seedExprs.get second = some (id, other)) :
    first = second := by
  have atFirst := gatheredFrom.seeds first
  have atSecond := gatheredFrom.seeds second
  rw [isFirst] at atFirst
  rw [isSecond] at atSecond
  obtain ⟨isIndex, _⟩ := List.getElem?_eq_some_iff.mp atFirst.symm
  exact (List.getElem?_inj isIndex nodup).mp (atFirst.symm.trans atSecond)

theorem GatheredFrom.mem_of_seed
    (gatheredFrom : GatheredFrom execute initial state done gathered)
    (isFalse : SetToFalse gathered model id) :
    id ∈ done := by
  obtain ⟨seed, weight, isSeed, _⟩ := isFalse
  have atSeed := gatheredFrom.seeds seed
  rw [isSeed] at atSeed
  exact List.mem_of_getElem? atSeed.symm

/-- The entries that are removed are those that the model sets to false. -/
theorem mem_removedIds
    {id : CorpusId} :
    id ∈ removedIds orders gathered model ↔ SetToFalse gathered model id := by
  rw [removedIds, (List.perm_insertionSort _ _).mem_iff, List.mem_map]
  constructor
  · rintro ⟨⟨seed, _, weight⟩, isRemoved, rfl⟩
    obtain ⟨isWalked, notInModel⟩ := List.mem_filter.mp isRemoved
    exact ⟨seed, weight, WalkOrder.mem_walk.mp isWalked, by simpa [Formula.eval] using notInModel⟩
  · rintro ⟨seed, weight, isSeed, isFalse⟩
    refine ⟨(seed, id, weight), List.mem_filter.mpr ⟨WalkOrder.mem_walk.mpr isSeed, ?_⟩, rfl⟩
    rw [Formula.eval, isFalse]
    rfl

/-- No entry is removed twice. -/
theorem nodup_removedIds
    (nodup : done.Nodup)
    (gatheredFrom : GatheredFrom execute initial state done gathered) :
    (removedIds orders gathered model).Nodup := by
  rw [removedIds, (List.perm_insertionSort _ _).nodup_iff]
  refine List.Nodup.map_on ?_ ?_
  · rintro ⟨first, id, weight⟩ isFirst ⟨second, _, other⟩ isSecond rfl
    have firstSeed := WalkOrder.mem_walk.mp (List.mem_of_mem_filter isFirst)
    have secondSeed := WalkOrder.mem_walk.mp (List.mem_of_mem_filter isSecond)
    obtain rfl := gatheredFrom.seed_unique nodup firstSeed secondSeed
    rw [Option.some.inj (firstSeed.symm.trans secondSeed)]
  · exact (List.Nodup.of_map _ WalkOrder.nodup_walk).filter _

theorem removedIds_descend
    (nodup : (removedIds orders gathered model).Nodup) :
    (removedIds orders gathered model).Pairwise fun idx1 idx2 => idx2 < idx1 := by
  have sorted :
      (removedIds orders gathered model).Pairwise fun idx1 idx2 => idx2 ≤ idx1 :=
    List.pairwise_insertionSort _ _
  exact (sorted.and nodup).imp fun both => lt_of_le_of_ne both.1 both.2.symm

/--
A removal: the entry is still there, it is taken out, and the scheduler is told, whether it
returns or fails.
-/
def Removal
    (hook : RemovalHook Input) :
    StepRelation (State Input) (CorpusId × Scheduler.Testcase Input) :=
  fun before removed after =>
    before.corpus.find removed.1 = some removed.2 ∧
      after =
        ((hook.onRemove removed.1 (some removed.2)).outcome
          { before with corpus := before.corpus.removed removed.1 }).2

variable {removals : List (CorpusId × Scheduler.Testcase Input)}

/-- After some removals the other entries are there, with their inputs. -/
theorem find_of_removals
    {hook : RemovalHook Input}
    {after : State Input}
    (run : Run (Removal hook) state removals after)
    (id : CorpusId) :
    (after.corpus.find id).map Scheduler.Testcase.input =
      if id ∈ removals.map Prod.fst then none
      else (state.corpus.find id).map Scheduler.Testcase.input := by
  induction run with
  | nil =>
      rfl
  | @cons before middle final removed rest removal _ ih =>
      obtain ⟨_, rfl⟩ := removal
      rw [ih, List.map_cons]
      have left :=
        hook.leaves removed.1 (some removed.2)
          { before with corpus := before.corpus.removed removed.1 } id
      rw [left]
      dsimp only
      rw [InMemoryCorpus.find_removed]
      by_cases isFirst : id = removed.1
      · rw [if_pos isFirst, if_pos (List.mem_cons.mpr (.inl isFirst))]
        split <;> rfl
      · simp only [List.mem_cons, isFirst, false_or, if_false]

/-- Entries that are there are removed one after the other. -/
theorem removeAll_spec
    (hook : RemovalHook Input)
    {ids : List CorpusId}
    (nodup : ids.Nodup)
    (live : ∀ id ∈ ids, id ∈ state.corpus.ids) :
    Satisfies (· = state) (removeAll hook ids)
      (fun ended after =>
        ∃ removals,
          Run (Removal hook) state removals after ∧
            removals.map Prod.fst <+: ids ∧
              (ended = true → removals.map Prod.fst = ids))
      fun _ after =>
        ∃ removals,
          Run (Removal hook) state removals after ∧ removals.map Prod.fst <+: ids := by
  induction ids generalizing state with
  | nil =>
      rintro _ rfl
      exact ⟨[], .nil _, List.prefix_rfl, fun _ => rfl⟩
  | cons id rest ih =>
      rintro state rfl
      obtain ⟨notLater, nodupRest⟩ := List.nodup_cons.mp nodup
      obtain ⟨testcase, found⟩ := InMemoryCorpus.mem_ids.mp (live id List.mem_cons_self)
      rw [removeAll, outcome_bind_ok (Scheduler.outcome_removeTestcase found)]
      have left :=
        hook.leaves id (some testcase) { state with corpus := state.corpus.removed id }
      cases told :
          (hook.onRemove id (some testcase)).outcome
            { state with corpus := state.corpus.removed id } with
      | mk answer middle =>
          rw [told] at left
          have removal : Removal hook state (id, testcase) middle := by
            refine ⟨found, ?_⟩
            rw [told]
          have one : [id] <+: id :: rest := ⟨rest, rfl⟩
          cases answer with
          | error error =>
              rw [outcome_bind_error told]
              exact ⟨[(id, testcase)], .single removal, one⟩
          | ok ended =>
              rw [outcome_bind_ok told]
              cases ended with
              | false =>
                  exact ⟨[(id, testcase)], .single removal, one, by simp⟩
              | true =>
                  have restLive : ∀ other ∈ rest, other ∈ middle.corpus.ids := by
                    intro other isLater
                    have apart : other ≠ id := fun same => notLater (same ▸ isLater)
                    obtain ⟨otherTestcase, otherFound⟩ :=
                      InMemoryCorpus.mem_ids.mp (live other (List.mem_cons_of_mem _ isLater))
                    have stays := left other
                    rw [InMemoryCorpus.find_removed, if_neg apart, otherFound,
                      Option.map_some, Option.map_eq_some_iff] at stays
                    obtain ⟨changed, isThere, _⟩ := stays
                    exact InMemoryCorpus.mem_ids.mpr ⟨changed, isThere⟩
                  refine
                    (ih nodupRest restLive).weaken
                      (fun _ same => same) ?_ ?_ middle rfl
                  · rintro ended after ⟨removals, run, isPrefix, all⟩
                    refine ⟨(id, testcase) :: removals, .cons removal run, ?_, ?_⟩
                    · exact List.cons_prefix_cons.mpr ⟨rfl, isPrefix⟩
                    · exact fun isEnd => congrArg (id :: ·) (all isEnd)
                  · rintro _ after ⟨removals, run, isPrefix⟩
                    exact
                      ⟨(id, testcase) :: removals, .cons removal run,
                        List.cons_prefix_cons.mpr ⟨rfl, isPrefix⟩⟩

/-- Where each call of the hook ends, so do the removals. -/
theorem removeAll_ends
    {hook : RemovalHook Input}
    (ends :
      ∀ idx testcase now, ((hook.onRemove idx testcase).outcome now).1 ≠ .ok false)
    (ids : List CorpusId) :
    Satisfies (fun _ => True) (removeAll hook ids) (fun ended _ => ended = true)
      fun _ _ => True := by
  induction ids with
  | nil =>
      exact .pure fun _ _ => rfl
  | cons id rest ih =>
      have told (testcase : Scheduler.Testcase Input) :
          Satisfies (fun _ => True) (hook.onRemove id (some testcase))
            (fun ended _ => ended = true) fun _ _ => True := by
        intro now _
        have notEndless := ends id (some testcase) now
        split
        · rename_i isOutcome
          rw [isOutcome] at notEndless
          simpa using notEndless
        · trivial
      have removes :
          Satisfies (fun _ => True) (removeTestcase id : Hook Input _)
            (fun _ _ => True) fun _ _ => True := by
        intro now _
        split <;> trivial
      refine removes.bind fun testcase => (told testcase).bind fun ended => ?_
      rintro now rfl
      exact ih now trivial

/-- The solver has found a model of what was gathered. -/
def Solved
    (compute : Penalty Input Float)
    (execute : Input → Except Error (List Entry))
    (initial : Entry)
    (solver : Optimize)
    (orders : Orders)
    (state : State Input)
    (gathered : Gathered Entry)
    (model : Nat → Bool) : Prop :=
  (gather compute execute initial state.corpus.count state.corpus.first .empty).outcome state =
      (.ok (some gathered), state) ∧
    solver.getModel (hardConstraints orders gathered) (softConstraints orders gathered) =
      some model

/--
The removals of a minimization, from the back of the corpus.  Each is of an entry that was
still there, was set to false by the model, and was reported; in the end all such entries
are removed.
-/
structure Removes
    (compute : Penalty Input Float)
    (execute : Input → Except Error (List Entry))
    (initial : Entry)
    (solver : Optimize)
    (hook : RemovalHook Input)
    (orders : Orders)
    (state : State Input)
    (result : Except Failure Bool)
    (after : State Input)
    (removals : List (CorpusId × Scheduler.Testcase Input)) : Prop where
  run : Run (Removal hook) state removals after
  fromBack : (removals.map Prod.fst).Pairwise fun idx1 idx2 => idx2 < idx1
  remaining :
    ∀ id, id ∈ after.corpus.ids ↔ id ∈ state.corpus.ids ∧ id ∉ removals.map Prod.fst
  setToFalse :
    ∀ id ∈ removals.map Prod.fst,
      ∃ gathered model,
        Solved compute execute initial solver orders state gathered model ∧
          SetToFalse gathered model id
  all :
    result = .ok true →
      ∃ gathered model,
        Solved compute execute initial solver orders state gathered model ∧
          ∀ id, SetToFalse gathered model id → id ∈ removals.map Prod.fst

variable {solver : Optimize}
variable {hook : RemovalHook Input}
variable {after : State Input}

theorem mem_ids_of_removals
    (run : Run (Removal hook) state removals after)
    (id : CorpusId) :
    id ∈ after.corpus.ids ↔ id ∈ state.corpus.ids ∧ id ∉ removals.map Prod.fst := by
  have found := find_of_removals run id
  have live {now : State Input} :
      id ∈ now.corpus.ids ↔ ((now.corpus.find id).map Scheduler.Testcase.input).isSome := by
    rw [Option.isSome_map, Option.isSome_iff_exists]
    exact InMemoryCorpus.mem_ids
  rw [live, live, found]
  split
  · simp_all
  · simp_all

/-- The entries that remain cover what all of them covered. -/
theorem covers_of_removals
    (gatheredFrom : GatheredFrom execute initial state state.corpus.ids gathered)
    (isModel : ∀ formula ∈ hardConstraints orders gathered, formula.eval model = true)
    (run : Run (Removal hook) state removals after)
    (setToFalse : ∀ id ∈ removals.map Prod.fst, SetToFalse gathered model id)
    {place : Nat}
    (produces : Produces execute initial state id place entry) :
    ∃ other, Produces execute initial after other place entry := by
  have isLive : id ∈ state.corpus.ids := by
    obtain ⟨testcase, _, _, found, _⟩ := produces
    exact InMemoryCorpus.mem_ids.mpr ⟨testcase, found⟩
  obtain ⟨seed, atSeed⟩ := List.getElem?_of_mem isLive
  have marks := (gatheredFrom.marks place entry seed).mpr ⟨id, atSeed, produces⟩
  obtain ⟨selected, isMarked, inModel⟩ := exists_selected isModel marks
  obtain ⟨other, atOther, testcase, input, map, found, isInput, executed, isEntry⟩ :=
    (gatheredFrom.marks place entry selected).mp isMarked
  have staysSelected : other ∉ removals.map Prod.fst := by
    intro isRemoved
    obtain ⟨seed, weight, isSeed, isFalse⟩ := setToFalse other isRemoved
    have atSelected := gatheredFrom.seeds selected
    rw [atOther, Option.map_eq_some_iff] at atSelected
    obtain ⟨⟨_, otherWeight⟩, isSelected, rfl⟩ := atSelected
    obtain rfl :=
      gatheredFrom.seed_unique state.corpus.sorted_ids.nodup isSeed isSelected
    cases isFalse.symm.trans inModel
  have stays := find_of_removals run other
  rw [if_neg staysSelected, found, Option.map_some, Option.map_eq_some_iff] at stays
  obtain ⟨changed, isThere, sameInput⟩ := stays
  exact ⟨other, changed, input, map, isThere, sameInput.trans isInput, executed, isEntry⟩

theorem gatheredFrom_empty : GatheredFrom execute initial state [] .empty := by
  refine ⟨rfl, fun seed => rfl, fun place entry seed => ?_⟩
  constructor
  · rintro ⟨_, _, ⟨⟩, _⟩
  · rintro ⟨_, ⟨⟩, _⟩

theorem removes_nothing
    {result : Except Failure Bool}
    (notAll : result ≠ .ok true) :
    Removes compute execute initial solver hook orders state result state [] :=
  ⟨.nil _, .nil, by simp, by simp, fun isAll => absurd isAll notAll⟩

theorem removes_of_run
    {result : Except Failure Bool}
    (solved : Solved compute execute initial solver orders state gathered model)
    (nodup : (removedIds orders gathered model).Nodup)
    (run : Run (Removal hook) state removals after)
    (isPrefix : removals.map Prod.fst <+: removedIds orders gathered model)
    (all : result = .ok true → removals.map Prod.fst = removedIds orders gathered model) :
    Removes compute execute initial solver hook orders state result after removals := by
  refine
    ⟨run, (removedIds_descend nodup).sublist isPrefix.sublist, mem_ids_of_removals run, ?_, ?_⟩
  · intro id isRemoved
    exact ⟨gathered, model, solved, mem_removedIds.mp (isPrefix.subset isRemoved)⟩
  · intro isAll
    refine ⟨gathered, model, solved, fun id isFalse => ?_⟩
    rw [all isAll]
    exact mem_removedIds.mpr isFalse

/--
A minimization loses no coverage, and it removes entries that the model has set to false,
each of which it reports.  It ends if the hook of the scheduler does.
-/
theorem minimize_keeps_coverage
    (compute : Penalty Input Float)
    (execute : Input → Except Error (List Entry))
    (initial : Entry)
    (solver : Optimize)
    (hook : RemovalHook Input)
    (orders : Orders)
    (state after : State Input)
    (result : Except Failure Bool)
    (minimized :
      (minimize compute execute initial solver hook orders).outcome state =
        (result, after)) :
    (∀ id place entry,
        Produces execute initial state id place entry →
          ∃ other, Produces execute initial after other place entry) ∧
      (∃ removals,
        Removes compute execute initial solver hook orders state result after removals) ∧
        ((∀ idx testcase now, ((hook.onRemove idx testcase).outcome now).1 ≠ .ok false) →
          result ≠ .ok false) := by
  have gathers :=
    @gather_spec _ _ _ compute execute initial state [] .empty state.corpus.count
      state.corpus.ids rfl state.corpus.count_eq.ge gatheredFrom_empty state rfl
  rw [← InMemoryCorpus.first_eq] at gathers
  rw [minimize, outcome_bind_ok outcome_get] at minimized
  cases gathering :
      (gather compute execute initial state.corpus.count state.corpus.first .empty).outcome
        state with
  | mk answer now =>
      have adapted :=
        @outcome_adapt _ _ _ state _ Failure.error
          (gather compute execute initial state.corpus.count state.corpus.first .empty)
      rw [gathering] at gathers adapted
      cases answer with
      | error error =>
          obtain rfl := gathers
          rw [outcome_bind_error adapted] at minimized
          cases minimized
          exact
            ⟨fun id _ _ produces => ⟨id, produces⟩, ⟨[], removes_nothing (by simp)⟩, by simp⟩
      | ok answer =>
          obtain ⟨rfl, gathered, rfl, gatheredFrom⟩ := gathers
          rw [outcome_bind_ok adapted] at minimized
          dsimp only at minimized
          cases isModel :
              solver.getModel (hardConstraints orders gathered)
                (softConstraints orders gathered) with
          | none =>
              rw [isModel] at minimized
              cases minimized
              exact
            ⟨fun id _ _ produces => ⟨id, produces⟩, ⟨[], removes_nothing (by simp)⟩, by simp⟩
          | some model =>
              rw [isModel] at minimized
              dsimp only at minimized
              have live :
                  ∀ id ∈ removedIds orders gathered model, id ∈ now.corpus.ids :=
                fun id isRemoved => gatheredFrom.mem_of_seed (mem_removedIds.mp isRemoved)
              have nodup : (removedIds orders gathered model).Nodup :=
                nodup_removedIds now.corpus.sorted_ids.nodup gatheredFrom
              have removes := removeAll_spec hook nodup live now rfl
              have covers {removals : List (CorpusId × Scheduler.Testcase Input)}
                  (run : Run (Removal hook) now removals after)
                  (isPrefix : removals.map Prod.fst <+: removedIds orders gathered model)
                  (id : CorpusId) (place : Nat) (entry : Entry)
                  (produces : Produces execute initial now id place entry) :
                  ∃ other, Produces execute initial after other place entry :=
                covers_of_removals gatheredFrom (solver.isModel isModel) run
                  (fun id isRemoved => mem_removedIds.mp (isPrefix.subset isRemoved)) produces
              rw [outcome_adapt] at minimized
              cases removing :
                  (removeAll hook (removedIds orders gathered model)).outcome now with
              | mk answer final =>
                  rw [removing] at removes minimized
                  cases answer with
                  | error error =>
                      cases minimized
                      obtain ⟨removals, run, isPrefix⟩ := removes
                      have notAll : Except.mapError Failure.error (.error error) ≠ .ok true := by
                        simp [Except.mapError]
                      refine
                        ⟨covers run isPrefix,
                          ⟨removals, removes_of_run ⟨gathering, isModel⟩ nodup run isPrefix
                            fun isAll => absurd isAll notAll⟩, ?_⟩
                      simp [Except.mapError]
                  | ok ended =>
                      cases minimized
                      obtain ⟨removals, run, isPrefix, all⟩ := removes
                      refine
                        ⟨covers run isPrefix,
                          ⟨removals, removes_of_run ⟨gathering, isModel⟩ nodup run isPrefix
                            fun isAll => all (Except.ok.inj isAll)⟩, fun ends => ?_⟩
                      have isEnd : ended = true :=
                        (removeAll_ends ends _).of_ok trivial removing
                      rw [isEnd]
                      simp [Except.mapError]

end

/-- A solver that tries the first seed alone, and else takes all seeds where that helps. -/
def firstOrAll : Optimize where
  getModel hard _ :=
    if hard.all (Formula.eval fun seed => seed = 0) then some fun seed => seed = 0
    else if hard.all (Formula.eval fun _ => true) then some fun _ => true
    else none
  isModel := by
    intro hard soft model isModel formula isHard
    split at isModel
    · rename_i holds
      cases isModel
      exact List.all_eq_true.mp holds formula isHard
    · split at isModel
      · rename_i holds
        cases isModel
        exact List.all_eq_true.mp holds formula isHard
      · cases isModel

/-- All maps are walked in the order of their keys. -/
def Orders.inOrder : Orders :=
  ⟨.inOrder, .inOrder, .inOrder, .inOrder, .inOrder⟩

/-- Two entries. -/
def twoEntries : State Nat :=
  { (State.new : State Nat) with
    corpus := ((InMemoryCorpus.new.add (.new 1)).2.add (.new 2)).2 }

/-- The second of them was removed. -/
def oneEntry : State Nat :=
  { (State.new : State Nat) with
    corpus := ((InMemoryCorpus.new.add (Scheduler.Testcase.new 1)).2.add (.new 2)).2.removed 1 }

theorem minimize_two_entries :
    (∀ id place entry,
        Produces (fun _ => .ok [0, 1]) 0 twoEntries id place entry →
          ∃ other, Produces (fun _ => .ok [0, 1]) 0 oneEntry other place entry) ∧
      (∃ removals,
        Removes (fun _ _ => .ok 1.0) (fun _ => .ok [0, 1]) 0 firstOrAll plainHook .inOrder
          twoEntries (.ok true) oneEntry removals) ∧
        ((∀ idx testcase now,
            (((plainHook : RemovalHook Nat).onRemove idx testcase).outcome now).1 ≠
              .ok false) →
          (.ok true : Except Failure Bool) ≠ .ok false) :=
  minimize_keeps_coverage (fun _ _ => .ok 1.0) (fun _ => .ok [0, 1]) 0 firstOrAll plainHook
    .inOrder twoEntries oneEntry (.ok true) rfl

end MeFuzz.CorpusMinimizer
