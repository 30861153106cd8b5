import MeFuzz.MinimizerScheduling

namespace MeFuzz.Scheduler.MinimizerScheduler

open Corpus (CorpusId Error InMemoryCorpus)
open Procedure

/-!
# The best entry of each index

An added entry takes an index from its holder exactly when its own penalty is not
higher.  So the holder of an index has the lowest penalty of all that were added and
cover it, as long as an entry's penalty does not change.
-/

variable {Input Outside Factor : Type}
variable {state now : State Input}
variable {idx : CorpusId}

/-- What the penalty of an entry is computed from. -/
def scored (testcase : Testcase Input) : Option Input × Option Nat :=
  (testcase.input, testcase.execTime)

/-- The entries are scored by the same data. -/
def KeepsScored (before after : State Input) : Prop :=
  ∀ id, (after.corpus.find id).map scored = (before.corpus.find id).map scored

theorem KeepsScored.trans
    {middle : State Input}
    (first : KeepsScored state middle)
    (second : KeepsScored middle now) :
    KeepsScored state now :=
  fun id => (second id).trans (first id)

theorem KeepsScored.find
    (keeps : KeepsScored state now)
    {id : CorpusId}
    {testcase : Testcase Input}
    (found : state.corpus.find id = some testcase) :
    ∃ other, now.corpus.find id = some other ∧ scored other = scored testcase := by
  have entry := keeps id
  rw [found, Option.map_some] at entry
  exact Option.map_eq_some_iff.mp entry

theorem KeepsScored.find_before
    (keeps : KeepsScored state now)
    {id : CorpusId}
    {testcase : Testcase Input}
    (found : now.corpus.find id = some testcase) :
    ∃ other, state.corpus.find id = some other ∧ scored other = scored testcase := by
  have entry := (keeps id).symm
  rw [found, Option.map_some] at entry
  exact Option.map_eq_some_iff.mp entry

theorem Same.keepsScored (same : Same state now) : KeepsScored state now := by
  intro id
  have entry := congrArg (Option.map fun data => (data.1, data.2.1)) (same.entries id)
  rw [Option.map_map, Option.map_map] at entry
  exact entry

theorem keepsScored_modify
    {change : Testcase Input → Testcase Input}
    (sameData : ∀ testcase, scored (change testcase) = scored testcase) :
    KeepsScored state
      { state with corpus := state.corpus.modify idx change } := by
  intro id
  refine (congrArg (Option.map scored) InMemoryCorpus.find_modify).trans ?_
  split
  · rw [Option.map_map]
    exact congrArg (fun f => (state.corpus.find id).map f) (funext sameData)
  · rfl

/-- A penalty that was computed for an entry, now or earlier. -/
def HasFactor
    (penalty : Penalty Input Factor)
    (testcase : Testcase Input)
    (factor : Factor) : Prop :=
  ∃ other state, scored other = scored testcase ∧ penalty other state = .ok factor

/-- The penalty of an entry depends on its data alone, whenever it is computed. -/
def Steady (penalty : Penalty Input Factor) : Prop :=
  ∀ {first second : Testcase Input} {state other : State Input} {factor again : Factor},
    scored first = scored second →
    penalty first state = .ok factor →
    penalty second other = .ok again →
    factor = again

theorem HasFactor.congr
    {penalty : Penalty Input Factor}
    {testcase other : Testcase Input}
    {factor : Factor}
    (hasFactor : HasFactor penalty testcase factor)
    (same : scored other = scored testcase) :
    HasFactor penalty other factor := by
  obtain ⟨earlier, state, sameEarlier, computed⟩ := hasFactor
  exact ⟨earlier, state, sameEarlier.trans same.symm, computed⟩

theorem HasFactor.unique
    {penalty : Penalty Input Factor}
    {testcase : Testcase Input}
    {factor again : Factor}
    (steady : Steady penalty)
    (hasFactor : HasFactor penalty testcase factor)
    (hasAgain : HasFactor penalty testcase again) :
    factor = again := by
  obtain ⟨first, state, sameFirst, computed⟩ := hasFactor
  obtain ⟨second, other, sameSecond, computedAgain⟩ := hasAgain
  exact steady (sameFirst.trans sameSecond.symm) computed computedAgain

/-- The penalty of a live entry. -/
def FactorOf
    (penalty : Penalty Input Factor)
    (state : State Input)
    (id : CorpusId)
    (factor : Factor) : Prop :=
  ∃ testcase, state.corpus.find id = some testcase ∧ HasFactor penalty testcase factor

section

variable {penalty : Penalty Input Factor}
variable {factor again : Factor}
variable {id : CorpusId}

theorem FactorOf.unique
    (steady : Steady penalty)
    (hasFactor : FactorOf penalty state id factor)
    (hasAgain : FactorOf penalty state id again) :
    factor = again := by
  obtain ⟨testcase, found, hasFactor⟩ := hasFactor
  obtain ⟨other, foundAgain, hasAgain⟩ := hasAgain
  obtain rfl := Option.some.inj (found.symm.trans foundAgain)
  exact hasFactor.unique steady hasAgain

theorem KeepsScored.factorOf
    (keeps : KeepsScored state now)
    (hasFactor : FactorOf penalty state id factor) :
    FactorOf penalty now id factor := by
  obtain ⟨testcase, found, hasFactor⟩ := hasFactor
  obtain ⟨other, foundOther, sameData⟩ := keeps.find found
  exact ⟨other, foundOther, hasFactor.congr sameData⟩

end

section

variable [LinearOrder Factor]

/-- The indexes of a list at which an entry was found not to be worse than the holder. -/
structure Chosen
    (penalty : Penalty Input Factor)
    (state : State Input)
    (map : TopRatedsMetadata)
    (idx : CorpusId)
    (factor : Factor)
    (list newFavoreds : List Nat) : Prop where
  fromList : ∀ elem ∈ newFavoreds, elem ∈ list
  better :
    ∀ elem ∈ newFavoreds, ∀ old,
      map.get elem = some old →
      old = idx ∨ ∃ oldFactor, FactorOf penalty state old oldFactor ∧ factor ≤ oldFactor
  worse :
    ∀ elem ∈ list,
      elem ∉ newFavoreds →
      ∃ old oldFactor,
        map.get elem = some old ∧
          FactorOf penalty state old oldFactor ∧ oldFactor < factor

/-- What stays as it is while an entry is scored. -/
structure Scoring
    (state : State Input)
    (map : TopRatedsMetadata)
    (now : State Input) : Prop where
  topRateds : now.topRateds = some map
  keeps : KeepsScored state now

variable {penalty : Penalty Input Factor}
variable {map : TopRatedsMetadata}
variable {factor : Factor}
variable {list newFavoreds : List Nat}
variable {elem : Nat}

theorem Chosen.snoc
    (chosen : Chosen penalty state map idx factor list newFavoreds)
    (better :
      ∀ old,
        map.get elem = some old →
        old = idx ∨
          ∃ oldFactor, FactorOf penalty state old oldFactor ∧ factor ≤ oldFactor) :
    Chosen penalty state map idx factor (list ++ [elem]) (newFavoreds ++ [elem]) := by
  refine ⟨?_, ?_, ?_⟩
  · intro other isFavored
    rcases List.mem_append.mp isFavored with before | isLast
    · exact List.mem_append_left _ (chosen.fromList other before)
    · exact List.mem_append_right _ isLast
  · intro other isFavored
    rcases List.mem_append.mp isFavored with before | isLast
    · exact chosen.better other before
    · rw [List.mem_singleton.mp isLast]
      exact better
  · intro other isListed notFavored
    rw [List.mem_append, not_or] at notFavored
    rcases List.mem_append.mp isListed with before | isLast
    · exact chosen.worse other before notFavored.1
    · exact absurd isLast notFavored.2

theorem Chosen.skip
    (chosen : Chosen penalty state map idx factor list newFavoreds)
    (worse :
      ∃ old oldFactor,
        map.get elem = some old ∧
          FactorOf penalty state old oldFactor ∧ oldFactor < factor) :
    Chosen penalty state map idx factor (list ++ [elem]) newFavoreds := by
  refine ⟨?_, chosen.better, ?_⟩
  · intro other isFavored
    exact List.mem_append_left _ (chosen.fromList other isFavored)
  · intro other isListed notFavored
    rcases List.mem_append.mp isListed with before | isLast
    · exact chosen.worse other before notFavored
    · rw [List.mem_singleton.mp isLast]
      exact worse

omit [LinearOrder Factor] in
theorem holder_has_factor
    (scoring : Scoring state map now)
    {old : CorpusId}
    {testcase : Testcase Input}
    {oldFactor : Factor}
    (found : now.corpus.find old = some testcase)
    (computed : penalty testcase now = .ok oldFactor) :
    FactorOf penalty state old oldFactor := by
  obtain ⟨before, foundBefore, sameData⟩ := scoring.keeps.find_before found
  exact ⟨before, foundBefore, testcase, now, sameData.symm, computed⟩

theorem favor_chooses :
    Satisfies
      (fun now =>
        Scoring state map now ∧
          Chosen penalty state map idx factor list newFavoreds)
      (favor penalty idx factor newFavoreds elem)
      (fun newFavoreds now =>
        Scoring state map now ∧
          Chosen penalty state map idx factor (list ++ [elem]) newFavoreds)
      fun _ => Scoring state map := by
  rintro now ⟨scoring, chosen⟩
  unfold favor
  rw [outcome_bind_ok outcome_get,
    outcome_bind_ok (outcome_orPanic scoring.topRateds)]
  dsimp only
  cases isHolder : map.get elem with
  | none =>
      refine ⟨scoring, chosen.snoc fun old owns => ?_⟩
      cases isHolder.symm.trans owns
  | some old =>
      dsimp only
      by_cases isSelf : old = idx
      · rw [if_pos isSelf]
        refine ⟨scoring, chosen.snoc fun other owns => .inl ?_⟩
        obtain rfl := Option.some.inj (isHolder.symm.trans owns)
        exact isSelf
      · rw [if_neg isSelf]
        refine
          (((@getTestcase_reads _ (fun other => other = now) old).weaken
            (fun _ same => same) (fun _ _ both => both)
            fun _ other (same : other = now) => same ▸ scoring).bind
            fun testcase => ?_) now rfl
        refine
          ((computePenalty_reads penalty testcase).weaken (fun _ both => both)
            (fun _ _ both => both) fun _ _ both => both.1 ▸ scoring).bind
            fun oldFactor => ?_
        rintro _ ⟨⟨rfl, found⟩, computed⟩
        have hasFactor := holder_has_factor scoring found computed
        by_cases isWorse : oldFactor < factor
        · rw [if_pos isWorse]
          exact
            ⟨scoring,
              chosen.skip ⟨old, oldFactor, isHolder, hasFactor, isWorse⟩⟩
        · rw [if_neg isWorse]
          cases hasData : testcase.mapIndexes with
          | none =>
              exact scoring
          | some data =>
              refine
                ⟨⟨scoring.topRateds, scoring.keeps.trans (keepsScored_modify ?_)⟩,
                  chosen.snoc fun other owns => .inr ?_⟩
              · exact fun _ => rfl
              · obtain rfl := Option.some.inj (isHolder.symm.trans owns)
                exact ⟨oldFactor, hasFactor, not_lt.mp isWorse⟩

/-- What an entry is when its score is updated, and what it gets. -/
structure Scored
    (penalty : Penalty Input Factor)
    (state : State Input)
    (idx : CorpusId)
    (testcase : Testcase Input)
    (data : IndexesMetadata)
    (factor : Factor)
    (newFavoreds : List Nat)
    (after : State Input) : Prop where
  found : state.corpus.find idx = some testcase
  hasData : testcase.mapIndexes = some data
  hasFactor : HasFactor penalty testcase factor
  chosen :
    Chosen penalty state (state.topRateds.getD .empty) idx factor data.list newFavoreds
  topRateds :
    after.topRateds =
      some
        ((state.topRateds.getD .empty).insertAll
          (newFavoreds.map fun elem => (elem, idx)))
  keeps : KeepsScored state after

theorem favors_choose (list : List Nat) :
    Satisfies (Scoring state map)
      (list.foldlM (favor penalty idx factor) [])
      (fun newFavoreds now =>
        Scoring state map now ∧
          Chosen penalty state map idx factor list newFavoreds)
      fun _ => Scoring state map := by
  have loop :
      Satisfies
        (fun now =>
          Scoring state map now ∧ Chosen penalty state map idx factor [] [])
        (list.foldlM (favor penalty idx factor) [])
        (fun newFavoreds now =>
          Scoring state map now ∧
            Chosen penalty state map idx factor list newFavoreds)
        fun _ => Scoring state map :=
    @Satisfies.foldlM _ _ _ _ _
      (fun done newFavoreds now =>
        Scoring state map now ∧
          Chosen penalty state map idx factor done newFavoreds)
      _ _ (fun _ _ _ _ _ => favor_chooses) _
  refine loop.weaken ?_ (fun _ _ both => both) fun _ _ scoring => scoring
  exact fun _ scoring => ⟨scoring, nofun, nofun, nofun⟩

theorem updateScore_scores (penalty : Penalty Input Factor) (idx : CorpusId) :
    Satisfies (fun now => now = state) (updateScore penalty idx)
      (fun _ after =>
        ∃ testcase data factor newFavoreds,
          Scored penalty state idx testcase data factor newFavoreds after)
      fun _ => Scoring state (state.topRateds.getD .empty) := by
  rintro start rfl
  unfold updateScore
  rw [outcome_bind_ok (outcome_modify _)]
  let map := start.topRateds.getD .empty
  let now := { start with topRateds := some map }
  have scoring : Scoring start map now := ⟨rfl, fun _ => rfl⟩
  refine
    (((@getTestcase_reads _ (fun other => other = now) idx).weaken
      (fun _ same => same) (fun _ _ both => both)
      fun _ other (same : other = now) => same ▸ scoring).bind
      fun testcase => ?_) now rfl
  refine
    ((computePenalty_reads penalty testcase).weaken (fun _ both => both)
      (fun _ _ both => both) fun _ _ both => both.1 ▸ scoring).bind
      fun factor => ?_
  refine
    ((orKeyNotFound_reads (noIndexes idx) testcase.mapIndexes).weaken
      (fun _ both => both) (fun _ _ both => both)
      fun _ _ both => both.1.1 ▸ scoring).bind fun data => ?_
  rintro _ ⟨⟨⟨rfl, found⟩, computed⟩, hasData⟩
  refine ((favors_choose data.list).bind fun newFavoreds => ?_) now scoring
  rintro later ⟨scoringLater, chosen⟩
  rw [outcome_bind_ok outcome_updateTestcase]
  have hasFactor : HasFactor penalty testcase factor := ⟨testcase, now, rfl, computed⟩
  have keeps :
      KeepsScored start
        { later with
          corpus :=
            later.corpus.modify idx fun testcase =>
              { testcase with
                mapIndexes := some { data with tcref := newFavoreds.length } } } :=
    scoringLater.keeps.trans (keepsScored_modify fun _ => rfl)
  by_cases isEmpty : newFavoreds.isEmpty = true
  · rw [if_pos isEmpty]
    refine
      ⟨testcase, data, factor, newFavoreds, found, hasData, hasFactor, chosen, ?_, ?_⟩
    · rw [List.isEmpty_iff.mp isEmpty]
      exact scoringLater.topRateds
    · exact keeps.trans (keepsScored_modify fun _ => rfl)
  · rw [if_neg isEmpty]
    refine
      ⟨testcase, data, factor, newFavoreds, found, hasData, hasFactor, chosen, ?_,
        keeps⟩
    exact
      congrArg
        (Option.map fun map =>
          map.insertAll (newFavoreds.map fun elem => (elem, idx)))
        scoringLater.topRateds

/-- An entry that was added, with the list that it had then. -/
structure Addition where
  id : CorpusId
  list : List Nat

variable (penalty : Penalty Input Factor)
variable (base : Hooks Input Outside)

/--
A run that starts without a map of the best entries.  Testcases are put into the corpus
and the scheduler is told of entries, which it may refuse.
-/
inductive Additions : List Addition → State Input → Prop where
  | start
      {state : State Input}
      (noMap : state.topRateds = none) :
      Additions [] state
  | insert
      {added : List Addition}
      {state : State Input}
      (before : Additions added state)
      (testcase : Testcase Input) :
      Additions added { state with corpus := (state.corpus.add testcase).2 }
  | added
      {added : List Addition}
      {state after : State Input}
      (before : Additions added state)
      (outside : Outside)
      {idx : CorpusId}
      {testcase : Testcase Input}
      {data : IndexesMetadata}
      (found : state.corpus.find idx = some testcase)
      (hasData : testcase.mapIndexes = some data)
      (returned : (onAdd penalty base outside idx).outcome state = (.ok (), after)) :
      Additions (added ++ [⟨idx, data.list⟩]) after
  | refused
      {added : List Addition}
      {state after : State Input}
      (before : Additions added state)
      (outside : Outside)
      {idx : CorpusId}
      {error : Error}
      (failed :
        (onAdd penalty base outside idx).outcome state = (.error error, after)) :
      Additions added after

/--
An added entry whose list contains an index, with the lowest penalty of all that were
added and whose lists contain it.
-/
def IsBest
    (added : List Addition)
    (state : State Input)
    (elem : Nat)
    (id : CorpusId) : Prop :=
  ∃ list factor,
    ⟨id, list⟩ ∈ added ∧ elem ∈ list ∧ FactorOf penalty state id factor ∧
      ∀ other ∈ added,
        elem ∈ other.list →
        ∃ otherFactor,
          FactorOf penalty state other.id otherFactor ∧ factor ≤ otherFactor

/-- The map of the best entries, which is empty before there is one. -/
def bestEntries (state : State Input) : TopRatedsMetadata :=
  state.topRateds.getD .empty

/-- Each index of an added list has the best of the added entries. -/
structure BestHeld (added : List Addition) (state : State Input) : Prop where
  scored : ∀ addition ∈ added, ∃ factor, FactorOf penalty state addition.id factor
  best :
    ∀ elem id,
      (bestEntries state).get elem = some id → IsBest penalty added state elem id
  keys :
    ∀ addition ∈ added,
      ∀ elem ∈ addition.list, ∃ id, (bestEntries state).get elem = some id

variable {penalty}
variable {added : List Addition}
variable {after : State Input}

theorem BestHeld.keep
    (held : BestHeld penalty added state)
    (sameMap : bestEntries after = bestEntries state)
    (keeps :
      ∀ {id factor}, FactorOf penalty state id factor → FactorOf penalty after id factor) :
    BestHeld penalty added after := by
  refine ⟨?_, ?_, ?_⟩
  · intro addition isAdded
    obtain ⟨factor, hasFactor⟩ := held.scored addition isAdded
    exact ⟨factor, keeps hasFactor⟩
  · intro elem id owns
    rw [sameMap] at owns
    obtain ⟨list, factor, isAdded, isListed, hasFactor, lowest⟩ := held.best elem id owns
    refine ⟨list, factor, isAdded, isListed, keeps hasFactor, ?_⟩
    intro other isOther isCovered
    obtain ⟨otherFactor, hasOther, notHigher⟩ := lowest other isOther isCovered
    exact ⟨otherFactor, keeps hasOther, notHigher⟩
  · rw [sameMap]
    exact held.keys

theorem BestHeld.not_higher
    (steady : Steady penalty)
    (held : BestHeld penalty added state)
    {testcase : Testcase Input}
    {data : IndexesMetadata}
    (scored : Scored penalty state idx testcase data factor newFavoreds after)
    (isFavored : elem ∈ newFavoreds)
    {other : Addition}
    (isOther : other ∈ added)
    (isCovered : elem ∈ other.list) :
    ∃ otherFactor,
      FactorOf penalty after other.id otherFactor ∧ factor ≤ otherFactor := by
  obtain ⟨old, isOld⟩ := held.keys other isOther elem isCovered
  obtain ⟨-, oldFactor, -, -, hasOld, lowest⟩ := held.best elem old isOld
  obtain ⟨otherFactor, hasOther, notHigher⟩ := lowest other isOther isCovered
  refine ⟨otherFactor, scored.keeps.factorOf hasOther, le_trans ?_ notHigher⟩
  rcases scored.chosen.better elem isFavored old isOld with
    rfl | ⟨factorOfOld, hasFactorOfOld, notHigher⟩
  · exact
      (FactorOf.unique steady ⟨testcase, scored.found, scored.hasFactor⟩ hasOld).le
  · exact notHigher.trans (hasFactorOfOld.unique steady hasOld).le

theorem BestHeld.scored_after
    (steady : Steady penalty)
    (held : BestHeld penalty added state)
    {testcase : Testcase Input}
    {data : IndexesMetadata}
    (scored : Scored penalty state idx testcase data factor newFavoreds after) :
    BestHeld penalty (added ++ [⟨idx, data.list⟩]) after := by
  have hasFactor : FactorOf penalty state idx factor :=
    ⟨testcase, scored.found, scored.hasFactor⟩
  have isEntry :
      ∀ elem,
        (bestEntries after).get elem =
          if elem ∈ newFavoreds then some idx else (bestEntries state).get elem := by
    intro elem
    unfold bestEntries
    rw [scored.topRateds, Option.getD_some, OrderedMap.get_insertAll_const]
  refine ⟨?_, ?_, ?_⟩
  · intro addition isAdded
    rcases List.mem_append.mp isAdded with before | isLast
    · obtain ⟨factor, hasFactor⟩ := held.scored addition before
      exact ⟨factor, scored.keeps.factorOf hasFactor⟩
    · rw [List.mem_singleton.mp isLast]
      exact ⟨factor, scored.keeps.factorOf hasFactor⟩
  · intro elem id owns
    rw [isEntry] at owns
    by_cases isFavored : elem ∈ newFavoreds
    · rw [if_pos isFavored] at owns
      obtain rfl := Option.some.inj owns
      refine
        ⟨data.list, factor, List.mem_append_right _ List.mem_cons_self,
          scored.chosen.fromList elem isFavored, scored.keeps.factorOf hasFactor, ?_⟩
      intro other isOther isCovered
      rcases List.mem_append.mp isOther with before | isLast
      · exact held.not_higher steady scored isFavored before isCovered
      · rw [List.mem_singleton.mp isLast]
        exact ⟨factor, scored.keeps.factorOf hasFactor, le_refl factor⟩
    · rw [if_neg isFavored] at owns
      obtain ⟨list, ownFactor, isAdded, isListed, hasOwn, lowest⟩ :=
        held.best elem id owns
      refine
        ⟨list, ownFactor, List.mem_append_left _ isAdded, isListed,
          scored.keeps.factorOf hasOwn, ?_⟩
      intro other isOther isCovered
      rcases List.mem_append.mp isOther with before | isLast
      · obtain ⟨otherFactor, hasOther, notHigher⟩ := lowest other before isCovered
        exact ⟨otherFactor, scored.keeps.factorOf hasOther, notHigher⟩
      · rw [List.mem_singleton.mp isLast] at isCovered ⊢
        obtain ⟨old, oldFactor, isOld, hasOld, isLower⟩ :=
          scored.chosen.worse elem isCovered isFavored
        obtain rfl := Option.some.inj (owns.symm.trans isOld)
        rw [hasOwn.unique steady hasOld]
        exact ⟨factor, scored.keeps.factorOf hasFactor, isLower.le⟩
  · intro addition isAdded elem isListed
    rw [isEntry]
    by_cases isFavored : elem ∈ newFavoreds
    · rw [if_pos isFavored]
      exact ⟨idx, rfl⟩
    · rw [if_neg isFavored]
      rcases List.mem_append.mp isAdded with before | isLast
      · exact held.keys addition before elem isListed
      · rw [List.mem_singleton.mp isLast] at isListed
        obtain ⟨old, -, isOld, -⟩ := scored.chosen.worse elem isListed isFavored
        exact ⟨old, isOld⟩

omit [LinearOrder Factor] in
theorem FactorOf.insert
    (hasFactor : FactorOf penalty state idx factor)
    (testcase : Testcase Input) :
    FactorOf penalty { state with corpus := (state.corpus.add testcase).2 } idx
      factor := by
  obtain ⟨other, found, hasFactor⟩ := hasFactor
  refine ⟨other, InMemoryCorpus.find_add.trans ?_, hasFactor⟩
  rw [if_neg (InMemoryCorpus.lt_nextId (InMemoryCorpus.mem_ids.mpr ⟨other, found⟩)).ne]
  exact found

theorem BestHeld.same
    (held : BestHeld penalty added state)
    (same : Same state after) :
    BestHeld penalty added after :=
  held.keep (congrArg (fun map => map.getD .empty) same.topRateds)
    same.keepsScored.factorOf

variable {base : Hooks Input Outside}
variable {outside : Outside}

theorem BestHeld.refused
    (held : BestHeld penalty added state)
    (leaves : LeavesEntries (base.onAdd outside idx))
    {error : Error}
    (failed : (onAdd penalty base outside idx).outcome state = (.error error, after)) :
    BestHeld penalty added after := by
  have same := leaves state
  unfold onAdd at failed
  cases told : (base.onAdd outside idx).outcome state with
  | mk answer middle =>
      rw [told] at same
      cases answer with
      | error _ =>
          rw [outcome_bind_error told] at failed
          obtain ⟨-, rfl⟩ := Prod.ext_iff.mp failed
          exact held.same same
      | ok _ =>
          rw [outcome_bind_ok told] at failed
          have scoring := (updateScore_scores penalty idx).of_error rfl failed
          refine (held.same same).keep ?_ scoring.keeps.factorOf
          exact congrArg (fun map => map.getD .empty) scoring.topRateds

theorem onAdd_scores
    (leaves : LeavesEntries (base.onAdd outside idx))
    (returned : (onAdd penalty base outside idx).outcome state = (.ok (), after)) :
    ∃ middle testcase data factor newFavoreds,
      Same state middle ∧
        Scored penalty middle idx testcase data factor newFavoreds after := by
  have same := leaves state
  unfold onAdd at returned
  cases told : (base.onAdd outside idx).outcome state with
  | mk answer middle =>
      rw [told] at same
      cases answer with
      | error _ =>
          rw [outcome_bind_error told] at returned
          cases returned
      | ok _ =>
          rw [outcome_bind_ok told] at returned
          obtain ⟨testcase, data, factor, newFavoreds, scored⟩ :=
            (updateScore_scores penalty idx).of_ok rfl returned
          exact ⟨middle, testcase, data, factor, newFavoreds, same, scored⟩

theorem Same.list_eq
    {middle : State Input}
    (same : Same state middle)
    {testcase other : Testcase Input}
    {data otherData : IndexesMetadata}
    (found : state.corpus.find idx = some testcase)
    (hasData : testcase.mapIndexes = some data)
    (foundOther : middle.corpus.find idx = some other)
    (hasOther : other.mapIndexes = some otherData) :
    otherData = data := by
  have entry := same.entries idx
  rw [found, foundOther, Option.map_some, Option.map_some] at entry
  have sameData : other.mapIndexes = testcase.mapIndexes :=
    congrArg (fun entry => entry.2.2.1) (Option.some.inj entry)
  exact Option.some.inj (hasOther.symm.trans (sameData.trans hasData))

theorem Additions.bestHeld
    (steady : Steady penalty)
    (leaves : ∀ outside idx, LeavesEntries (base.onAdd outside idx))
    (run : Additions penalty base added state) :
    BestHeld penalty added state := by
  induction run with
  | start noMap =>
      refine ⟨nofun, ?_, nofun⟩
      intro elem id owns
      unfold bestEntries at owns
      rw [noMap] at owns
      cases owns
  | insert before testcase held =>
      exact held.keep rfl fun hasFactor => hasFactor.insert testcase
  | added before outside found hasData returned held =>
      obtain ⟨middle, other, otherData, factor, newFavoreds, same, scored⟩ :=
        onAdd_scores (leaves outside _) returned
      obtain rfl := same.list_eq found hasData scored.found scored.hasData
      exact (held.same same).scored_after steady scored
  | refused before outside failed held =>
      exact held.refused (leaves outside _) failed

/--
After any additions each index of an added list is mapped to an added entry whose list
contains it, and none that was added with the index has a lower penalty.
-/
theorem best_entry_of_each_index
    (steady : Steady penalty)
    (leaves : ∀ outside idx, LeavesEntries (base.onAdd outside idx))
    (run : Additions penalty base added state)
    {addition : Addition}
    (isAdded : addition ∈ added)
    (isListed : elem ∈ addition.list) :
    ∃ topRateds id,
      state.topRateds = some topRateds ∧
        topRateds.get elem = some id ∧ IsBest penalty added state elem id := by
  have held := run.bestHeld steady leaves
  obtain ⟨id, isBest⟩ := held.keys addition isAdded elem isListed
  have best := held.best elem id isBest
  unfold bestEntries at isBest
  cases isMap : state.topRateds with
  | none =>
      rw [isMap] at isBest
      cases isBest
  | some topRateds =>
      rw [isMap] at isBest
      exact ⟨topRateds, id, rfl, isBest, best⟩

end

/-- `LenTimeMulTestcaseScore`, with `Testcase::cached_len`. -/
def lenTimeMul (cachedLen : Option Input → Except Error Nat) : Penalty Input Nat :=
  fun entry _ => do
    let length ← cachedLen entry.input
    pure (entry.execTime.getD 1 * length)

theorem steady_lenTimeMul (cachedLen : Option Input → Except Error Nat) :
    Steady (lenTimeMul cachedLen) := by
  intro first second state other factor again sameData computed computedAgain
  have sameInput : first.input = second.input := congrArg Prod.fst sameData
  have sameTime : first.execTime = second.execTime := congrArg Prod.snd sameData
  unfold lenTimeMul at computed computedAgain
  rw [sameInput, sameTime, computedAgain] at computed
  exact (Except.ok.inj computed).symm

/-- Every input has length one. -/
def unitPenalty : Penalty Unit Nat :=
  lenTimeMul fun _ => .ok 1

/-- An entry that takes five milliseconds and has two indexes. -/
def slowEntry : Testcase Unit :=
  { Testcase.new () with execTime := some 5, mapIndexes := some ⟨[1, 2], 0⟩ }

/-- An entry that takes three milliseconds and has the second index. -/
def fastEntry : Testcase Unit :=
  { Testcase.new () with execTime := some 3, mapIndexes := some ⟨[2], 0⟩ }

/-- The slow entry is there. -/
def slowInserted : State Unit :=
  { (State.new : State Unit) with
    corpus := ((InMemoryCorpus.new : InMemoryCorpus (Testcase Unit)).add slowEntry).2 }

/-- The slow entry was added. -/
def slowAdded : State Unit :=
  ((onAdd unitPenalty plainBase () 0).outcome slowInserted).2

/-- The fast entry is there as well. -/
def fastInserted : State Unit :=
  { slowAdded with corpus := (slowAdded.corpus.add fastEntry).2 }

/-- Both entries were added. -/
def bothAdded : State Unit :=
  ((onAdd unitPenalty plainBase () 1).outcome fastInserted).2

theorem additions_bothAdded :
    Additions unitPenalty plainBase [⟨0, [1, 2]⟩, ⟨1, [2]⟩] bothAdded := by
  have start : Additions unitPenalty plainBase [] (State.new : State Unit) := .start rfl
  have slowIsNext : Additions unitPenalty plainBase [] slowInserted := start.insert _
  have slowReturned :
      (onAdd unitPenalty plainBase () 0).outcome slowInserted = (.ok (), slowAdded) := rfl
  have slowFound : slowInserted.corpus.find 0 = some slowEntry := rfl
  have slowData : slowEntry.mapIndexes = some ⟨[1, 2], 0⟩ := rfl
  have slow : Additions unitPenalty plainBase [⟨0, [1, 2]⟩] slowAdded :=
    slowIsNext.added () slowFound slowData slowReturned
  have fastIsNext : Additions unitPenalty plainBase [⟨0, [1, 2]⟩] fastInserted :=
    slow.insert _
  have fastReturned :
      (onAdd unitPenalty plainBase () 1).outcome fastInserted = (.ok (), bothAdded) := rfl
  have fastFound : fastInserted.corpus.find 1 = some fastEntry := rfl
  have fastData : fastEntry.mapIndexes = some ⟨[2], 0⟩ := rfl
  exact fastIsNext.added () fastFound fastData fastReturned

theorem best_entry_of_each_index_two_entries :
    ∃ topRateds id,
      bothAdded.topRateds = some topRateds ∧
        topRateds.get 2 = some id ∧
        IsBest unitPenalty [⟨0, [1, 2]⟩, ⟨1, [2]⟩] bothAdded 2 id :=
  best_entry_of_each_index (steady_lenTimeMul _) (fun _ _ _ => Same.refl _)
    additions_bothAdded List.mem_cons_self (List.mem_cons_of_mem _ List.mem_cons_self)

end MeFuzz.Scheduler.MinimizerScheduler
