import MeFuzz.MinimizerScheduling

namespace MeFuzz.Scheduler.MinimizerScheduler

open Corpus (CorpusId Error InMemoryCorpus)
open Procedure

/-!
# Consistency of the tables

Each index of the map belongs to a live entry that lists it and counts the indexes that
it is kept for.  An index that is taken over is counted off at once and comes into the
map later, so in between the count is that of the indexes not taken yet.  A replaced
entry keeps its place in the map, even at indexes that it does not list any more.
-/

variable {Input Outside Factor : Type}
variable {state after now : State Input}
variable {idx id : CorpusId}
variable {map : TopRatedsMetadata}
variable {elem count : Nat}

theorem nodup_owned (map : TopRatedsMetadata) (id : CorpusId) : (owned map id).Nodup := by
  have sublist : (owned map id).Sublist map.keys := (List.filter_sublist).map Prod.fst
  exact sublist.nodup map.nodup_keys

/-- The indexes of an entry that have not been taken over. -/
def remaining (map : TopRatedsMetadata) (id : CorpusId) (taken : List Nat) : List Nat :=
  (owned map id).filter fun elem => elem ∉ taken

theorem mem_remaining
    {taken : List Nat} :
    elem ∈ remaining map id taken ↔ map.get elem = some id ∧ elem ∉ taken := by
  unfold remaining
  rw [List.mem_filter, mem_owned, decide_eq_true_iff]

theorem remaining_nil : remaining map id [] = owned map id := by
  simp [remaining]

theorem remaining_other
    {taken : List Nat}
    (other : map.get elem ≠ some id) :
    remaining map id (taken ++ [elem]) = remaining map id taken := by
  refine List.filter_congr fun index isOwned => ?_
  have different : index ≠ elem := by
    rintro rfl
    exact other (mem_owned.mp isOwned)
  simp [different]

theorem length_remaining
    {taken : List Nat}
    (isOwned : map.get elem = some id)
    (notTaken : elem ∉ taken) :
    (remaining map id taken).length = (remaining map id (taken ++ [elem])).length + 1 := by
  have nodup : ∀ taken, (remaining map id taken).Nodup :=
    fun taken => (nodup_owned map id).filter fun elem => decide (elem ∉ taken)
  have same :
      (remaining map id taken).Perm (elem :: remaining map id (taken ++ [elem])) := by
    refine (List.perm_ext_iff_of_nodup (nodup _) (List.nodup_cons.mpr ⟨?_, nodup _⟩)).mpr ?_
    · simp [mem_remaining]
    · intro index
      rw [List.mem_cons]
      by_cases isElem : index = elem
      · subst isElem
        exact iff_of_true (mem_remaining.mpr ⟨isOwned, notTaken⟩) (.inl rfl)
      · simp [mem_remaining, isElem]
  exact same.length_eq

/-- A live entry lists an index, and counts a number of them. -/
def Held (state : State Input) (elem : Nat) (id : CorpusId) (count : Nat) : Prop :=
  ∃ testcase data,
    state.corpus.find id = some testcase ∧
      testcase.mapIndexes = some data ∧
      elem ∈ data.list ∧ data.tcref = count

/-- Whatever the map says holds of the entries. -/
def Consistent (state : State Input) : Prop :=
  ∀ map,
    state.topRateds = some map →
    ∀ elem id, map.get elem = some id → Held state elem id (owned map id).length

/-- The metadata of an entry is the same. -/
def SameIndexes (before after : State Input) (id : CorpusId) : Prop :=
  (after.corpus.find id).map Testcase.mapIndexes =
    (before.corpus.find id).map Testcase.mapIndexes

theorem Held.of_same
    (held : Held state elem id count)
    (same : SameIndexes state after id) :
    Held after elem id count := by
  obtain ⟨testcase, data, found, hasData, isListed, isCount⟩ := held
  unfold SameIndexes at same
  rw [found, Option.map_some] at same
  obtain ⟨other, foundOther, sameIndexes⟩ := Option.map_eq_some_iff.mp same
  exact ⟨other, data, foundOther, sameIndexes.trans hasData, isListed, isCount⟩

theorem Same.sameIndexes (same : Same state after) (id : CorpusId) :
    SameIndexes state after id := by
  have entry := congrArg (Option.map fun data => data.2.2.1) (same.entries id)
  rw [Option.map_map, Option.map_map] at entry
  exact entry

theorem Consistent.of_same
    (consistent : Consistent state)
    (same : Same state after) :
    Consistent after := by
  intro map isMap elem id owns
  exact
    (consistent map (same.topRateds.symm.trans isMap) elem id owns).of_same
      (same.sameIndexes id)

/-- The loop over the indexes of an entry: what it has taken is counted off. -/
structure Taking
    (map : TopRatedsMetadata)
    (idx : CorpusId)
    (done taken : List Nat)
    (now : State Input) : Prop where
  topRateds : now.topRateds = some map
  live : ∃ testcase, now.corpus.find idx = some testcase
  fromDone : ∀ elem ∈ taken, elem ∈ done
  distinct : taken.Nodup
  own : ∀ elem ∈ done, map.get elem = some idx → elem ∈ taken
  held :
    ∀ elem id,
      map.get elem = some id →
      id ≠ idx →
      elem ∉ taken →
      Held now elem id (remaining map id taken).length

variable {done taken : List Nat}

theorem Taking.snoc
    (taking : Taking map idx done taken now)
    (isNew : elem ∉ done)
    (noOther : ∀ id, map.get elem = some id → id = idx) :
    Taking map idx (done ++ [elem]) (taken ++ [elem]) now where
  topRateds := taking.topRateds
  live := taking.live
  fromDone := fun index isTaken => by
    rcases List.mem_append.mp isTaken with before | isLast
    · exact List.mem_append_left _ (taking.fromDone index before)
    · exact List.mem_append_right _ isLast
  distinct := by
    refine List.nodup_append.mpr ⟨taking.distinct, List.nodup_singleton _, ?_⟩
    rintro index isTaken _ isLast rfl
    rw [List.mem_singleton.mp isLast] at isTaken
    exact isNew (taking.fromDone elem isTaken)
  own := fun index isDone owns => by
    rcases List.mem_append.mp isDone with before | isLast
    · exact List.mem_append_left _ (taking.own index before owns)
    · exact List.mem_append_right _ isLast
  held := fun index id owns different notTaken => by
    rw [List.mem_append, not_or] at notTaken
    rw [remaining_other fun isOwned => different (noOther id isOwned)]
    exact taking.held index id owns different notTaken.1

theorem Taking.skip
    (taking : Taking map idx done taken now)
    {old : CorpusId}
    (isHeld : map.get elem = some old)
    (different : old ≠ idx) :
    Taking map idx (done ++ [elem]) taken now where
  topRateds := taking.topRateds
  live := taking.live
  fromDone := fun index isTaken => List.mem_append_left _ (taking.fromDone index isTaken)
  distinct := taking.distinct
  own := fun index isDone owns => by
    rcases List.mem_append.mp isDone with before | isLast
    · exact taking.own index before owns
    · rw [List.mem_singleton.mp isLast] at owns
      exact absurd (Option.some.inj (isHeld.symm.trans owns)) different
  held := taking.held

theorem Taking.takeOver
    (taking : Taking map idx done taken now)
    (isNew : elem ∉ done)
    {old : CorpusId}
    {testcase : Testcase Input}
    {data : IndexesMetadata}
    (isHeld : map.get elem = some old)
    (different : old ≠ idx)
    (found : now.corpus.find old = some testcase)
    (hasData : testcase.mapIndexes = some data) :
    Taking map idx (done ++ [elem]) (taken ++ [elem])
      { now with
        corpus :=
          now.corpus.modify old fun testcase =>
            { testcase with mapIndexes := released data } } := by
  have notTaken : elem ∉ taken := fun isTaken => isNew (taking.fromDone elem isTaken)
  refine ⟨taking.topRateds, ?_, ?_, ?_, ?_, ?_⟩
  · obtain ⟨own, isOwn⟩ := taking.live
    exact ⟨own, InMemoryCorpus.find_modify.trans ((if_neg different.symm).trans isOwn)⟩
  · intro index isTaken
    rcases List.mem_append.mp isTaken with before | isLast
    · exact List.mem_append_left _ (taking.fromDone index before)
    · exact List.mem_append_right _ isLast
  · refine List.nodup_append.mpr ⟨taking.distinct, List.nodup_singleton _, ?_⟩
    rintro index isTaken _ isLast rfl
    rw [List.mem_singleton.mp isLast] at isTaken
    exact notTaken isTaken
  · intro index isDone owns
    rcases List.mem_append.mp isDone with before | isLast
    · exact List.mem_append_left _ (taking.own index before owns)
    · exact List.mem_append_right _ isLast
  · intro index id owns notIdx isLeft
    rw [List.mem_append, not_or] at isLeft
    have held := taking.held index id owns notIdx isLeft.1
    by_cases isOld : id = old
    · subst isOld
      obtain ⟨_, _, foundAgain, hasAgain, isListed, isCount⟩ := held
      obtain rfl := Option.some.inj (found.symm.trans foundAgain)
      obtain rfl := Option.some.inj (hasData.symm.trans hasAgain)
      rw [length_remaining isHeld notTaken] at isCount
      have positive : 0 < (remaining map id (taken ++ [elem])).length := by
        refine List.length_pos_of_mem (mem_remaining.mpr ⟨owns, ?_⟩)
        rw [List.mem_append, not_or]
        exact isLeft
      have stays : released data = some { data with tcref := data.tcref - 1 } :=
        if_neg (by omega)
      refine
        ⟨{ testcase with mapIndexes := released data },
          { data with tcref := data.tcref - 1 }, ?_, stays, isListed, ?_⟩
      · refine InMemoryCorpus.find_modify.trans ((if_pos rfl).trans ?_)
        rw [found]
        rfl
      · change data.tcref - 1 = _
        omega
    · rw [remaining_other fun isOwned =>
        isOld (Option.some.inj (isOwned.symm.trans isHeld))]
      refine held.of_same ?_
      unfold SameIndexes
      rw [show _ = now.corpus.find id from
        InMemoryCorpus.find_modify.trans (if_neg isOld)]

section

variable [LinearOrder Factor]
variable {penalty : Penalty Input Factor}
variable {factor : Factor}

theorem favor_takes (isNew : elem ∉ done) :
    Satisfies (Taking map idx done taken)
      (favor penalty idx factor taken elem)
      (fun taken => Taking map idx (done ++ [elem]) taken)
      fun _ _ => True := by
  intro now taking
  unfold favor
  rw [outcome_bind_ok outcome_get,
    outcome_bind_ok (outcome_orPanic taking.topRateds)]
  dsimp only
  cases isHolder : map.get elem with
  | none =>
      refine taking.snoc isNew fun id owns => ?_
      cases isHolder.symm.trans owns
  | some old =>
      dsimp only
      by_cases isSelf : old = idx
      · rw [if_pos isSelf]
        refine taking.snoc isNew fun id owns => ?_
        exact (Option.some.inj (owns.symm.trans isHolder)).trans isSelf
      · rw [if_neg isSelf]
        refine
          (((@getTestcase_reads _ (fun other => other = now) old).weaken
            (fun _ same => same) (fun _ _ both => both) fun _ _ _ => trivial).bind
            fun testcase => ?_) now rfl
        refine
          ((computePenalty_reads penalty testcase).weaken (fun _ both => both)
            (fun _ _ both => both) fun _ _ _ => trivial).bind fun oldFactor => ?_
        rintro _ ⟨⟨rfl, found⟩, -⟩
        by_cases isWorse : oldFactor < factor
        · rw [if_pos isWorse]
          exact taking.skip isHolder isSelf
        · rw [if_neg isWorse]
          cases hasData : testcase.mapIndexes with
          | none =>
              trivial
          | some data =>
              exact taking.takeOver isNew isHolder isSelf found hasData

theorem favors_take
    {list : List Nat}
    (distinct : list.Nodup) :
    Satisfies (Taking map idx [] [])
      (list.foldlM (favor penalty idx factor) [])
      (fun taken => Taking map idx list taken)
      fun _ _ => True := by
  refine @Satisfies.foldlM _ _ _ _ _ (Taking map idx) _ _ ?_ _
  intro done elem rest taken split
  refine favor_takes ?_
  rw [split] at distinct
  obtain ⟨-, -, apart⟩ := List.nodup_append.mp distinct
  exact fun isDone => apart elem isDone elem List.mem_cons_self rfl

/-- Whatever the map says of other entries holds of them. -/
def OthersHeld (state : State Input) (idx : CorpusId) : Prop :=
  ∀ map,
    state.topRateds = some map →
    ∀ elem id,
      map.get elem = some id → id ≠ idx → Held state elem id (owned map id).length

/-- The tables before the score of an entry is updated. -/
structure BeforeUpdate (state : State Input) (idx : CorpusId) : Prop where
  others : OthersHeld state idx
  lists :
    ∀ testcase data,
      state.corpus.find idx = some testcase →
      testcase.mapIndexes = some data →
      data.list.Nodup ∧
        ∀ map, state.topRateds = some map → ∀ elem ∈ owned map idx, elem ∈ data.list

theorem BeforeUpdate.of_same
    (before : BeforeUpdate state idx)
    (same : Same state after) :
    BeforeUpdate after idx := by
  refine ⟨?_, ?_⟩
  · intro map isMap elem id owns different
    exact
      (before.others map (same.topRateds.symm.trans isMap) elem id owns
        different).of_same (same.sameIndexes id)
  · intro testcase data found hasData
    have sameIndexes := same.sameIndexes idx
    unfold SameIndexes at sameIndexes
    rw [found, Option.map_some] at sameIndexes
    obtain ⟨other, foundBefore, isSame⟩ := Option.map_eq_some_iff.mp sameIndexes.symm
    rw [same.topRateds]
    exact before.lists other data foundBefore (isSame.trans hasData)

theorem Taking.consistent
    {list : List Nat}
    (taking : Taking map idx list taken now)
    (ownListed : ∀ elem ∈ owned map idx, elem ∈ list)
    (own : ∀ elem ∈ taken, Held after elem idx taken.length)
    (others : ∀ id, id ≠ idx → SameIndexes now after id)
    (isMap :
      after.topRateds = some (map.insertAll (taken.map fun elem => (elem, idx)))) :
    Consistent after := by
  intro afterMap isAfterMap elem id owns
  obtain rfl := Option.some.inj (isMap.symm.trans isAfterMap)
  have get :
      ∀ elem,
        (map.insertAll (taken.map fun elem => (elem, idx))).get elem =
          if elem ∈ taken then some idx else map.get elem :=
    fun elem => OrderedMap.get_insertAll_const taken idx
  have isOwned :
      ∀ index other,
        index ∈ owned (map.insertAll (taken.map fun elem => (elem, idx))) other ↔
          if other = idx then index ∈ taken else index ∈ remaining map other taken := by
    intro index other
    rw [mem_owned, get]
    by_cases isTaken : index ∈ taken
    · rw [if_pos isTaken]
      by_cases isIdx : other = idx
      · simp [isIdx, isTaken]
      · simp [isIdx, isTaken, mem_remaining, Ne.symm isIdx]
    · rw [if_neg isTaken]
      by_cases isIdx : other = idx
      · subst isIdx
        rw [if_pos rfl]
        refine iff_of_false ?_ isTaken
        exact fun owns => isTaken (taking.own index (ownListed index (mem_owned.mpr owns)) owns)
      · simp [isIdx, isTaken, mem_remaining]
  have length :
      (owned (map.insertAll (taken.map fun elem => (elem, idx))) id).length =
        if id = idx then taken.length else (remaining map id taken).length := by
    have nodup := nodup_owned (map.insertAll (taken.map fun elem => (elem, idx))) id
    by_cases isIdx : id = idx
    · rw [if_pos isIdx]
      refine
        ((List.perm_ext_iff_of_nodup nodup taking.distinct).mpr fun index => ?_).length_eq
      rw [isOwned, if_pos isIdx]
    · rw [if_neg isIdx]
      have distinct : (remaining map id taken).Nodup := (nodup_owned map id).filter _
      refine ((List.perm_ext_iff_of_nodup nodup distinct).mpr fun index => ?_).length_eq
      rw [isOwned, if_neg isIdx]
  have isMember := (isOwned elem id).mp (mem_owned.mpr owns)
  rw [length]
  by_cases isIdx : id = idx
  · subst isIdx
    rw [if_pos rfl] at isMember ⊢
    exact own elem isMember
  · rw [if_neg isIdx] at isMember ⊢
    obtain ⟨isHeld, notTaken⟩ := mem_remaining.mp isMember
    exact (taking.held elem id isHeld isIdx notTaken).of_same (others id isIdx)

theorem updateScore_consistent (penalty : Penalty Input Factor) (idx : CorpusId) :
    Satisfies (fun now => now = state ∧ BeforeUpdate state idx)
      (updateScore penalty idx) (fun _ => Consistent) fun _ _ => True := by
  rintro start ⟨rfl, before⟩
  unfold updateScore
  rw [outcome_bind_ok (outcome_modify _)]
  let map := start.topRateds.getD .empty
  let now := { start with topRateds := some map }
  refine
    (((@getTestcase_reads _ (fun other => other = now) idx).weaken
      (fun _ same => same) (fun _ _ both => both) fun _ _ _ => trivial).bind
      fun testcase => ?_) now rfl
  refine
    ((computePenalty_reads penalty testcase).weaken (fun _ both => both)
      (fun _ _ both => both) fun _ _ _ => trivial).bind fun factor => ?_
  refine
    ((orKeyNotFound_reads (noIndexes idx) testcase.mapIndexes).weaken
      (fun _ both => both) (fun _ _ both => both) fun _ _ _ => trivial).bind
      fun data => ?_
  rintro _ ⟨⟨⟨rfl, found⟩, -⟩, hasData⟩
  have isStart :
      ∀ {elem id}, map.get elem = some id → start.topRateds = some map := by
    intro elem id owns
    cases isMap : start.topRateds with
    | none =>
        have isEmpty : map = .empty := congrArg (fun found => found.getD .empty) isMap
        rw [isEmpty] at owns
        cases owns
    | some other =>
        exact congrArg (fun found => some (found.getD .empty)) isMap.symm
  obtain ⟨distinct, ownListed⟩ := before.lists testcase data found hasData
  have start : Taking map idx [] [] now := by
    refine ⟨rfl, ⟨testcase, found⟩, nofun, List.nodup_nil, nofun, ?_⟩
    intro elem id owns different _
    rw [remaining_nil]
    exact before.others map (isStart owns) elem id owns different
  refine ((favors_take distinct).bind fun taken => ?_) now start
  intro later taking
  rw [outcome_bind_ok outcome_updateTestcase]
  have listed : ∀ elem ∈ owned map idx, elem ∈ data.list := by
    intro elem isOwned
    exact ownListed map (isStart (mem_owned.mp isOwned)) elem isOwned
  have others :
      ∀ (change : Testcase Input → Testcase Input) (state : State Input) id,
        id ≠ idx →
        SameIndexes state { state with corpus := state.corpus.modify idx change } id := by
    intro change state id different
    unfold SameIndexes
    rw [show _ = state.corpus.find id from
      InMemoryCorpus.find_modify.trans (if_neg different)]
  by_cases isEmpty : taken.isEmpty = true
  · rw [if_pos isEmpty]
    obtain rfl := List.isEmpty_iff.mp isEmpty
    refine taking.consistent listed nofun (fun id different => ?_) taking.topRateds
    exact (others _ _ id different).trans (others _ later id different)
  · rw [if_neg isEmpty]
    obtain ⟨own, isOwn⟩ := taking.live
    refine taking.consistent listed (fun elem isTaken => ?_) (others _ later) ?_
    · refine
        ⟨{ own with mapIndexes := some { data with tcref := taken.length } },
          { data with tcref := taken.length }, ?_, rfl, taking.fromDone elem isTaken, rfl⟩
      refine InMemoryCorpus.find_modify.trans ((if_pos rfl).trans ?_)
      rw [isOwn]
      rfl
    · exact
        congrArg
          (Option.map fun map => map.insertAll (taken.map fun elem => (elem, idx)))
          taking.topRateds

theorem hook_then_update
    {hook : Hook Input Unit}
    (leaves : LeavesEntries hook)
    (penalty : Penalty Input Factor)
    (before : BeforeUpdate state idx) :
    Satisfies (fun now => now = state)
      (do
        hook
        updateScore penalty idx)
      (fun _ => Consistent) fun _ _ => True := by
  rintro start rfl
  have same := leaves start
  cases told : hook.outcome start with
  | mk answer middle =>
      rw [told] at same
      cases answer with
      | error _ =>
          rw [outcome_bind_error told]
          trivial
      | ok _ =>
          rw [outcome_bind_ok told]
          exact
            updateScore_consistent penalty idx middle ⟨rfl, before.of_same same⟩

end

/-- The list of a testcase has no repetitions. -/
def ListsOnce (testcase : Testcase Input) : Prop :=
  ∀ data, testcase.mapIndexes = some data → data.list.Nodup

/-- A testcase lists all indexes of the map that an entry has. -/
def ListsOwned (state : State Input) (idx : CorpusId) (testcase : Testcase Input) : Prop :=
  ∀ elem, Maps state elem idx → Covers testcase elem

theorem Consistent.othersHeld (consistent : Consistent state) : OthersHeld state idx :=
  fun map isMap elem id owns _ => consistent map isMap elem id owns

theorem OthersHeld.of_same
    (held : OthersHeld state idx)
    (sameMap : after.topRateds = state.topRateds)
    (same : ∀ id, id ≠ idx → SameIndexes state after id) :
    OthersHeld after idx :=
  fun map isMap elem id owns different =>
    (held map (sameMap.symm.trans isMap) elem id owns different).of_same (same id different)

theorem Consistent.beforeUpdate_add
    (consistent : Consistent state)
    {testcase : Testcase Input}
    (listsOnce : ListsOnce testcase) :
    BeforeUpdate { state with corpus := (state.corpus.add testcase).2 }
      state.corpus.nextId := by
  have find :
      ∀ id,
        (state.corpus.add testcase).2.find id =
          if id = state.corpus.nextId then some testcase else state.corpus.find id :=
    fun id => InMemoryCorpus.find_add
  refine ⟨consistent.othersHeld.of_same rfl fun id different => ?_, ?_⟩
  · unfold SameIndexes
    rw [find, if_neg different]
  · intro other data found hasData
    rw [find, if_pos rfl] at found
    obtain rfl := Option.some.inj found
    refine ⟨listsOnce data hasData, fun map isMap elem isOwned => ?_⟩
    obtain ⟨old, -, isLive, -⟩ := consistent map isMap elem _ (mem_owned.mp isOwned)
    exact
      absurd (InMemoryCorpus.lt_nextId (InMemoryCorpus.mem_ids.mpr ⟨old, isLive⟩))
        (lt_irrefl _)

theorem Consistent.beforeUpdate_replace
    (consistent : Consistent state)
    {testcase : Testcase Input}
    (listsOnce : ListsOnce testcase)
    (listsOwned : ListsOwned state idx testcase) :
    BeforeUpdate { state with corpus := state.corpus.modify idx fun _ => testcase }
      idx := by
  refine ⟨consistent.othersHeld.of_same rfl fun id different => ?_, ?_⟩
  · unfold SameIndexes
    rw [show _ = state.corpus.find id from
      InMemoryCorpus.find_modify.trans (if_neg different)]
  · intro other data found hasData
    have isTestcase : other = testcase := by
      obtain ⟨_, -, isOther⟩ :=
        Option.map_eq_some_iff.mp
          ((InMemoryCorpus.find_modify.trans (if_pos rfl)).symm.trans found)
      exact isOther.symm
    subst isTestcase
    refine ⟨listsOnce data hasData, fun map isMap elem isOwned => ?_⟩
    obtain ⟨_, hasAgain, isListed⟩ := listsOwned elem ⟨map, isMap, mem_owned.mp isOwned⟩
    obtain rfl := Option.some.inj (hasData.symm.trans hasAgain)
    exact isListed

theorem OthersHeld.drained
    (held : OthersHeld state idx)
    (isMap : state.topRateds = some map) :
    Consistent (drained state map idx) := by
  rintro _ ⟨⟩ elem id owns
  have get :
      ∀ elem,
        (map.eraseAll (owned map idx)).get elem =
          if elem ∈ owned map idx then none else map.get elem :=
    fun elem => OrderedMap.get_eraseAll _
  rw [get] at owns
  split at owns
  · cases owns
  · rename_i notOwned
    have different : id ≠ idx := by
      rintro rfl
      exact notOwned (mem_owned.mpr owns)
    have same : (owned (map.eraseAll (owned map idx)) id).Perm (owned map id) := by
      refine (List.perm_ext_iff_of_nodup (nodup_owned _ _) (nodup_owned _ _)).mpr ?_
      intro index
      rw [mem_owned, mem_owned, get]
      by_cases isOwned : index ∈ owned map idx
      · rw [if_pos isOwned, mem_owned.mp isOwned]
        simp [Ne.symm different]
      · rw [if_neg isOwned]
    rw [same.length_eq]
    exact held map isMap elem id owns different

/-- Consistent tables with this map. -/
def ConsistentWith (map : TopRatedsMetadata) (state : State Input) : Prop :=
  state.topRateds = some map ∧ Consistent state

theorem favorEntry_consistent
    {acc : Finset Nat}
    {entry : Nat × CorpusId}
    (isEntry : map.get entry.1 = some entry.2) :
    Satisfies (ConsistentWith map : State Input → Prop) (favorEntry acc entry)
      (fun _ => ConsistentWith map) fun _ _ => False := by
  rintro state ⟨isMap, consistent⟩
  unfold favorEntry
  by_cases isSeen : entry.1 ∈ acc
  · rw [if_pos isSeen]
    exact ⟨isMap, consistent⟩
  · rw [if_neg isSeen]
    obtain ⟨testcase, data, found, hasData, -⟩ := consistent map isMap _ _ isEntry
    rw [outcome_bind_ok (outcome_getTestcase_ok found),
      outcome_bind_ok (outcome_orKeyNotFound hasData),
      outcome_bind_ok outcome_updateTestcase]
    refine ⟨isMap, fun other isOther elem id owns => ?_⟩
    refine (consistent other isOther elem id owns).of_same ?_
    unfold SameIndexes
    rw [find_favored]
    split
    · rw [Option.map_map]
      rfl
    · rfl

theorem cull_consistent (order : WalkOrder) :
    Satisfies (Consistent : State Input → Prop) (cull order) (fun _ => Consistent)
      fun _ _ => False := by
  intro state consistent
  unfold cull
  rw [outcome_bind_ok outcome_get]
  cases isMap : state.topRateds with
  | none =>
      exact consistent
  | some map =>
      have walk :
          Satisfies (ConsistentWith map : State Input → Prop)
            ((order.walk map).foldlM favorEntry ∅)
            (fun _ => ConsistentWith map) fun _ _ => False := by
        refine
          @Satisfies.foldlM _ _ _ _ _ (fun _ _ => ConsistentWith map) _ _ ?_ _
        intro walked entry rest acc split
        have isWalked : entry ∈ order.walk map := by
          rw [split]
          simp
        exact favorEntry_consistent (WalkOrder.mem_walk.mp isWalked)
      exact (walk.bind fun _ => Satisfies.pure fun _ both => both.2) state ⟨isMap, consistent⟩

/-- What a base scheduler leaves alone, and that it selects live entries. -/
structure BaseLaws (base : Hooks Input Outside) : Prop where
  onAdd : ∀ outside idx, LeavesEntries (base.onAdd outside idx)
  onReplace : ∀ outside idx prev, LeavesEntries (base.onReplace outside idx prev)
  onRemove : ∀ outside idx prev, LeavesEntries (base.onRemove outside idx prev)
  next : ∀ outside, LeavesEntries (base.next outside)
  live :
    ∀ {outside state idx after},
      (base.next outside).outcome state = (.ok idx, after) →
      ∃ testcase, after.corpus.find idx = some testcase

/-- The base scheduler has failed to select an entry. -/
def BaseFails (base : Hooks Input Outside) (error : Error) : Prop :=
  ∃ outside state after, (base.next outside).outcome state = (.error error, after)

variable {base : Hooks Input Outside}

theorem BaseLaws.selects
    (laws : BaseLaws base)
    (outside : Outside) :
    Satisfies Consistent (base.next outside)
      (fun idx now =>
        Consistent now ∧ ∃ testcase, now.corpus.find idx = some testcase)
      fun error _ => BaseFails base error := by
  intro state consistent
  have same := laws.next outside state
  cases selects : (base.next outside).outcome state with
  | mk answer middle =>
      rw [selects] at same
      cases answer with
      | error error =>
          exact ⟨outside, state, middle, selects⟩
      | ok idx =>
          exact ⟨consistent.of_same same, laws.live selects⟩

theorem skipNonFavored_consistent
    (laws : BaseLaws base)
    (skipNonFavoredProb : Nat)
    (draws : List (Nat × Outside))
    (idx : CorpusId) :
    Satisfies
      (fun now => Consistent now ∧ ∃ testcase, now.corpus.find idx = some testcase)
      (skipNonFavored base skipNonFavoredProb draws idx)
      (fun _ => Consistent) fun error _ => BaseFails base error := by
  induction draws generalizing idx with
  | nil =>
      rintro state ⟨consistent, testcase, found⟩
      unfold skipNonFavored
      rw [outcome_bind_ok (outcome_getTestcase_ok found)]
      by_cases isFavored : testcase.isFavored = true
      · rw [if_pos isFavored]
        exact consistent
      · rw [if_neg isFavored]
        exact consistent
  | cons draw draws ih =>
      rintro state ⟨consistent, testcase, found⟩
      unfold skipNonFavored
      rw [outcome_bind_ok (outcome_getTestcase_ok found)]
      by_cases isFavored : testcase.isFavored = true
      · rw [if_pos isFavored]
        exact consistent
      · rw [if_neg isFavored]
        by_cases isSkipped : draw.1 < skipNonFavoredProb
        · rw [if_pos isSkipped]
          exact
            ((laws.selects draw.2).bind fun idx => ih idx) state
              consistent
        · rw [if_neg isSkipped]
          exact consistent

theorem next_consistent
    (laws : BaseLaws base)
    (skipNonFavoredProb : Nat)
    (order : WalkOrder)
    (outside : Outside)
    (draws : List (Nat × Outside)) :
    Satisfies Consistent (next base skipNonFavoredProb order outside draws)
      (fun _ => Consistent) fun error _ => BaseFails base error := by
  unfold next
  refine
    ((cull_consistent order).weaken (fun _ consistent => consistent)
      (fun _ _ consistent => consistent) fun _ _ => False.elim).bind fun _ => ?_
  exact
    (laws.selects outside).bind fun idx =>
      skipNonFavored_consistent laws skipNonFavoredProb draws idx

/-- What happens to the scheduler. -/
inductive Call (Input Outside : Type) where
  | onAdd (outside : Outside) (testcase : Testcase Input)
  | onReplace (outside : Outside) (idx : CorpusId) (testcase : Testcase Input)
  | onRemove (outside : Outside) (idx : CorpusId)
  | next (order : WalkOrder) (outside : Outside) (draws : List (Nat × Outside))

section

variable [LinearOrder Factor]
variable (penalty : Penalty Input Factor)
variable (base : Hooks Input Outside)
variable (skipNonFavoredProb : Nat)

/--
The corpus is changed and the scheduler is told, or it is asked, and the call returns.
Feedbacks list each index once.
-/
inductive Returns : StepRelation (State Input) (Call Input Outside) where
  | onAdd
      {state after : State Input}
      {outside : Outside}
      {testcase : Testcase Input}
      (listsOnce : ListsOnce testcase)
      (returned :
        (onAdd penalty base outside state.corpus.nextId).outcome
            { state with corpus := (state.corpus.add testcase).2 } =
          (.ok (), after)) :
      Returns state (.onAdd outside testcase) after
  | onReplace
      {state after : State Input}
      {outside : Outside}
      {idx : CorpusId}
      {testcase prev : Testcase Input}
      (listsOnce : ListsOnce testcase)
      (found : state.corpus.find idx = some prev)
      (returned :
        (onReplace penalty base outside idx prev).outcome
            { state with corpus := state.corpus.modify idx fun _ => testcase } =
          (.ok (), after)) :
      Returns state (.onReplace outside idx testcase) after
  | onRemove
      {state after : State Input}
      {outside : Outside}
      {idx : CorpusId}
      {prev : Testcase Input}
      {fuel : Nat}
      (found : state.corpus.find idx = some prev)
      (returned :
        (onRemove penalty base outside idx fuel (some prev)).outcome
            { state with corpus := state.corpus.removed idx } =
          (.ok true, after)) :
      Returns state (.onRemove outside idx) after
  | next
      {state after : State Input}
      {order : WalkOrder}
      {outside : Outside}
      {draws : List (Nat × Outside)}
      {selected : CorpusId}
      (returned :
        (next base skipNonFavoredProb order outside draws).outcome state =
          (.ok (some selected), after)) :
      Returns state (.next order outside draws) after

/-- A replaced entry still lists the indexes that it has in the map. -/
def KeepsPlaces (state : State Input) : Call Input Outside → Prop
  | .onReplace _ idx testcase => ListsOwned state idx testcase
  | _ => True

variable {penalty}
variable {skipNonFavoredProb}

theorem onRemove_consistent
    {base : Hooks Input Outside}
    (laws : BaseLaws base)
    (consistent : Consistent state)
    {outside : Outside}
    {fuel : Nat}
    {prev : Option (Testcase Input)}
    (returned :
      (onRemove penalty base outside idx fuel prev).outcome
          { state with corpus := state.corpus.removed idx } =
        (.ok true, after)) :
    Consistent after := by
  have others : OthersHeld { state with corpus := state.corpus.removed idx } idx := by
    refine consistent.othersHeld.of_same rfl fun id different => ?_
    unfold SameIndexes
    rw [show _ = state.corpus.find id from
      InMemoryCorpus.find_removed.trans (if_neg different)]
  have same :=
    laws.onRemove outside idx prev { state with corpus := state.corpus.removed idx }
  unfold onRemove at returned
  cases told :
      (base.onRemove outside idx prev).outcome
        { state with corpus := state.corpus.removed idx } with
  | mk answer middle =>
      rw [told] at same
      cases answer with
      | error _ =>
          rw [outcome_bind_error told] at returned
          cases returned
      | ok _ =>
          rw [outcome_bind_ok told] at returned
          have held := others.of_same same.topRateds fun id _ => same.sameIndexes id
          cases isMap : middle.topRateds with
          | none =>
              unfold reassignAll at returned
              rw [outcome_bind_ok outcome_get, isMap] at returned
              obtain ⟨-, rfl⟩ := Prod.ext_iff.mp returned
              intro map isSome
              cases isMap.symm.trans isSome
          | some map =>
              have drains := (reassignAll_drains isMap).of_ok rfl returned
              rw [drains rfl]
              exact held.drained isMap

theorem Consistent.step
    {base : Hooks Input Outside}
    (laws : BaseLaws base)
    (consistent : Consistent state)
    {call : Call Input Outside}
    (returns : Returns penalty base skipNonFavoredProb state call after)
    (keeps : KeepsPlaces state call) :
    Consistent after := by
  cases returns with
  | onAdd listsOnce returned =>
      exact
        (hook_then_update (laws.onAdd _ _) penalty
          (consistent.beforeUpdate_add listsOnce)).of_ok rfl returned
  | onReplace listsOnce found returned =>
      exact
        (hook_then_update (laws.onReplace _ _ _) penalty
          (consistent.beforeUpdate_replace listsOnce keeps)).of_ok rfl returned
  | onRemove found returned =>
      exact onRemove_consistent laws consistent returned
  | next returned =>
      exact (next_consistent laws _ _ _ _).of_ok consistent returned

end

/-- A testcase with these indexes. -/
def listing (list : List Nat) : Testcase Unit :=
  { Testcase.new () with mapIndexes := some ⟨list, 0⟩ }

end MeFuzz.Scheduler.MinimizerScheduler
