import MeFuzz.MinimizerScheduler

namespace MeFuzz.Scheduler.MinimizerScheduler

open Corpus (CorpusId Error InMemoryCorpus)
open Procedure

/-!
# The best entries

An entry takes over the indexes at which its penalty is not higher than that of the
entry before, so additions leave each index with the lowest penalty of all.  Culling
covers the indexes in any order.  A removed entry's indexes go to no one: the merge
that looks for their new entries does not go on once it has found one.
-/

variable {Input Outside Factor : Type}
variable {state : State Input}
variable {idx : CorpusId}

section

variable {kept : State Input → Prop}

theorem getTestcase_reads (idx : CorpusId) :
    Satisfies kept (getTestcase idx)
      (fun testcase now => kept now ∧ now.corpus.find idx = some testcase)
      fun _ => kept := by
  intro state holds
  rw [outcome_getTestcase, InMemoryCorpus.get_eq]
  cases found : state.corpus.find idx with
  | none =>
      exact holds
  | some testcase =>
      exact ⟨holds, found⟩

theorem computePenalty_reads
    (penalty : Penalty Input Factor)
    (testcase : Testcase Input) :
    Satisfies kept (computePenalty penalty testcase)
      (fun factor now => kept now ∧ penalty testcase now = .ok factor)
      fun _ => kept := by
  intro state holds
  unfold computePenalty
  rw [outcome_bind_ok outcome_get, outcome_lift]
  cases isFactor : penalty testcase state with
  | error _ =>
      exact holds
  | ok factor =>
      exact ⟨holds, isFactor⟩

theorem orKeyNotFound_reads
    {Value : Type}
    (message : String)
    (found : Option Value) :
    Satisfies kept (liftM (orKeyNotFound message found) : Hook Input Value)
      (fun value now => kept now ∧ found = some value)
      fun _ => kept := by
  intro state holds
  cases found with
  | none =>
      exact holds
  | some value =>
      exact ⟨holds, rfl⟩

end

/-- The list of an entry contains an index. -/
def Covers (testcase : Testcase Input) (elem : Nat) : Prop :=
  ∃ data, testcase.mapIndexes = some data ∧ elem ∈ data.list

/-- The index is in the list of an entry that is favored. -/
def IsFavored (state : State Input) (elem : Nat) : Prop :=
  ∃ id testcase,
    state.corpus.find id = some testcase ∧
      testcase.isFavored = true ∧ Covers testcase elem

/-- Each entry of the map is live and its list contains the index. -/
def OwnTheirIndexes (state : State Input) (topRateds : TopRatedsMetadata) : Prop :=
  ∀ elem id,
    topRateds.get elem = some id →
    ∃ testcase, state.corpus.find id = some testcase ∧ Covers testcase elem

theorem find_favored
    (state : State Input)
    (idx id : CorpusId) :
    (state.corpus.modify idx fun testcase =>
        { testcase with isFavored := true }).find id =
      if id = idx then
        (state.corpus.find id).map fun testcase => { testcase with isFavored := true }
      else state.corpus.find id :=
  InMemoryCorpus.find_modify

theorem exists_after_favored
    {id : CorpusId}
    {testcase : Testcase Input}
    (found : state.corpus.find id = some testcase) :
    ∃ marked,
      (state.corpus.modify idx fun testcase =>
          { testcase with isFavored := true }).find id = some marked ∧
        marked.mapIndexes = testcase.mapIndexes ∧
        (testcase.isFavored = true → marked.isFavored = true) := by
  rw [find_favored, found]
  split
  · exact ⟨_, rfl, rfl, fun _ => rfl⟩
  · exact ⟨_, rfl, rfl, fun isFavored => isFavored⟩

/-- What has been seen is covered by favored entries, and the map is still owned. -/
structure Culled
    (topRateds : TopRatedsMetadata)
    (walked : List (Nat × CorpusId))
    (acc : Finset Nat)
    (state : State Input) : Prop where
  owned : OwnTheirIndexes state topRateds
  seen : ∀ elem ∈ acc, IsFavored state elem
  covered : ∀ entry ∈ walked, entry.1 ∈ acc

theorem favorEntry_culls
    {topRateds : TopRatedsMetadata}
    {walked : List (Nat × CorpusId)}
    {acc : Finset Nat}
    {entry : Nat × CorpusId}
    (isEntry : topRateds.get entry.1 = some entry.2) :
    Satisfies (Culled topRateds walked acc : State Input → Prop)
      (favorEntry acc entry)
      (fun acc => Culled topRateds (walked ++ [entry]) acc)
      fun _ _ => False := by
  intro state culled
  unfold favorEntry
  by_cases isSeen : entry.1 ∈ acc
  · rw [if_pos isSeen]
    refine ⟨culled.owned, culled.seen, ?_⟩
    intro other isWalked
    rcases List.mem_append.mp isWalked with before | isLast
    · exact culled.covered other before
    · rw [List.mem_singleton.mp isLast]
      exact isSeen
  · rw [if_neg isSeen]
    obtain ⟨testcase, found, data, hasData, isCovered⟩ :=
      culled.owned entry.1 entry.2 isEntry
    rw [outcome_bind_ok (outcome_getTestcase_ok found),
      outcome_bind_ok (outcome_orKeyNotFound hasData),
      outcome_bind_ok outcome_updateTestcase]
    have kept :
        ∀ {id other elem},
          state.corpus.find id = some other →
          Covers other elem →
          ∃ marked,
            (state.corpus.modify entry.2 fun testcase =>
                { testcase with isFavored := true }).find id = some marked ∧
              Covers marked elem ∧
              (other.isFavored = true → marked.isFavored = true) := by
      intro id other elem isOther covers
      obtain ⟨marked, isMarked, sameData, staysFavored⟩ :=
        @exists_after_favored _ _ entry.2 _ _ isOther
      refine ⟨marked, isMarked, ?_, staysFavored⟩
      unfold Covers
      rw [sameData]
      exact covers
    refine ⟨?_, ?_, ?_⟩
    · intro elem id owns
      obtain ⟨other, isOther, covers⟩ := culled.owned elem id owns
      obtain ⟨marked, isMarked, stillCovers, -⟩ := kept isOther covers
      exact ⟨marked, isMarked, stillCovers⟩
    · intro elem isSeen
      rcases Finset.mem_union.mp isSeen with before | isNew
      · obtain ⟨id, other, isOther, isFavored, covers⟩ := culled.seen elem before
        obtain ⟨marked, isMarked, stillCovers, staysFavored⟩ := kept isOther covers
        exact ⟨id, marked, isMarked, staysFavored isFavored, stillCovers⟩
      · refine
          ⟨entry.2, { testcase with isFavored := true }, ?_, rfl, data, hasData,
            List.mem_toFinset.mp isNew⟩
        rw [find_favored, if_pos rfl, found]
        rfl
    · intro other isWalked
      rcases List.mem_append.mp isWalked with before | isLast
      · exact Finset.mem_union_left _ (culled.covered other before)
      · rw [List.mem_singleton.mp isLast]
        exact Finset.mem_union_right _ (List.mem_toFinset.mpr isCovered)

/-- Culling does not fail, and covers each index by an entry that is favored. -/
theorem cull_covers_everything
    (order : WalkOrder)
    {topRateds : TopRatedsMetadata}
    (isMap : state.topRateds = some topRateds)
    (owned : OwnTheirIndexes state topRateds) :
    ∃ after,
      (cull order).outcome state = (.ok (), after) ∧
        ∀ elem ∈ topRateds.keys, IsFavored after elem := by
  have walks :
      Satisfies (Culled topRateds [] ∅ : State Input → Prop)
        ((order.walk topRateds).foldlM favorEntry ∅)
        (fun acc => Culled topRateds (order.walk topRateds) acc)
        fun _ _ => False := by
    refine Satisfies.foldlM ?_ ∅
    intro walked entry rest acc split
    have isWalked : entry ∈ order.walk topRateds := by
      rw [split]
      simp
    exact favorEntry_culls (WalkOrder.mem_walk.mp isWalked)
  have culled := walks state ⟨owned, nofun, nofun⟩
  unfold cull
  rw [outcome_bind_ok outcome_get, isMap]
  dsimp only
  cases walked :
      ((order.walk topRateds).foldlM favorEntry ∅).outcome state with
  | mk result after =>
      rw [walked] at culled
      cases result with
      | error _ =>
          exact culled.elim
      | ok acc =>
          refine ⟨after, outcome_bind_ok walked, ?_⟩
          intro elem isKey
          obtain ⟨id, isValue⟩ := OrderedMap.mem_keys.mp isKey
          exact culled.seen elem (culled.covered _ (WalkOrder.mem_walk.mpr isValue))

/-- An entry that is kept for the first two indexes, of which another one has the second. -/
def twoEntries : State Unit where
  corpus :=
    (((InMemoryCorpus.new : InMemoryCorpus (Testcase Unit)).add
        { Testcase.new () with mapIndexes := some ⟨[1, 2], 2⟩ }).2.add
      { Testcase.new () with mapIndexes := some ⟨[2], 0⟩ }).2
  executions := 0
  schedulerMetadata := none
  weighted := none
  eco := none
  topRateds := some ((OrderedMap.empty.insert 1 0).insert 2 0)
  topAccounting := none
  probability := none

theorem owned_twoEntries :
    OwnTheirIndexes twoEntries ((OrderedMap.empty.insert 1 0).insert 2 0) := by
  intro elem id owns
  have isEntry := OrderedMap.mem_entries.mpr owns
  have isOne : (elem = 1 ∧ id = 0) ∨ (elem = 2 ∧ id = 0) := by
    simpa [OrderedMap.insert, OrderedMap.empty, OrderedMap.insertEntry] using isEntry
  rcases isOne with ⟨rfl, rfl⟩ | ⟨rfl, rfl⟩
  · refine ⟨{ Testcase.new () with mapIndexes := some ⟨[1, 2], 2⟩ }, rfl, _, rfl, ?_⟩
    decide
  · refine ⟨{ Testcase.new () with mapIndexes := some ⟨[1, 2], 2⟩ }, rfl, _, rfl, ?_⟩
    decide

theorem cull_covers_everything_two_entries :
    ∃ after,
      (cull WalkOrder.backwards).outcome twoEntries = (.ok (), after) ∧
        ∀ elem ∈ ((OrderedMap.empty.insert 1 0).insert 2 0 : TopRatedsMetadata).keys,
          IsFavored after elem :=
  cull_covers_everything WalkOrder.backwards rfl owned_twoEntries

section

variable [LinearOrder Factor]
variable {factor : Factor}
variable {i : CorpusId}
variable {map : OrderedMap Nat (Factor × CorpusId)}

theorem intersect_of_common
    (fuel : Nat)
    (e : Nat)
    (entries mapEntries : List Nat)
    (map : OrderedMap Nat (Factor × CorpusId)) :
    intersect factor i fuel (e :: entries) (e :: mapEntries) map = none := by
  induction fuel generalizing map with
  | zero =>
      rfl
  | succ fuel ih =>
      rw [intersect, if_neg (lt_irrefl e), if_pos rfl]
      exact ih _

theorem intersect_unchanged
    {fuel : Nat}
    {entries mapEntries : List Nat}
    {result : OrderedMap Nat (Factor × CorpusId)}
    (ends : intersect factor i fuel entries mapEntries map = some result) :
    result = map := by
  induction fuel generalizing entries mapEntries with
  | zero =>
      cases ends
  | succ fuel ih =>
      cases entries with
      | nil =>
          exact (Option.some.inj ends).symm
      | cons e entries =>
          cases mapEntries with
          | nil =>
              exact (Option.some.inj ends).symm
          | cons me mapEntries =>
              rcases lt_trichotomy e me with before | rfl | behind
              · rw [intersect, if_pos before] at ends
                exact ih ends
              · rw [intersect_of_common] at ends
                cases ends
              · rw [intersect, if_neg behind.not_gt, if_neg behind.ne'] at ends
                exact ih ends

theorem intersect_of_apart
    {fuel : Nat}
    {entries mapEntries : List Nat}
    (apart : ∀ e ∈ entries, e ∉ mapEntries)
    (enough : entries.length + mapEntries.length < fuel) :
    intersect factor i fuel entries mapEntries map = some map := by
  induction fuel generalizing entries mapEntries with
  | zero =>
      cases enough
  | succ fuel ih =>
      cases entries with
      | nil =>
          rfl
      | cons e entries =>
          cases mapEntries with
          | nil =>
              rfl
          | cons me mapEntries =>
              rw [List.length_cons, List.length_cons] at enough
              rcases lt_trichotomy e me with before | rfl | behind
              · rw [intersect, if_pos before]
                refine ih ?_ ?_
                · exact fun other isOther => apart other (List.mem_cons_of_mem _ isOther)
                · rw [List.length_cons]
                  omega
              · exact absurd List.mem_cons_self (apart e List.mem_cons_self)
              · rw [intersect, if_neg behind.not_gt, if_neg behind.ne']
                refine ih ?_ ?_
                · intro other isOther isCommon
                  exact apart other isOther (List.mem_cons_of_mem _ isCommon)
                · rw [List.length_cons]
                  omega

end

theorem mem_owned
    {topRateds : TopRatedsMetadata}
    {elem : Nat} :
    elem ∈ owned topRateds idx ↔ topRateds.get elem = some idx := by
  unfold owned
  rw [← OrderedMap.mem_entries, List.mem_map]
  constructor
  · rintro ⟨⟨other, id⟩, isOwned, rfl⟩
    obtain ⟨isEntry, isIdx⟩ := List.mem_filter.mp isOwned
    rw [← of_decide_eq_true isIdx]
    exact isEntry
  · intro isEntry
    exact ⟨(elem, idx), List.mem_filter.mpr ⟨isEntry, decide_eq_true rfl⟩, rfl⟩

/-- What a scheduler has to do with an entry: its data, its list, and its mark. -/
def essence (testcase : Testcase Input) :
    Option Input × Option Nat × Option IndexesMetadata × Bool :=
  (testcase.input, testcase.execTime, testcase.mapIndexes, testcase.isFavored)

/-- The map of the best entries is the same, and so are the entries. -/
structure Same (before after : State Input) : Prop where
  topRateds : after.topRateds = before.topRateds
  entries :
    ∀ id,
      (after.corpus.find id).map essence = (before.corpus.find id).map essence

theorem Same.refl (state : State Input) : Same state state :=
  ⟨rfl, fun _ => rfl⟩

/-- A hook of another scheduler leaves what this one uses. -/
def LeavesEntries {Value : Type} (hook : Hook Input Value) : Prop :=
  ∀ state, Same state (hook.outcome state).2

/-- The map sends an index to an entry. -/
def Maps (state : State Input) (elem : Nat) (id : CorpusId) : Prop :=
  ∃ topRateds, state.topRateds = some topRateds ∧ topRateds.get elem = some id

/-- A live entry covers an index. -/
def Remains (state : State Input) (elem : Nat) (id : CorpusId) : Prop :=
  ∃ testcase, state.corpus.find id = some testcase ∧ Covers testcase elem

theorem Same.maps_iff
    {after : State Input}
    (same : Same state after)
    {elem : Nat}
    {id : CorpusId} :
    Maps after elem id ↔ Maps state elem id := by
  unfold Maps
  rw [same.topRateds]

theorem Same.remains_iff
    {after : State Input}
    (same : Same state after)
    {elem : Nat}
    {id : CorpusId} :
    Remains after elem id ↔ Remains state elem id := by
  have entry := same.entries id
  unfold Remains
  cases isBefore : state.corpus.find id with
  | none =>
      rw [isBefore, Option.map_none, Option.map_eq_none_iff] at entry
      rw [entry]
  | some before =>
      rw [isBefore, Option.map_some, Option.map_eq_some_iff] at entry
      obtain ⟨testcase, found, isSame⟩ := entry
      have sameIndexes : testcase.mapIndexes = before.mapIndexes :=
        congrArg (fun data => data.2.2.1) isSame
      rw [found]
      simp only [Option.some.injEq, exists_eq_left', Covers, sameIndexes]

section

variable [LinearOrder Factor]

/--
What is asked of a removal: every index of the removed entry goes to a remaining entry
that covers it with the lowest penalty, or to none if there is none.
-/
def Reassigned
    (penalty : Penalty Input Factor)
    (state : State Input)
    (idx : CorpusId)
    (after : State Input) : Prop :=
  ∀ elem,
    Maps state elem idx →
      (∀ id,
        Maps after elem id →
          Remains after elem id ∧
            ∀ other testcase rival factor rivals,
              after.corpus.find id = some testcase →
              after.corpus.find other = some rival →
              Covers rival elem →
              penalty testcase after = .ok factor →
              penalty rival after = .ok rivals →
              factor ≤ rivals) ∧
        ((∀ id, ¬Maps after elem id) ↔ ∀ id, ¬Remains after elem id)

/-- A removal ends, and has reassigned the indexes then. -/
def RemovalReassigns
    (penalty : Penalty Input Factor)
    (base : Hooks Input Outside)
    (outside : Outside)
    (testcase : Option (Testcase Input))
    (idx : CorpusId)
    (state : State Input) : Prop :=
  ∃ fuel result after,
    (onRemove penalty base outside idx fuel testcase).outcome state =
        (result, after) ∧
      result ≠ .ok false ∧ Reassigned penalty state idx after

/-- The state without the indexes of an entry in the map. -/
def drained
    (state : State Input)
    (topRateds : TopRatedsMetadata)
    (idx : CorpusId) : State Input :=
  { state with topRateds := some (topRateds.eraseAll (owned topRateds idx)) }

theorem not_maps_drained
    {topRateds : TopRatedsMetadata}
    {elem : Nat}
    (isOwned : topRateds.get elem = some idx)
    (id : CorpusId) :
    ¬Maps (drained state topRateds idx) elem id := by
  rintro ⟨_, ⟨⟩, isValue⟩
  rw [OrderedMap.get_eraseAll, if_pos (mem_owned.mpr isOwned)] at isValue
  cases isValue

/-- Nothing was found, as far as the loop has come to an end. -/
def FoundNothing
    (kept : State Input → Prop)
    (map : Option (OrderedMap Nat (Factor × CorpusId)))
    (now : State Input) : Prop :=
  kept now ∧ ∀ found, map = some found → found = .empty

variable {kept : State Input → Prop}
variable {penalty : Penalty Input Factor}
variable {fuel : Nat}
variable {entries : List Nat}

theorem reassign_finds_nothing
    (map : Option (OrderedMap Nat (Factor × CorpusId)))
    (i : CorpusId) :
    Satisfies (FoundNothing kept map) (reassign penalty fuel entries map i)
      (FoundNothing kept) fun _ => kept := by
  cases map with
  | none =>
      exact fun _ found => found
  | some map =>
      refine
        Satisfies.weaken ?_ (fun _ found => found) (fun _ _ found => found)
          fun _ _ (found : FoundNothing kept (some map) _) => found.1
      refine (getTestcase_reads i).bind fun old => ?_
      refine
        Satisfies.weaken ?_ (fun _ both => both.1) (fun _ _ found => found)
          fun _ _ found => found
      refine (computePenalty_reads penalty old).bind fun factor => ?_
      rintro now ⟨⟨isKept, isEmpty⟩, -⟩
      cases old.mapIndexes with
      | none =>
          exact ⟨isKept, isEmpty⟩
      | some oldMap =>
          refine ⟨isKept, fun found ends => ?_⟩
          rw [intersect_unchanged ends]
          exact isEmpty map rfl

theorem loop_finds_nothing (ids : List CorpusId) :
    Satisfies kept (ids.foldlM (reassign penalty fuel entries) (some .empty))
      (FoundNothing kept) fun _ => kept := by
  have loop :
      Satisfies (FoundNothing kept (some (.empty : OrderedMap Nat (Factor × CorpusId))))
        (ids.foldlM (reassign penalty fuel entries) (some .empty))
        (FoundNothing kept) fun _ => kept :=
    @Satisfies.foldlM _ _ _ _ _ (fun _ => FoundNothing kept) _ _
      (fun _ i _ map _ => reassign_finds_nothing map i) _
  refine loop.weaken ?_ (fun _ _ found => found) fun _ _ isKept => isKept
  exact fun _ isKept => ⟨isKept, fun _ isEmpty => (Option.some.inj isEmpty).symm⟩

/-- No remaining entry has an index of the list, and each is done within the fuel. -/
def Apart (fuel : Nat) (entries : List Nat) (state : State Input) : Prop :=
  ∀ id testcase data,
    state.corpus.find id = some testcase →
    testcase.mapIndexes = some data →
    (∀ e ∈ entries, e ∉ data.list) ∧ entries.length + data.list.length < fuel

theorem loop_ends
    (apart : Apart fuel entries state)
    (ids : List CorpusId) :
    Satisfies (fun now => now = state)
      (ids.foldlM (reassign penalty fuel entries) (some .empty))
      (fun map now => now = state ∧ map.isSome = true) fun _ now => now = state := by
  have loop :
      Satisfies
        (fun now =>
          now = state ∧
            (some (.empty : OrderedMap Nat (Factor × CorpusId))).isSome = true)
        (ids.foldlM (reassign penalty fuel entries) (some .empty))
        (fun map now => now = state ∧ map.isSome = true) fun _ now => now = state := by
    refine
      @Satisfies.foldlM _ _ _ _ _
        (fun _ (map : Option (OrderedMap Nat (Factor × CorpusId))) now =>
          now = state ∧ map.isSome = true)
        _ _ (fun _ i _ map _ => ?_) _
    cases map with
    | none =>
        exact fun _ both => absurd both.2 Bool.false_ne_true
    | some map =>
        refine
          Satisfies.weaken ?_ (fun _ (both : _ ∧ _) => both.1) (fun _ _ found => found)
            fun _ _ found => found
        refine (getTestcase_reads i).bind fun old => ?_
        refine
          ((computePenalty_reads penalty old).weaken (fun _ both => both)
            (fun _ _ both => both) fun _ _ both => both.1).bind fun factor => ?_
        rintro now ⟨⟨rfl, found⟩, -⟩
        cases hasData : old.mapIndexes with
        | none =>
            exact ⟨rfl, rfl⟩
        | some data =>
            obtain ⟨isApart, enough⟩ := apart i old data found hasData
            refine ⟨rfl, ?_⟩
            rw [intersect_of_apart isApart enough]
            rfl
  exact loop.weaken (fun _ same => ⟨same, rfl⟩) (fun _ _ both => both) fun _ _ same => same

theorem findOthers_finds_nothing (state : State Input) :
    Satisfies (fun now => now = state) (findOthers penalty fuel entries)
      (fun ended now => ended = true → now = state) fun _ now => now = state := by
  intro start isStart
  refine ((loop_finds_nothing start.corpus.ids).bind fun map => ?_) start isStart
  rintro now ⟨rfl, isEmpty⟩
  cases map with
  | none =>
      exact nofun
  | some map =>
      rw [isEmpty map rfl]
      intro _
      have sameMap :
          (now.topRateds.map fun topRateds => topRateds.insertAll []) =
            now.topRateds := by
        cases now.topRateds with
        | none =>
            rfl
        | some topRateds =>
            rfl
      change { now with topRateds := now.topRateds.map _ } = now
      exact congrArg (fun topRateds => { now with topRateds := topRateds }) sameMap

theorem findOthers_ends (apart : Apart fuel entries state) :
    Satisfies (fun now => now = state) (findOthers penalty fuel entries)
      (fun ended _ => ended = true) fun _ _ => True := by
  intro start isStart
  refine
    (((loop_ends apart start.corpus.ids).weaken (fun _ same => same)
      (fun _ _ both => both) fun _ _ _ => trivial).bind fun map => ?_) start isStart
  rintro _ ⟨rfl, isSome⟩
  cases map with
  | none =>
      cases isSome
  | some map =>
      exact rfl

theorem reassignAll_drains
    {topRateds : TopRatedsMetadata}
    (isMap : state.topRateds = some topRateds) :
    Satisfies (fun now => now = state) (reassignAll penalty fuel idx)
      (fun ended now => ended = true → now = drained state topRateds idx)
      fun _ now => now = drained state topRateds idx := by
  rintro _ rfl
  unfold reassignAll
  rw [outcome_bind_ok outcome_get, isMap]
  exact findOthers_finds_nothing _ _ rfl

theorem reassignAll_ends
    {topRateds : TopRatedsMetadata}
    (isMap : state.topRateds = some topRateds)
    (apart : Apart fuel (owned topRateds idx) state) :
    Satisfies (fun now => now = state) (reassignAll penalty fuel idx)
      (fun ended _ => ended = true) fun _ _ => True := by
  rintro start rfl
  unfold reassignAll
  rw [outcome_bind_ok outcome_get, isMap]
  exact
    @findOthers_ends _ _ (drained start topRateds idx) _ penalty fuel _ apart _ rfl

theorem reassigned_drained
    {topRateds : TopRatedsMetadata}
    (isMap : state.topRateds = some topRateds) :
    Reassigned penalty state idx (drained state topRateds idx) ↔
      ∀ elem, Maps state elem idx → ∀ id, ¬Remains state elem id := by
  have isGone :
      ∀ elem,
        Maps state elem idx → ∀ id, ¬Maps (drained state topRateds idx) elem id := by
    rintro elem ⟨_, same, isOwned⟩
    obtain rfl := Option.some.inj (isMap.symm.trans same)
    exact not_maps_drained isOwned
  refine forall₂_congr fun elem isOwned => ?_
  constructor
  · rintro ⟨-, isAbsent⟩
    exact isAbsent.mp (isGone elem isOwned)
  · intro noneRemains
    exact
      ⟨fun id maps => absurd maps (isGone elem isOwned id),
        iff_of_true (isGone elem isOwned) noneRemains⟩

theorem Same.reassigned_iff
    {middle after : State Input}
    (same : Same state middle) :
    Reassigned penalty state idx after ↔ Reassigned penalty middle idx after := by
  unfold Reassigned
  simp only [same.maps_iff]

theorem exists_fuel (state : State Input) (entries : List Nat) :
    ∃ fuel,
      ∀ id testcase data,
        state.corpus.find id = some testcase →
        testcase.mapIndexes = some data →
        entries.length + data.list.length < fuel := by
  let lengthAt := fun id : CorpusId =>
    (((state.corpus.find id).bind Testcase.mapIndexes).map
      fun data => data.list.length).getD 0
  refine ⟨entries.length + (state.corpus.ids.map lengthAt).sum + 1, ?_⟩
  intro id testcase data found hasData
  have isLength : lengthAt id = data.list.length := by
    simp [lengthAt, found, hasData]
  have isId := InMemoryCorpus.mem_ids.mpr ⟨testcase, found⟩
  have isSummand :=
    List.single_le_sum (fun _ _ => Nat.zero_le _) (lengthAt id)
      (List.mem_map_of_mem isId)
  omega

theorem reassigned_of_none
    {after : State Input}
    (noIndex : ∀ elem, ¬Maps state elem idx) :
    Reassigned penalty state idx after :=
  fun elem isOwned => absurd isOwned (noIndex elem)

theorem reassignAll_reassigns_iff
    {topRateds : TopRatedsMetadata}
    (isMap : state.topRateds = some topRateds) :
    (∃ fuel result after,
        (reassignAll penalty fuel idx).outcome state = (result, after) ∧
          result ≠ .ok false ∧ Reassigned penalty state idx after) ↔
      ∀ elem, Maps state elem idx → ∀ id, ¬Remains state elem id := by
  rw [← @reassigned_drained _ _ _ idx _ penalty _ isMap]
  constructor
  · rintro ⟨fuel, result, after, whole, ends, reassigned⟩
    have drains := @reassignAll_drains _ _ _ idx _ penalty fuel _ isMap state rfl
    rw [whole] at drains
    cases result with
    | error _ =>
        exact drains ▸ reassigned
    | ok ended =>
        cases ended with
        | false =>
            exact absurd rfl ends
        | true =>
            exact drains rfl ▸ reassigned
  · intro reassigned
    obtain ⟨fuel, enough⟩ := exists_fuel state (owned topRateds idx)
    have noneRemains := (reassigned_drained isMap).mp reassigned
    have apart : Apart fuel (owned topRateds idx) state := by
      intro id testcase data found hasData
      refine ⟨?_, enough id testcase data found hasData⟩
      intro elem isOwned isCovered
      exact
        noneRemains elem ⟨topRateds, isMap, mem_owned.mp isOwned⟩ id
          ⟨testcase, found, data, hasData, isCovered⟩
    have drains := @reassignAll_drains _ _ _ idx _ penalty fuel _ isMap state rfl
    have ends := @reassignAll_ends _ _ _ idx _ penalty fuel _ isMap apart state rfl
    cases whole : (reassignAll penalty fuel idx).outcome state with
    | mk result after =>
        rw [whole] at drains ends
        refine ⟨fuel, result, after, whole, ?_, ?_⟩
        · rintro rfl
          cases ends
        · cases result with
          | error _ =>
              exact drains.symm ▸ reassigned
          | ok ended =>
              exact (drains ends).symm ▸ reassigned

variable (penalty)

/--
A removal does what is asked exactly where no remaining entry covers an index of the
removed one, and the base scheduler's part succeeds if there is an index at all.
-/
theorem removal_reassigns_iff
    (base : Hooks Input Outside)
    (outside : Outside)
    (testcase : Option (Testcase Input))
    (leaves : LeavesEntries (base.onRemove outside idx testcase))
    (isRemoved : state.corpus.find idx = none) :
    RemovalReassigns penalty base outside testcase idx state ↔
      ∀ elem,
        Maps state elem idx →
          ((base.onRemove outside idx testcase).outcome state).1 = .ok () ∧
            ∀ id, ¬Remains state elem id := by
  have same := leaves state
  unfold RemovalReassigns onRemove
  cases told : (base.onRemove outside idx testcase).outcome state with
  | mk answer middle =>
      rw [told] at same
      cases answer with
      | error error =>
          simp only [outcome_bind_error told]
          constructor
          · rintro ⟨_, _, _, ⟨⟩, -, reassigned⟩ elem isOwned
            have stays := same.maps_iff.mpr isOwned
            obtain ⟨remains, -⟩ := (reassigned elem isOwned).1 idx stays
            obtain ⟨_, found, -⟩ := same.remains_iff.mp remains
            cases isRemoved.symm.trans found
          · intro noIndex
            refine ⟨0, _, _, rfl, nofun, reassigned_of_none fun elem isOwned => ?_⟩
            cases (noIndex elem isOwned).1
      | ok _ =>
          simp only [outcome_bind_ok told, true_and]
          cases isMap : middle.topRateds with
          | none =>
              have noIndex : ∀ elem, ¬Maps state elem idx := by
                rintro elem isOwned
                obtain ⟨_, isSome, -⟩ := same.maps_iff.mpr isOwned
                cases isMap.symm.trans isSome
              refine iff_of_true ⟨0, .ok true, middle, ?_, nofun, ?_⟩ ?_
              · unfold reassignAll
                rw [outcome_bind_ok outcome_get, isMap]
                rfl
              · exact reassigned_of_none noIndex
              · exact fun elem isOwned => absurd isOwned (noIndex elem)
          | some topRateds =>
              simp only [same.reassigned_iff]
              rw [reassignAll_reassigns_iff isMap]
              simp only [same.maps_iff, same.remains_iff]

end

/-- A base scheduler whose hooks do nothing on a removal. -/
def plainBase : Hooks Unit Unit where
  next _ := pure 0

/-- All entries have the same penalty. -/
def noPenalty : Penalty Unit Nat :=
  fun _ _ => .ok 0

/-- The first of the two entries was removed. -/
def removedFirst : State Unit :=
  { twoEntries with corpus := twoEntries.corpus.removed 0 }

/-- The same, where it was kept for the index that the other one does not have. -/
def removedAlone : State Unit :=
  { removedFirst with topRateds := some (OrderedMap.empty.insert 1 0) }

theorem removal_reassigns_iff_alone :
    RemovalReassigns noPenalty plainBase () none 0 removedAlone := by
  refine
    (removal_reassigns_iff noPenalty plainBase () none (fun _ => Same.refl _) rfl).mpr ?_
  rintro elem ⟨_, ⟨⟩, isOwned⟩
  refine ⟨rfl, ?_⟩
  rintro id ⟨testcase, found, data, hasData, isCovered⟩
  have isOne : elem = 1 := by
    by_contra isOther
    rw [OrderedMap.get_insert_of_ne isOther] at isOwned
    cases isOwned
  have isSecond : id = 1 := by
    have isId : id ∈ [1] := InMemoryCorpus.mem_ids.mpr ⟨testcase, found⟩
    exact List.mem_singleton.mp isId
  subst isOne isSecond
  cases found
  cases hasData
  revert isCovered
  decide

theorem search_goes_on (fuel : Nat) :
    ((onRemove noPenalty plainBase () 0 fuel none).outcome removedFirst).1 =
      .ok false := by
  have merge :
      ∀ map : OrderedMap Nat (Nat × CorpusId),
        intersect 0 1 fuel [1, 2] [2] map = none := by
    intro map
    cases fuel with
    | zero =>
        rfl
    | succ fuel =>
        exact intersect_of_common fuel 2 [] [] map
  let now := drained removedFirst ((OrderedMap.empty.insert 1 0).insert 2 0) 0
  have body :
      (reassign noPenalty fuel [1, 2] (some .empty) 1).outcome now =
        (.ok none, now) := by
    unfold reassign
    refine (outcome_bind_ok (@outcome_getTestcase_ok _ now 1 _ rfl)).trans ?_
    change (Except.ok (intersect 0 1 fuel [1, 2] [2] .empty), now) = _
    rw [merge]
  have loop :
      ([1].foldlM (reassign noPenalty fuel [1, 2]) (some .empty)).outcome now =
        (.ok none, now) := by
    rw [List.foldlM_cons, outcome_bind_ok body]
    rfl
  have others : (findOthers noPenalty fuel [1, 2]).outcome now = (.ok false, now) := by
    unfold findOthers
    rw [outcome_bind_ok outcome_get]
    exact outcome_bind_ok loop
  exact congrArg Prod.fst others

/-- However long it goes on, the removal of the first entry does not end. -/
theorem removal_does_not_end :
    ¬RemovalReassigns noPenalty plainBase () none 0 removedFirst := by
  rintro ⟨fuel, result, after, whole, ends, -⟩
  have goesOn := search_goes_on fuel
  rw [whole] at goesOn
  exact ends goesOn

end MeFuzz.Scheduler.MinimizerScheduler
