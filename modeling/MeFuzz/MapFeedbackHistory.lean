import MeFuzz.MapFeedbackSimd
import MeFuzz.TransitionRun

namespace MeFuzz.Feedbacks

/-!
# What the history of a map feedback holds

Only the maps for which `append_metadata` was called are reduced into the
history.  Entries that are initial are skipped, and the history is filled up with
the initial value, so that skipping them loses nothing.  The implementation for
maps of bytes fills it up with zeros instead.
-/

/-- What the history needs of a reducer. -/
structure LawfulReducer
    {T : Type}
    (reduce : T → T → T) : Prop where
  assoc : ∀ a b c, reduce (reduce a b) c = reduce a (reduce b c)
  comm : ∀ a b, reduce a b = reduce b a
  idem : ∀ a, reduce a a = a

section

variable {T : Type}

theorem lawful_max
    [LE T]
    [LT T]
    [DecidableLT T]
    [Std.IsLinearOrder T]
    [Std.LawfulOrderLT T] :
    LawfulReducer (@MaxReducer.reduce T _ _) where
  assoc a b c := by
    unfold MaxReducer.reduce
    grind
  comm a b := by
    unfold MaxReducer.reduce
    grind
  idem a := ite_self a

theorem lawful_or
    {width : Nat} :
    LawfulReducer (@OrReducer.reduce (BitVec width) _) where
  assoc := BitVec.or_assoc
  comm := BitVec.or_comm
  idem _ := BitVec.or_self

variable {reduce : T → T → T}

theorem LawfulReducer.reduce_reduce
    (lawful : LawfulReducer reduce)
    (a b : T) :
    reduce (reduce a b) b = reduce a b := by
  rw [lawful.assoc, lawful.idem]

theorem LawfulReducer.foldl_initial
    (lawful : LawfulReducer reduce)
    (initial : T)
    (values : List T) :
    reduce (values.foldl reduce initial) initial =
      values.foldl reduce initial := by
  induction values using List.reverseRecOn with
  | nil =>
      exact lawful.idem initial
  | append_singleton front value ih =>
      rw [List.foldl_append, List.foldl_cons, List.foldl_nil, lawful.assoc,
        lawful.comm value, ← lawful.assoc, ih]

end

section

variable {T : Type}
variable {reduce : T → T → T}

theorem reduceInto_spec
    {historyMap next : List T}
    {cells : List (T × Nat)}
    (reduced : reduceInto reduce historyMap cells = some next) :
    next.length = historyMap.length ∧
      (∀ cell ∈ cells, cell.2 < historyMap.length) ∧
      ∀ i,
        next[i]? =
          historyMap[i]?.map fun existing =>
            ((cells.filter (·.2 = i)).map Prod.fst).foldl reduce existing := by
  induction cells generalizing historyMap with
  | nil =>
      obtain rfl := Option.some.inj reduced
      refine ⟨rfl, fun _ isCell => (List.not_mem_nil isCell).elim, fun i => ?_⟩
      exact (congrFun Option.map_id _).symm
  | cons cell rest ih =>
      rw [reduceInto] at reduced
      obtain ⟨existing, isExisting, reduced⟩ := Option.bind_eq_some_iff.mp reduced
      obtain ⟨sameLength, inHistory, entries⟩ := ih reduced
      rw [List.length_set] at sameLength inHistory
      refine ⟨sameLength, ?_, fun i => ?_⟩
      · intro other isCell
        rcases List.mem_cons.mp isCell with rfl | isLater
        · exact (List.getElem?_eq_some_iff.mp isExisting).1
        · exact inHistory other isLater
      · rw [entries, List.getElem?_set]
        have inHistory := (List.getElem?_eq_some_iff.mp isExisting).1
        by_cases isIndex : cell.2 = i
        · subst isIndex
          rw [isExisting]
          simp [inHistory]
        · simp [isIndex]

theorem filter_zipIdx_index
    (items : List T)
    (i : Nat) :
    items.zipIdx.filter (·.2 = i) = (items[i]?.map fun item => (item, i)).toList := by
  induction items using List.reverseRecOn with
  | nil =>
      rfl
  | append_singleton front item ih =>
      rw [List.zipIdx_append, List.filter_append, ih,
        List.zipIdx_singleton, Nat.zero_add]
      rcases Nat.lt_trichotomy i front.length with isEarlier | rfl | isLater
      · rw [List.getElem?_append_left isEarlier,
          List.filter_cons_of_neg (by simp; omega), List.filter_nil,
          List.append_nil]
      · simp
      · rw [List.getElem?_eq_none (by omega),
          List.getElem?_eq_none (by simp; omega),
          List.filter_cons_of_neg (by simp; omega)]
        rfl

theorem filter_touched_index
    [DecidableEq T]
    (initial : T)
    (items : List T)
    (i : Nat) :
    ((touched initial items).filter (·.2 = i)).map Prod.fst =
      (items[i]?.filter (· ≠ initial)).toList := by
  rw [touched, List.filter_filter, List.filter_congr fun _ _ => Bool.and_comm _ _,
    ← List.filter_filter, filter_zipIdx_index]
  cases items[i]? with
  | none =>
      rfl
  | some item =>
      by_cases isInitial : item = initial
      · simp [isInitial]
      · simp [isInitial, Option.filter_some]

end

/-- The implementations of `is_interesting` that there are. -/
inductive Strategy : Type → Type 1 where
  | byDefault
      {T : Type}
      [DecidableEq T]
      (reduce : T → T → T)
      (isNovel : T → T → Bool) : Strategy T
  | vectorized : Strategy UInt8

namespace Strategy

/-- The reducer. -/
def reduce {T : Type} : Strategy T → T → T → T
  | @byDefault _ _ reduce _ => reduce
  | .vectorized => MaxReducer.reduce

/-- `is_interesting`. -/
def isInteresting {T : Type} :
    Strategy T → MapObserver T → MapFeedback T → Option (Bool × MapFeedback T)
  | @byDefault _ _ reduce isNovel => isInterestingDefault reduce isNovel
  | .vectorized => Simd.isInteresting

/-- The equality that maps are compared with. -/
def decidableEq {T : Type} : Strategy T → DecidableEq T
  | @byDefault _ decidableEq _ _ => decidableEq
  | .vectorized => inferInstance

/-- `append_metadata`. -/
def append
    {T : Type}
    (strategy : Strategy T)
    (observer : MapObserver T)
    (self : MapFeedback T) : Option (TestcaseMetadata × MapFeedback T) :=
  @appendMetadata T strategy.decidableEq strategy.reduce observer self

/-- What `is_interesting` fills the history up with. -/
def fill {T : Type} : Strategy T → MapObserver T → T
  | @byDefault _ _ _ _ => MapObserver.initial
  | .vectorized => fun _ => 0

/-- The reducers and predicates of map feedbacks that maximize or collect bits. -/
inductive Accumulates : {T : Type} → Strategy T → Prop where
  | maxDifferent
      {T : Type}
      [DecidableEq T] [LE T] [LT T] [DecidableLT T]
      [Std.IsLinearOrder T] [Std.LawfulOrderLT T] :
      Accumulates
        (.byDefault (@MaxReducer.reduce T _ _) DifferentIsNovel.isNovel)
  | maxNextPow2
      {T : Type}
      [DecidableEq T] [LE T] [LT T] [DecidableLE T] [DecidableLT T]
      [Std.IsLinearOrder T] [Std.LawfulOrderLT T] [PrimInt T] :
      Accumulates
        (.byDefault (@MaxReducer.reduce T _ _) NextPow2IsNovel.isNovel)
  | orDifferent
      {width : Nat} :
      Accumulates
        (.byDefault (@OrReducer.reduce (BitVec width) _)
          DifferentIsNovel.isNovel)
  | orNextPow2
      {width : Nat}
      [LE (BitVec width)] [DecidableLE (BitVec width)]
      [Std.IsLinearOrder (BitVec width)] [PrimInt (BitVec width)] :
      Accumulates
        (.byDefault (@OrReducer.reduce (BitVec width) _)
          NextPow2IsNovel.isNovel)
  | vectorized : Accumulates .vectorized

/--
What keeps the history right: maps of bytes whose maximum is kept start out with
zeros, and have no more usable entries than their length.
-/
def Suits {T : Type} : Strategy T → MapObserver T → Prop
  | @byDefault _ _ _ _, _ => True
  | .vectorized, observer =>
      observer.initial = 0 ∧ observer.usableCount ≤ observer.len

section

variable {T : Type}
variable {strategy : Strategy T}

theorem Accumulates.lawful
    (accumulates : strategy.Accumulates) :
    LawfulReducer strategy.reduce := by
  cases accumulates with
  | maxDifferent =>
      exact lawful_max
  | maxNextPow2 =>
      exact lawful_max
  | orDifferent =>
      exact lawful_or
  | orNextPow2 =>
      exact lawful_or
  | vectorized =>
      exact lawful_max

theorem isNovel_self_different
    [DecidableEq T]
    (value : T) :
    DifferentIsNovel.isNovel value value = false :=
  decide_eq_false fun differs => differs rfl

theorem isNovel_self_nextPow2
    [LE T]
    [DecidableLE T]
    [Std.IsLinearOrder T]
    [PrimInt T]
    (value : T) :
    NextPow2IsNovel.isNovel value value = false :=
  if_pos (Std.le_refl value)

variable {observer : MapObserver T}
variable {self next : MapFeedback T}
variable {items : List T}

theorem historyMap_isInteresting_fill
    {verdict : Bool}
    (returns : strategy.isInteresting observer self = some (verdict, next)) :
    next.historyMap =
      resized self.historyMap observer.len (strategy.fill observer) := by
  cases strategy with
  | byDefault reduce isNovel =>
      simp only [isInteresting, isInterestingDefault] at returns
      obtain ⟨items, -, returns⟩ := Option.bind_eq_some_iff.mp returns
      split at returns
      · obtain ⟨tracked, -, returns⟩ := Option.bind_eq_some_iff.mp returns
        obtain ⟨-, rfl⟩ := Prod.mk.inj (Option.some.inj returns)
        rfl
      · obtain ⟨isFound, -, returns⟩ := Option.bind_eq_some_iff.mp returns
        obtain ⟨-, rfl⟩ := Prod.mk.inj (Option.some.inj returns)
        rfl
  | vectorized =>
      simp only [isInteresting, Simd.isInteresting] at returns
      split at returns
      · cases returns
      · split at returns
        · obtain ⟨steps, -, returns⟩ := Option.bind_eq_some_iff.mp returns
          obtain ⟨left, -, returns⟩ := Option.bind_eq_some_iff.mp returns
          obtain ⟨-, rfl⟩ := Prod.mk.inj (Option.some.inj returns)
          rfl
        · obtain ⟨isFound, -, returns⟩ := Option.bind_eq_some_iff.mp returns
          split at returns
          · obtain ⟨-, rfl⟩ := Prod.mk.inj (Option.some.inj returns)
            rfl
          · obtain ⟨left, -, returns⟩ := Option.bind_eq_some_iff.mp returns
            obtain ⟨-, rfl⟩ := Prod.mk.inj (Option.some.inj returns)
            rfl

theorem historyMap_isInteresting
    {verdict : Bool}
    (suits : strategy.Suits observer)
    (returns : strategy.isInteresting observer self = some (verdict, next)) :
    next.historyMap = resized self.historyMap observer.len observer.initial := by
  rw [historyMap_isInteresting_fill returns]
  cases strategy with
  | byDefault reduce isNovel =>
      rfl
  | vectorized =>
      rw [fill, suits.1]

/-- A history that all entries were reduced into. -/
def Settled
    (strategy : Strategy T)
    (observer : MapObserver T)
    (items : List T)
    (historyMap : List T) : Prop :=
  ∀ cell ∈ @touched T strategy.decidableEq observer.initial items,
    ∃ existing,
      historyMap[cell.2]? = some existing ∧
        strategy.reduce existing cell.1 = existing

theorem resized_of_le
    {historyMap : List T}
    {len : Nat}
    {value : T}
    (isLong : len ≤ historyMap.length) :
    resized historyMap len value = historyMap := by
  rw [resized, Nat.sub_eq_zero_of_le isLong, List.replicate_zero, List.append_nil]

theorem isInterestingDefault_settled
    [DecidableEq T]
    {reduce : T → T → T}
    {isNovel : T → T → Bool}
    (isNovel_self : ∀ value, isNovel value value = false)
    (isItems : observer.asIter = some items)
    (isLong : observer.len ≤ self.historyMap.length)
    (settled : Settled (.byDefault reduce isNovel) observer items self.historyMap) :
    ∃ next,
      isInterestingDefault reduce isNovel observer self = some (false, next) := by
  have finds :
      ∀ cell ∈ touched observer.initial items,
        isNovelty reduce isNovel self.historyMap cell = some false := by
    intro cell isTouched
    obtain ⟨existing, isExisting, absorbs⟩ := settled cell isTouched
    have absorbs : reduce existing cell.1 = existing := absorbs
    rw [isNovelty, isExisting]
    change some (isNovel existing (reduce existing cell.1)) = _
    rw [absorbs, isNovel_self]
  have noneFound : (touched observer.initial items).any (fun _ => false) = false :=
    List.any_eq_false.mpr fun _ _ => Bool.false_ne_true
  simp only [isInterestingDefault, isItems, resized_of_le isLong,
    Option.bind_eq_bind, Option.bind_some, findsOne_of_total finds,
    track_of_total finds, noneFound, Bool.or_false]
  split
  · exact ⟨_, rfl⟩
  · exact ⟨_, rfl⟩

theorem isInteresting_settled
    (accumulates : strategy.Accumulates)
    (suits : strategy.Suits observer)
    (isItems : observer.asIter = some items)
    (isLong : observer.len ≤ self.historyMap.length)
    (settled : strategy.Settled observer items self.historyMap) :
    ∃ next, strategy.isInteresting observer self = some (false, next) := by
  cases accumulates with
  | maxDifferent =>
      exact isInterestingDefault_settled isNovel_self_different isItems isLong
        settled
  | maxNextPow2 =>
      exact isInterestingDefault_settled isNovel_self_nextPow2 isItems isLong
        settled
  | orDifferent =>
      exact isInterestingDefault_settled isNovel_self_different isItems isLong
        settled
  | orNextPow2 =>
      exact isInterestingDefault_settled isNovel_self_nextPow2 isItems isLong
        settled
  | vectorized =>
      obtain ⟨isZero, fits⟩ := suits
      have inMap : observer.usableCount ≤ observer.asSlice.length := by
        by_contra isOut
        rw [MapObserver.asIter, if_neg isOut] at isItems
        cases isItems
      rw [MapObserver.asIter, if_pos inMap] at isItems
      obtain rfl := Option.some.inj isItems
      have noneAbove :
          (List.range observer.usableCount).any
              (above observer.asSlice self.historyMap) =
            false := by
        rw [List.any_eq_false]
        intro j inCount isAbove
        have inCount := List.mem_range.mp inCount
        unfold above at isAbove
        split at isAbove
        · rename_i item existing isItem isExisting
          have isAbove := of_decide_eq_true isAbove
          have isTouched :
              (item, j) ∈
                touched observer.initial
                  (observer.asSlice.take observer.usableCount) := by
            refine List.mem_filter.mpr
              ⟨List.mem_zipIdx_iff_getElem?.mpr
                ((List.getElem?_take_of_lt inCount).trans isItem), ?_⟩
            refine decide_eq_true fun isInitial => ?_
            have isInitial : item = observer.initial := isInitial
            rw [isInitial, isZero] at isAbove
            exact UInt8.not_lt_zero isAbove
          obtain ⟨_, isSame, absorbs⟩ := settled _ isTouched
          obtain rfl := Option.some.inj (isExisting.symm.trans isSame)
          have absorbs : MaxReducer.reduce existing item = existing := absorbs
          have isNovel := @isNovel_max existing item
          rw [absorbs, isNovel_self_different] at isNovel
          exact of_decide_eq_false isNovel.symm isAbove
        · cases isAbove
      have inHistory :
          observer.usableCount ≤
            (resized self.historyMap observer.len 0).length := by
        rw [resized_of_le isLong]
        exact fits.trans isLong
      have returns := Simd.isInteresting_eq inMap inHistory
      rw [resized_of_le isLong, noneAbove] at returns
      exact ⟨_, returns⟩

end

end Strategy

/-- A map that the feedback is asked about, and whether its input is accepted. -/
structure Call (T : Type) where
  observer : MapObserver T
  accepted : Bool

/-- `is_interesting`, and `append_metadata` for accepted inputs. -/
def perform
    {T : Type}
    (strategy : Strategy T)
    (self : MapFeedback T)
    (call : Call T) : Option (MapFeedback T) := do
  let (_, self) ← strategy.isInteresting call.observer self
  if call.accepted then
    let (_, self) ← strategy.append call.observer self
    some self
  else some self

/-- Each pair of calls that returns is a step. -/
def Step {T : Type} (strategy : Strategy T) :
    StepRelation (MapFeedback T) (Call T) :=
  .ofFunction (perform strategy)

section

variable {T : Type}

/-- The entry of a map that was accepted. -/
def acceptedAt
    (i : Nat)
    (call : Call T) : Option T :=
  if call.accepted then
    (call.observer.asSlice.take call.observer.usableCount)[i]?
  else none

/-- The accepted maps, reduced at an index from the initial value on. -/
def reducedAt
    (strategy : Strategy T)
    (initial : T)
    (calls : List (Call T))
    (i : Nat) : T :=
  (calls.filterMap (acceptedAt i)).foldl strategy.reduce initial

/-- The length of the longest map. -/
def longest (calls : List (Call T)) : Nat :=
  calls.foldl (fun length call => max length call.observer.len) 0

/-- The history holds what the accepted maps reduce to. -/
structure HoldsReduced
    (strategy : Strategy T)
    (initial : T)
    (calls : List (Call T))
    (now : MapFeedback T) : Prop where
  length : now.historyMap.length = longest calls
  entries :
    ∀ i, now.historyMap[i]?.getD initial = reducedAt strategy initial calls i

variable {strategy : Strategy T}
variable {initial : T}
variable {calls : List (Call T)}
variable {call : Call T}
variable {before after : MapFeedback T}

/-- The entry of an accepted map, unless it is initial. -/
def newAt
    (strategy : Strategy T)
    (i : Nat)
    (call : Call T) : Option T :=
  have := strategy.decidableEq
  (acceptedAt i call).filter (· ≠ call.observer.initial)

theorem append_spec
    {observer : MapObserver T}
    {metadata : TestcaseMetadata}
    (appended : strategy.append observer before = some (metadata, after)) :
    ∃ items,
      observer.asIter = some items ∧
        reduceInto strategy.reduce before.historyMap
            (@touched T strategy.decidableEq observer.initial items) =
          some after.historyMap := by
  simp only [Strategy.append, appendMetadata] at appended
  obtain ⟨items, isItems, appended⟩ := Option.bind_eq_some_iff.mp appended
  obtain ⟨historyMap, reduced, appended⟩ := Option.bind_eq_some_iff.mp appended
  obtain ⟨-, rfl⟩ := Prod.mk.inj (Option.some.inj appended)
  exact ⟨items, isItems, reduced⟩

theorem asIter_eq
    {observer : MapObserver T}
    {items : List T}
    (isItems : observer.asIter = some items) :
    items = observer.asSlice.take observer.usableCount := by
  rw [MapObserver.asIter] at isItems
  split at isItems
  · exact (Option.some.inj isItems).symm
  · cases isItems

theorem perform_spec
    (suits : strategy.Suits call.observer)
    (taken : Step strategy before call after) :
    after.historyMap.length = max before.historyMap.length call.observer.len ∧
      (call.accepted = true → ∃ items, call.observer.asIter = some items) ∧
      ∀ i,
        ((newAt strategy i call).isSome = true →
            i < after.historyMap.length) ∧
          after.historyMap[i]? =
            (resized before.historyMap call.observer.len
                  call.observer.initial)[i]?.map
              fun existing =>
                (newAt strategy i call).toList.foldl strategy.reduce existing := by
  obtain ⟨⟨verdict, asked⟩, returns, taken⟩ := Option.bind_eq_some_iff.mp taken
  have filledUp := Strategy.historyMap_isInteresting suits returns
  dsimp only at taken
  split at taken
  · rename_i isAccepted
    obtain ⟨⟨metadata, appendedTo⟩, appends, taken⟩ :=
      Option.bind_eq_some_iff.mp taken
    obtain rfl := Option.some.inj taken
    obtain ⟨items, isItems, reduced⟩ := append_spec appends
    obtain rfl := asIter_eq isItems
    obtain ⟨sameLength, inHistory, entries⟩ := reduceInto_spec reduced
    rw [filledUp] at sameLength inHistory entries
    refine ⟨sameLength.trans length_resized, fun _ => ⟨_, isItems⟩, fun i => ?_⟩
    have atIndex :=
      @filter_touched_index T strategy.decidableEq call.observer.initial
        (call.observer.asSlice.take call.observer.usableCount) i
    have isNew :
        (newAt strategy i call).toList =
          ((@touched T strategy.decidableEq call.observer.initial
              (call.observer.asSlice.take call.observer.usableCount)).filter
            (·.2 = i)).map Prod.fst := by
      rw [atIndex, newAt, acceptedAt, if_pos isAccepted]
    refine ⟨fun isSome => ?_, ?_⟩
    · obtain ⟨item, isItem⟩ := Option.isSome_iff_exists.mp isSome
      rw [isItem] at isNew
      have isCell : item ∈ (some item).toList := List.mem_singleton.mpr rfl
      rw [isNew] at isCell
      obtain ⟨cell, isCell, -⟩ := List.mem_map.mp isCell
      obtain ⟨isTouched, isIndex⟩ := List.mem_filter.mp isCell
      rw [sameLength, ← of_decide_eq_true isIndex]
      exact inHistory cell isTouched
    · rw [entries, isNew]
  · rename_i isRejected
    obtain rfl := Option.some.inj taken
    rw [filledUp]
    have isOld : ∀ i, newAt strategy i call = none := by
      intro i
      rw [newAt, acceptedAt, if_neg isRejected]
      rfl
    refine ⟨length_resized, fun isAccepted => absurd isAccepted isRejected, ?_⟩
    intro i
    rw [isOld]
    exact ⟨fun isSome => absurd isSome Bool.false_ne_true,
      (congrFun Option.map_id _).symm⟩

theorem settled_of_accepted
    (lawful : LawfulReducer strategy.reduce)
    (suits : strategy.Suits call.observer)
    (isAccepted : call.accepted = true)
    (taken : Step strategy before call after) :
    ∃ items,
      call.observer.asIter = some items ∧
        strategy.Settled call.observer items after.historyMap := by
  obtain ⟨length, asIter, entries⟩ := perform_spec suits taken
  obtain ⟨items, isItems⟩ := asIter isAccepted
  refine ⟨items, isItems, fun cell isTouched => ?_⟩
  have := strategy.decidableEq
  obtain ⟨isCell, isNew⟩ := List.mem_filter.mp isTouched
  have isEntry := List.mem_zipIdx_iff_getElem?.mp isCell
  have isNewAt : newAt strategy cell.2 call = some cell.1 := by
    rw [newAt, acceptedAt, if_pos isAccepted, ← asIter_eq isItems, isEntry,
      Option.filter_some]
    exact if_pos isNew
  obtain ⟨inHistory, isReduced⟩ := entries cell.2
  have inHistory := inHistory (isNewAt ▸ rfl)
  rw [length] at inHistory
  rw [isNewAt, getElem?_resized inHistory] at isReduced
  exact ⟨_, isReduced, lawful.reduce_reduce _ _⟩

theorem reducedAt_concat
    (lawful : LawfulReducer strategy.reduce)
    (i : Nat) :
    reducedAt strategy call.observer.initial (calls ++ [call]) i =
      (newAt strategy i call).toList.foldl strategy.reduce
        (reducedAt strategy call.observer.initial calls i) := by
  have := strategy.decidableEq
  rw [reducedAt, List.filterMap_append, List.foldl_append, newAt]
  cases isEntry : acceptedAt i call with
  | none =>
      rw [List.filterMap_cons_none isEntry]
      rfl
  | some value =>
      rw [List.filterMap_cons_some isEntry, Option.filter_some]
      by_cases isInitial : value = call.observer.initial
      · rw [isInitial]
        simp only [ne_eq, not_true_eq_false, decide_false]
        exact lawful.foldl_initial _ _
      · simp only [ne_eq, isInitial, not_false_eq_true, decide_true, if_true]
        rfl

theorem holdsReduced_step
    (lawful : LawfulReducer strategy.reduce)
    (suits : strategy.Suits call.observer)
    (isInitial : call.observer.initial = initial)
    (holds : HoldsReduced strategy initial calls before)
    (taken : Step strategy before call after) :
    HoldsReduced strategy initial (calls ++ [call]) after := by
  obtain ⟨length, -, entries⟩ := perform_spec suits taken
  subst isInitial
  refine ⟨?_, fun i => ?_⟩
  · rw [length, holds.length, longest, longest, List.foldl_append]
    rfl
  · obtain ⟨inHistory, isReduced⟩ := entries i
    rw [reducedAt_concat lawful, ← holds.entries]
    rcases Nat.lt_or_ge i after.historyMap.length with isEntry | isOut
    · rw [length] at isEntry
      rw [isReduced, getElem?_resized isEntry]
      rfl
    · have noneNew : newAt strategy i call = none := by
        rw [← Option.not_isSome_iff_eq_none]
        exact fun isSome => absurd (inHistory isSome) (Nat.not_lt.mpr isOut)
      have wasOut : before.historyMap.length ≤ i := by omega
      rw [noneNew, List.getElem?_eq_none isOut, List.getElem?_eq_none wasOut]
      rfl

theorem holdsReduced_run
    {start final : MapFeedback T}
    (lawful : LawfulReducer strategy.reduce)
    (fresh : start.historyMap = [])
    (suits : ∀ call ∈ calls, strategy.Suits call.observer)
    (sameInitial : ∀ call ∈ calls, call.observer.initial = initial)
    (run : Run (Step strategy) start calls final) :
    HoldsReduced strategy initial calls final := by
  induction calls using List.reverseRecOn generalizing final with
  | nil =>
      cases run
      exact ⟨fresh ▸ rfl, fun i => fresh ▸ rfl⟩
  | append_singleton front call ih =>
      obtain ⟨before, earlier, taken⟩ := run.of_snoc
      have isLast : call ∈ front ++ [call] := by simp
      refine holdsReduced_step lawful (suits call isLast)
        (sameInitial call isLast) (ih ?_ ?_ earlier) taken
      · exact fun other isOther => suits other (List.mem_append_left _ isOther)
      · exact fun other isOther =>
          sameInitial other (List.mem_append_left _ isOther)

end

/-- A relation in which reducing never goes down. -/
structure Grows
    {T : Type}
    (reduce : T → T → T)
    (le : T → T → Prop) : Prop where
  refl : ∀ a, le a a
  reduce : ∀ a b, le a (reduce a b)

theorem grows_max
    {T : Type}
    [LE T]
    [LT T]
    [DecidableLT T]
    [Std.IsLinearOrder T]
    [Std.LawfulOrderLT T] :
    Grows (@MaxReducer.reduce T _ _) (· ≤ ·) where
  refl := Std.le_refl
  reduce a b := by
    unfold MaxReducer.reduce
    grind

theorem grows_or
    {width : Nat} :
    Grows (@OrReducer.reduce (BitVec width) _) (· ≤ ·) where
  refl := BitVec.le_refl
  reduce a b := by
    rw [OrReducer.reduce, BitVec.le_def, BitVec.toNat_or]
    exact Nat.left_le_or

theorem LawfulReducer.grows
    {T : Type}
    {reduce : T → T → T}
    (lawful : LawfulReducer reduce) :
    Grows reduce (fun old new => reduce old new = new) where
  refl := lawful.idem
  reduce a b := by
    rw [← lawful.assoc, lawful.idem]

section

variable {T : Type}
variable {strategy : Strategy T}
variable {call : Call T}
variable {before after : MapFeedback T}

theorem entries_grow
    {le : T → T → Prop}
    (grows : Grows strategy.reduce le)
    (suits : strategy.Suits call.observer)
    (taken : Step strategy before call after)
    {i : Nat}
    {old : T}
    (isOld : before.historyMap[i]? = some old) :
    ∃ new, after.historyMap[i]? = some new ∧ le old new := by
  obtain ⟨-, -, entries⟩ := perform_spec suits taken
  have inBefore := (List.getElem?_eq_some_iff.mp isOld).1
  have isReduced := (entries i).2
  rw [getElem?_resized (lt_max_iff.mpr (.inl inBefore)), isOld] at isReduced
  refine ⟨_, isReduced, ?_⟩
  cases newAt strategy i call with
  | none =>
      exact grows.refl old
  | some value =>
      exact grows.reduce old value

/--
In every state that a fresh feedback gets to, the history holds what the accepted
maps reduce to.  No entry decreases in any order in which the reducer grows, and
a map that was just accepted is not interesting any more.
-/
theorem history_reduces_accepted
    {initial : T}
    {start : MapFeedback T}
    {calls : List (Call T)}
    (accumulates : strategy.Accumulates)
    (fresh : start.historyMap = [])
    (sameInitial : ∀ other ∈ calls ++ [call], other.observer.initial = initial)
    (suits : ∀ other ∈ calls ++ [call], strategy.Suits other.observer)
    (run : Run (Step strategy) start calls before)
    (taken : Step strategy before call after) :
    HoldsReduced strategy initial (calls ++ [call]) after ∧
      (∀ le : T → T → Prop, Grows strategy.reduce le →
        ∀ (i : Nat) (old : T),
          before.historyMap[i]? = some old →
            ∃ new, after.historyMap[i]? = some new ∧ le old new) ∧
      (call.accepted = true →
        ∃ next,
          strategy.isInteresting call.observer after = some (false, next)) := by
  have suitsLast := suits call (by simp)
  refine ⟨?_, fun le grows i old => entries_grow grows suitsLast taken, ?_⟩
  · exact holdsReduced_run accumulates.lawful fresh suits sameInitial
      (run.append (.single taken))
  · intro isAccepted
    obtain ⟨items, isItems, settled⟩ :=
      settled_of_accepted accumulates.lawful suitsLast isAccepted taken
    have isLong : call.observer.len ≤ after.historyMap.length := by
      rw [(perform_spec suitsLast taken).1]
      exact Nat.le_max_right _ _
    exact Strategy.isInteresting_settled accumulates suitsLast isItems isLong
      settled

end

/-- A longer map whose bits are collected behind a shorter one. -/
theorem history_reduces_accepted_or :
    ∃ before after : MapFeedback (BitVec 8),
      before.historyMap = [1] ∧
        HoldsReduced
          (.byDefault (@OrReducer.reduce (BitVec 8) _) DifferentIsNovel.isNovel)
          0 [⟨⟨[1], 1, 1, 0⟩, true⟩, ⟨⟨[2, 4], 2, 2, 0⟩, true⟩] after ∧
        (∃ new, after.historyMap[0]? = some new ∧ 1 ≤ new) ∧
        ∃ next,
          isInterestingDefault OrReducer.reduce DifferentIsNovel.isNovel
              ⟨[2, 4], 2, 2, 0⟩ after =
            some (false, next) := by
  have first :
      Step (.byDefault (@OrReducer.reduce (BitVec 8) _) DifferentIsNovel.isNovel)
        ⟨false, none, []⟩ ⟨⟨[1], 1, 1, 0⟩, true⟩ ⟨false, none, [1]⟩ := by
    rfl
  have second :
      Step (.byDefault (@OrReducer.reduce (BitVec 8) _) DifferentIsNovel.isNovel)
        ⟨false, none, [1]⟩ ⟨⟨[2, 4], 2, 2, 0⟩, true⟩ ⟨false, none, [3, 4]⟩ := by
    rfl
  obtain ⟨holds, grows, notAgain⟩ :=
    @history_reduces_accepted _ _ _ _ _ 0 _ _ .orDifferent rfl (by decide)
      (by exact fun _ _ => trivial) (.single first) second
  exact
    ⟨⟨false, none, [1]⟩, ⟨false, none, [3, 4]⟩, rfl, holds,
      grows _ grows_or 0 1 rfl, notAgain rfl⟩

/-- A map that was just accepted is interesting when it starts out with ones. -/
theorem accepted_map_is_interesting :
    ∃ (call : Call UInt8) (before after next : MapFeedback UInt8),
      before.historyMap = [] ∧
        call.accepted = true ∧
        Step .vectorized before call after ∧
        ¬HoldsReduced .vectorized call.observer.initial [call] after ∧
        Strategy.vectorized.isInteresting call.observer after =
          some (true, next) := by
  refine ⟨⟨⟨[1], 1, 1, 1⟩, true⟩, ⟨false, none, []⟩, ⟨false, none, [0]⟩,
    ⟨false, none, [0]⟩, rfl, rfl, by rfl, fun holds => ?_, by rfl⟩
  exact absurd (holds.entries 0) (by decide)

end MeFuzz.Feedbacks
