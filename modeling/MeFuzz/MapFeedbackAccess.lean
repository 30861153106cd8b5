import MeFuzz.MapFeedbackHistory
import MeFuzz.MapObservers

namespace MeFuzz.Feedbacks

/-!
# What is read of the history

The history is grown to the length that the observer gives, and read at the
entries that are used.  Where the two disagree, an entry behind the end may be
read; only a search that ends before it does not get there.
-/

section

variable {Element : Type*}
variable {found : Element → Option Bool}

theorem track_isSome_iff
    {index : Element → Nat}
    {elements : List Element}
    (tracked : Bool × List Nat) :
    (elements.foldlM (track found index) tracked).isSome = true ↔
      ∀ element ∈ elements, (found element).isSome = true := by
  induction elements generalizing tracked with
  | nil =>
      exact iff_of_true rfl nofun
  | cons element rest ih =>
      rw [List.foldlM_cons, List.forall_mem_cons, track]
      cases found element with
      | none =>
          exact iff_of_false Bool.false_ne_true fun reads =>
            Bool.false_ne_true reads.1
      | some isFound =>
          refine Iff.trans ?_ (and_iff_right rfl).symm
          cases isFound
          · exact ih _
          · exact ih _

theorem findsOne_isSome_iff
    {holds : Element → Bool}
    {front back : List Element}
    (reads : ∀ element ∈ front, found element = some (holds element))
    (fails : ∀ element ∈ back, found element = none) :
    (findsOne found (front ++ back)).isSome = true ↔
      back = [] ∨ front.any holds = true := by
  rw [findsOne_append, findsOne_of_total reads, Option.bind_some]
  cases front.any holds with
  | true =>
      exact iff_of_true rfl (.inr rfl)
  | false =>
      cases back with
      | nil =>
          exact iff_of_true rfl (.inl rfl)
      | cons element rest =>
          rw [findsOne, fails element List.mem_cons_self]
          refine iff_of_false Bool.false_ne_true ?_
          rintro (isNil | isFound)
          · cases isNil
          · cases isFound

theorem isSome_bind_of_total
    {Value Result : Type}
    {next : Value → Option Result}
    (total : ∀ value, (next value).isSome = true)
    (value : Option Value) :
    (value >>= next).isSome = value.isSome := by
  cases value with
  | none =>
      rfl
  | some value =>
      exact total value

end

section

variable {T : Type}
variable {reduce : T → T → T}
variable {isNovel : T → T → Bool}
variable {historyMap : List T}

theorem isNovelty_isSome_iff
    {cell : T × Nat} :
    (isNovelty reduce isNovel historyMap cell).isSome = true ↔
      cell.2 < historyMap.length := by
  unfold isNovelty
  cases isExisting : historyMap[cell.2]? with
  | none =>
      exact
        iff_of_false Bool.false_ne_true
          (Nat.not_lt.mpr (List.getElem?_eq_none_iff.mp isExisting))
  | some existing =>
      exact iff_of_true rfl (List.getElem?_eq_some_iff.mp isExisting).1

theorem reduceInto_isSome_iff
    {cells : List (T × Nat)} :
    (reduceInto reduce historyMap cells).isSome = true ↔
      ∀ cell ∈ cells, cell.2 < historyMap.length := by
  induction cells generalizing historyMap with
  | nil =>
      exact iff_of_true rfl nofun
  | cons cell rest ih =>
      rw [reduceInto, List.forall_mem_cons]
      cases isExisting : historyMap[cell.2]? with
      | none =>
          refine iff_of_false Bool.false_ne_true fun inHistory => ?_
          exact
            Nat.not_lt.mpr (List.getElem?_eq_none_iff.mp isExisting) inHistory.1
      | some existing =>
          have inHistory := (List.getElem?_eq_some_iff.mp isExisting).1
          refine Iff.trans ?_ (and_iff_right inHistory).symm
          refine (@ih (historyMap.set cell.2 _)).trans ?_
          rw [List.length_set]

end

namespace Strategy

/-- The entries of a map that are not initial. -/
def usedCells
    {T : Type}
    (strategy : Strategy T)
    (observer : MapObserver T) : List (T × Nat) :=
  @touched T strategy.decidableEq observer.initial
    (observer.asSlice.take observer.usableCount)

/-- What `append_metadata` reads lies within a history of the length. -/
def ReducesWithin
    {T : Type}
    (strategy : Strategy T)
    (observer : MapObserver T)
    (length : Nat) : Prop :=
  ∀ cell ∈ strategy.usedCells observer, cell.2 < length

/-- What a search to the end of the map reads lies within a history of the length. -/
def SearchesWithin {T : Type} : Strategy T → MapObserver T → Nat → Prop
  | @byDefault _ decidableEq reduce isNovel =>
      (@byDefault _ decidableEq reduce isNovel).ReducesWithin
  | .vectorized => fun observer length => observer.usableCount ≤ length

/-- A novelty ends the search before it gets behind the history. -/
def StopsWithin {T : Type} : Strategy T → MapObserver T → List T → Prop
  | @byDefault _ decidableEq reduce isNovel => fun observer historyMap =>
      ∃ cell ∈ (@byDefault _ decidableEq reduce isNovel).usedCells observer,
        isNovelty reduce isNovel historyMap cell = some true
  | .vectorized => fun observer historyMap =>
      ∃ j < Simd.readable observer.usableCount historyMap.length,
        above observer.asSlice historyMap j = true

end Strategy

/-- The history, once it has the length that the observer gives, is long enough. -/
structure InHistory
    {T : Type}
    (strategy : Strategy T)
    (now : MapFeedback T)
    (call : Call T) : Prop where
  searches :
    strategy.SearchesWithin call.observer
        (max now.historyMap.length call.observer.len) ∨
      now.novelties = none ∧
        strategy.StopsWithin call.observer
          (resized now.historyMap call.observer.len
            (strategy.fill call.observer))
  reduces :
    call.accepted = true →
      strategy.ReducesWithin call.observer
        (max now.historyMap.length call.observer.len)

section

variable {T : Type}
variable {observer : MapObserver T}
variable {self next : MapFeedback T}

theorem touched_split
    [DecidableEq T]
    (initial : T)
    (items : List T)
    (length : Nat) :
    ∃ front back,
      touched initial items = front ++ back ∧
        (∀ cell ∈ front, cell.2 < length) ∧
        ∀ cell ∈ back, length ≤ cell.2 := by
  obtain ⟨back, split, isBehind⟩ :=
    @touched_append T _ initial (items.take length) (items.drop length)
  rw [List.take_append_drop] at split
  refine ⟨_, back, split, fun cell isTouched => ?_, fun cell isCell => ?_⟩
  · have inItems := lt_of_mem_touched isTouched
    rw [List.length_take] at inItems
    exact inItems.trans_le (Nat.min_le_left _ _)
  · have isBehind := isBehind cell isCell
    have inItems : cell.2 < items.length := by
      refine @lt_of_mem_touched T _ initial _ _ ?_
      rw [split]
      exact List.mem_append_right _ isCell
    rw [List.length_take] at isBehind
    omega

theorem isInterestingDefault_isSome_iff
    [DecidableEq T]
    {reduce : T → T → T}
    {isNovel : T → T → Bool}
    (inMap : observer.usableCount ≤ observer.asSlice.length) :
    (isInterestingDefault reduce isNovel observer self).isSome = true ↔
      (Strategy.byDefault reduce isNovel).SearchesWithin observer
          (max self.historyMap.length observer.len) ∨
        self.novelties = none ∧
          (Strategy.byDefault reduce isNovel).StopsWithin observer
            (resized self.historyMap observer.len observer.initial) := by
  have reads :
      (∀ cell ∈ touched observer.initial (observer.asSlice.take observer.usableCount),
          (isNovelty reduce isNovel
            (resized self.historyMap observer.len observer.initial)
            cell).isSome = true) ↔
        (Strategy.byDefault reduce isNovel).SearchesWithin observer
          (max self.historyMap.length observer.len) := by
    simp only [isNovelty_isSome_iff, length_resized]
    rfl
  rw [isInterestingDefault, MapObserver.asIter, if_pos inMap]
  cases tracks : self.novelties with
  | some novelties =>
      change
        Option.isSome ((List.foldlM _ _ _ : Option (Bool × List Nat)) >>= _) = true ↔ _
      rw [isSome_bind_of_total (fun _ => rfl), track_isSome_iff, reads]
      exact (or_iff_left fun stops => Option.some_ne_none novelties stops.1).symm
  | none =>
      change Option.isSome ((findsOne _ _ : Option Bool) >>= _) = true ↔ _
      rw [isSome_bind_of_total (fun _ => rfl)]
      obtain ⟨front, back, split, within, behind⟩ :=
        touched_split observer.initial
          (observer.asSlice.take observer.usableCount)
          (max self.historyMap.length observer.len)
      have readsFront :
          ∀ cell ∈ front,
            isNovelty reduce isNovel
                (resized self.historyMap observer.len observer.initial) cell =
              some
                ((isNovelty reduce isNovel
                    (resized self.historyMap observer.len observer.initial)
                    cell).getD
                  false) := by
        intro cell isCell
        obtain ⟨isNew, isRead⟩ :=
          Option.isSome_iff_exists.mp
            (isNovelty_isSome_iff.mpr (length_resized ▸ within cell isCell))
        rw [isRead]
        rfl
      have failsBack :
          ∀ cell ∈ back,
            isNovelty reduce isNovel
                (resized self.historyMap observer.len observer.initial) cell =
              none := by
        intro cell isCell
        rw [← Option.not_isSome_iff_eq_none, isNovelty_isSome_iff, length_resized]
        exact Nat.not_lt.mpr (behind cell isCell)
      rw [split, findsOne_isSome_iff readsFront failsBack]
      refine or_congr ?_ ?_
      · constructor
        · rintro rfl
          rw [List.append_nil] at split
          exact fun cell isCell => within cell (split ▸ isCell)
        · intro allWithin
          refine List.eq_nil_iff_forall_not_mem.mpr fun cell isCell => ?_
          have isUsed := List.mem_append_right front isCell
          rw [← split] at isUsed
          exact Nat.not_lt.mpr (behind cell isCell) (allWithin cell isUsed)
      · rw [List.any_eq_true, and_iff_right rfl]
        constructor
        · rintro ⟨cell, isCell, isNew⟩
          have isUsed := List.mem_append_left back isCell
          rw [← split] at isUsed
          exact ⟨cell, isUsed, (readsFront cell isCell).trans (congrArg some isNew)⟩
        · rintro ⟨cell, isCell, isNew⟩
          rw [Strategy.usedCells, Strategy.decidableEq, split] at isCell
          rcases List.mem_append.mp isCell with inFront | inBack
          · exact ⟨cell, inFront, by rw [isNew]; rfl⟩
          · rw [failsBack cell inBack] at isNew
            cases isNew

theorem isInterestingVectorized_isSome_iff
    {observer : MapObserver UInt8}
    {self : MapFeedback UInt8}
    (inMap : observer.usableCount ≤ observer.asSlice.length) :
    (Simd.isInteresting observer self).isSome = true ↔
      Strategy.vectorized.SearchesWithin observer
          (max self.historyMap.length observer.len) ∨
        self.novelties = none ∧
          Strategy.vectorized.StopsWithin observer
            (resized self.historyMap observer.len 0) := by
  rcases Nat.lt_or_ge (max self.historyMap.length observer.len)
    observer.usableCount with isOut | inHistory
  · refine Iff.trans ?_ (or_iff_right (Nat.not_le.mpr isOut)).symm
    have isOut :
        (resized self.historyMap observer.len 0).length < observer.usableCount :=
      length_resized.symm ▸ isOut
    cases tracks : self.novelties with
    | some novelties =>
        have isTracking : self.novelties.isSome = true := tracks ▸ rfl
        rw [Simd.isInteresting_overrun_tracking isOut isTracking]
        exact iff_of_false Bool.false_ne_true fun stops => nomatch stops.1
    | none =>
        rw [Simd.isInteresting_overrun inMap isOut tracks, and_iff_right rfl]
        split
        · rename_i isFound
          exact iff_of_true rfl (any_range_iff.mp isFound)
        · rename_i notFound
          exact
            iff_of_false Bool.false_ne_true fun stops =>
              notFound (any_range_iff.mpr stops)
  · rw [Simd.isInteresting_eq inMap (length_resized.symm ▸ inHistory)]
    exact iff_of_true rfl (.inl inHistory)

variable {strategy : Strategy T}

theorem isInteresting_isSome_iff
    (inMap : observer.usableCount ≤ observer.asSlice.length) :
    (strategy.isInteresting observer self).isSome = true ↔
      strategy.SearchesWithin observer (max self.historyMap.length observer.len) ∨
        self.novelties = none ∧
          strategy.StopsWithin observer
            (resized self.historyMap observer.len (strategy.fill observer)) := by
  cases strategy with
  | byDefault reduce isNovel =>
      exact isInterestingDefault_isSome_iff inMap
  | vectorized =>
      exact isInterestingVectorized_isSome_iff inMap

theorem append_isSome_iff
    (inMap : observer.usableCount ≤ observer.asSlice.length) :
    (strategy.append observer self).isSome = true ↔
      strategy.ReducesWithin observer self.historyMap.length := by
  unfold Strategy.append appendMetadata
  rw [MapObserver.asIter, if_pos inMap]
  change Option.isSome ((reduceInto _ _ _ : Option (List T)) >>= _) = true ↔ _
  rw [isSome_bind_of_total (fun _ => rfl), reduceInto_isSome_iff]
  rfl

theorem length_append
    {metadata : TestcaseMetadata}
    (appends : strategy.append observer self = some (metadata, next)) :
    next.historyMap.length = self.historyMap.length := by
  obtain ⟨items, -, reduced⟩ := append_spec appends
  exact (reduceInto_spec reduced).1

theorem perform_isSome_iff
    {call : Call T}
    (inMap : call.observer.usableCount ≤ call.observer.asSlice.length) :
    (perform strategy self call).isSome = true ↔ InHistory strategy self call := by
  have searches := @isInteresting_isSome_iff T call.observer self strategy inMap
  unfold perform
  cases judged : strategy.isInteresting call.observer self with
  | none =>
      rw [judged] at searches
      exact
        iff_of_false Bool.false_ne_true fun inHistory =>
          Bool.false_ne_true (searches.mpr inHistory.searches)
  | some result =>
      rw [judged] at searches
      have searches := searches.mp rfl
      have isFilled := Strategy.historyMap_isInteresting_fill judged
      cases isAccepted : call.accepted with
      | false =>
          refine iff_of_true rfl ⟨searches, fun accepts => ?_⟩
          rw [isAccepted] at accepts
          cases accepts
      | true =>
          change
            Option.isSome
                ((strategy.append call.observer result.2 :
                  Option (TestcaseMetadata × MapFeedback T)) >>= _) =
              true ↔ _
          rw [isSome_bind_of_total (fun _ => rfl), append_isSome_iff inMap,
            isFilled, length_resized]
          exact ⟨fun reduces => ⟨searches, fun _ => reduces⟩, fun inHistory =>
            inHistory.reduces isAccepted⟩

end

/-- What the observer has after an execution, and whether its input is accepted. -/
structure Execution (T : Type) where
  observer : Observer T
  accepted : Bool

/-- The calls after an execution. -/
def Execution.toCall
    {T : Type}
    (execution : Execution T) : Call T :=
  ⟨execution.observer.toMapObserver, execution.accepted⟩

section

variable {T : Type}

/-- The calls after one execution after the other. -/
def performAll
    (strategy : Strategy T) :
    MapFeedback T → List (Execution T) → Option (MapFeedback T)
  | self, [] => some self
  | self, execution :: rest => do
      let self ← perform strategy self execution.toCall
      performAll strategy self rest

/-- The used entries from a length on are initial. -/
def InitialFrom
    (observer : MapObserver T)
    (length : Nat) : Prop :=
  ∀ j, length ≤ j → j < observer.usableCount →
    observer.asSlice[j]? = some observer.initial

/-- A search to the end of a map finds nothing to look at from a length on. -/
def Strategy.EndsWithin {T : Type} : Strategy T → MapObserver T → Nat → Prop
  | @byDefault _ _ _ _ => InitialFrom
  | .vectorized => fun observer length => observer.usableCount ≤ length

/--
A map is not used from a length on: the search ends there, by itself or because an
entry in front of it is novel already, and all else is initial if it is accepted.
-/
structure UsedWithin
    (strategy : Strategy T)
    (now : MapFeedback T)
    (execution : Execution T)
    (length : Nat) : Prop where
  search :
    strategy.EndsWithin execution.observer.toMapObserver length ∨
      now.novelties = none ∧
        strategy.StopsWithin execution.observer.toMapObserver
          (resized now.historyMap execution.observer.toMapObserver.len
            (strategy.fill execution.observer.toMapObserver))
  append :
    execution.accepted = true →
      InitialFrom execution.observer.toMapObserver length

variable {strategy : Strategy T}

theorem reducesWithin_iff
    {observer : MapObserver T}
    {length : Nat}
    (inMap : observer.usableCount ≤ observer.asSlice.length) :
    strategy.ReducesWithin observer length ↔ InitialFrom observer length := by
  let _ := strategy.decidableEq
  have isEntry
      {j : Nat}
      (isUsed : j < observer.usableCount) :
      observer.asSlice[j]? = some observer.asSlice[j] :=
    List.getElem?_eq_getElem (isUsed.trans_le inMap)
  constructor
  · intro reduces j isBehind isUsed
    rw [isEntry isUsed]
    by_contra isOther
    refine Nat.not_lt.mpr isBehind (reduces (observer.asSlice[j], j) ?_)
    refine List.mem_filter.mpr ⟨List.mem_zipIdx_iff_getElem?.mpr ?_, ?_⟩
    · rw [List.getElem?_take_of_lt isUsed, isEntry isUsed]
    · exact decide_eq_true fun isInitial => isOther (congrArg some isInitial)
  · rintro initialFrom ⟨value, j⟩ isCell
    obtain ⟨isItem, isOther⟩ := List.mem_filter.mp isCell
    have isItem := List.mem_zipIdx_iff_getElem?.mp isItem
    have isUsed : j < observer.usableCount := by
      have inItems := (List.getElem?_eq_some_iff.mp isItem).1
      rw [List.length_take] at inItems
      exact inItems.trans_le (Nat.min_le_left _ _)
    by_contra isBehind
    have isInitial := initialFrom j (Nat.not_lt.mp isBehind) isUsed
    rw [List.getElem?_take_of_lt isUsed, isInitial] at isItem
    exact of_decide_eq_true isOther (Option.some.inj isItem).symm

theorem searchesWithin_iff
    {observer : MapObserver T}
    {length : Nat}
    (inMap : observer.usableCount ≤ observer.asSlice.length) :
    strategy.SearchesWithin observer length ↔
      strategy.EndsWithin observer length := by
  cases strategy with
  | byDefault reduce isNovel =>
      exact reducesWithin_iff inMap
  | vectorized =>
      exact Iff.rfl

/-- What fits into the observer's length is never behind the end. -/
theorem usedWithin_of_le
    {now : MapFeedback T}
    {execution : Execution T}
    {length : Nat}
    (fits : execution.observer.toMapObserver.usableCount ≤ length) :
    UsedWithin strategy now execution length where
  search := by
    refine .inl ?_
    cases strategy with
    | byDefault reduce isNovel =>
        exact fun j isBehind isUsed =>
          absurd (isUsed.trans_le fits) (Nat.not_lt.mpr isBehind)
    | vectorized =>
        exact fits
  append _ j isBehind isUsed :=
    absurd (isUsed.trans_le fits) (Nat.not_lt.mpr isBehind)

theorem inHistory_iff
    {now : MapFeedback T}
    {execution : Execution T} :
    InHistory strategy now execution.toCall ↔
      (execution.observer.IsLongConst →
        UsedWithin strategy now execution
          (max now.historyMap.length
            execution.observer.toMapObserver.len)) := by
  have inMap := execution.observer.usableCount_le_asSlice
  constructor
  · intro inHistory _
    exact
      ⟨inHistory.searches.imp_left (searchesWithin_iff inMap).mp,
        fun isAccepted => (reducesWithin_iff inMap).mp (inHistory.reduces isAccepted)⟩
  · intro usedWithin
    have used : UsedWithin strategy now execution
        (max now.historyMap.length execution.observer.toMapObserver.len) := by
      by_cases isLong : execution.observer.IsLongConst
      · exact usedWithin isLong
      · exact usedWithin_of_le
          ((execution.observer.usableCount_le_len isLong).trans
            (Nat.le_max_right _ _))
    exact
      ⟨used.search.imp_left (searchesWithin_iff inMap).mpr,
        fun isAccepted => (reducesWithin_iff inMap).mpr (used.append isAccepted)⟩

theorem performAll_isSome_iff
    {self : MapFeedback T}
    {executions : List (Execution T)} :
    (performAll strategy self executions).isSome = true ↔
      ∀ front execution back now,
        executions = front ++ execution :: back →
          performAll strategy self front = some now →
            InHistory strategy now execution.toCall := by
  induction executions generalizing self with
  | nil =>
      refine iff_of_true rfl fun front execution back now split => ?_
      exact absurd split (by simp)
  | cons execution rest ih =>
      have atHead :=
        @perform_isSome_iff T self strategy execution.toCall
          execution.observer.usableCount_le_asSlice
      rw [performAll]
      cases performed : perform strategy self execution.toCall with
      | none =>
          rw [performed] at atHead
          refine iff_of_false Bool.false_ne_true fun inHistory => ?_
          exact Bool.false_ne_true (atHead.mpr (inHistory [] _ _ _ rfl rfl))
      | some next =>
          rw [performed] at atHead
          refine ih.trans ⟨?_, ?_⟩
          · intro inHistory front later back now split reached
            cases front with
            | nil =>
                obtain ⟨rfl, rfl⟩ := List.cons.inj split
                obtain rfl := Option.some.inj reached
                exact atHead.mp rfl
            | cons first front =>
                obtain ⟨rfl, splitRest⟩ := List.cons.inj split
                rw [performAll, performed] at reached
                exact inHistory front later back now splitRest reached
          · intro inHistory front later back now split reached
            refine
              inHistory (execution :: front) later back now (split ▸ rfl) ?_
            rw [performAll, performed]
            exact reached

end

/-- Without maps that are longer than their constants, no entry is read behind the end. -/
theorem reads_in_range_of_noLongConst
    {T : Type}
    (strategy : Strategy T)
    (self : MapFeedback T)
    (executions : List (Execution T))
    (noLongConst :
      ∀ execution ∈ executions, ¬execution.observer.IsLongConst) :
    (performAll strategy self executions).isSome = true := by
  refine performAll_isSome_iff.mpr fun front execution back now split _ => ?_
  refine inHistory_iff.mpr fun isLong => ?_
  exact absurd isLong (noLongConst execution (by simp [split]))

end MeFuzz.Feedbacks
