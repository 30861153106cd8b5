import MeFuzz.MapFeedback

namespace MeFuzz.Feedbacks

/-!
# When the two implementations agree

Going over sixteen entries at once finds the entries above a history that was
filled up with zeros.  The default skips the entries that are initial and fills
the history up with the initial value.  So the two agree unless an entry is
mistaken for a novelty, or one that the default finds hides the mistake.
-/

section

variable {Element : Type*}
variable {found : Element → Option Bool}
variable {holds : Element → Bool}
variable {elements front back : List Element}

theorem findsOne_append :
    findsOne found (front ++ back) =
      (findsOne found front).bind fun isFound =>
        if isFound then some true else findsOne found back := by
  induction front with
  | nil =>
      rfl
  | cons element rest ih =>
      rw [List.cons_append, findsOne, findsOne]
      cases found element with
      | none =>
          rfl
      | some isFound =>
          cases isFound
          · exact ih
          · rfl

theorem findsOne_of_total
    (total : ∀ element ∈ elements, found element = some (holds element)) :
    findsOne found elements = some (elements.any holds) := by
  induction elements with
  | nil =>
      rfl
  | cons element rest ih =>
      have atRest :=
        ih fun later isLater =>
          total later (List.mem_cons_of_mem _ isLater)
      rw [findsOne, total element List.mem_cons_self, List.any_cons]
      cases holds element
      · exact atRest
      · rfl

theorem findsOne_of_fails
    {element : Element}
    (total : ∀ element ∈ front, found element = some (holds element))
    (fails : found element = none) :
    findsOne found (front ++ element :: back) =
      if front.any holds then some true else none := by
  rw [findsOne_append, findsOne_of_total total, Option.bind_some, findsOne, fails]
  rfl

theorem range'_eq_append_cons
    {start count middle : Nat}
    (fromStart : start ≤ middle)
    (toEnd : middle < start + count) :
    List.range' start count =
      List.range' start (middle - start) ++
        middle ::
          List.range' (middle + 1) (start + count - (middle + 1)) := by
  have split : count = middle - start + (start + count - (middle + 1) + 1) := by
    omega
  have atMiddle : start + 1 * (middle - start) = middle := by
    omega
  conv_lhs => rw [split, ← List.range'_append, atMiddle, List.range'_succ]

theorem track_of_total
    {index : Element → Nat}
    (total : ∀ element ∈ elements, found element = some (holds element))
    (tracked : Bool × List Nat) :
    elements.foldlM (track found index) tracked =
      some
        (tracked.1 || elements.any holds,
          tracked.2 ++ (elements.filter holds).map index) := by
  induction elements generalizing tracked with
  | nil =>
      simp
  | cons element rest ih =>
      have atRest :=
        ih fun later isLater =>
          total later (List.mem_cons_of_mem _ isLater)
      rw [List.foldlM_cons, track, total element List.mem_cons_self]
      cases isFound : holds element
      · simp [atRest, isFound]
      · simp [atRest, isFound]

theorem foldlM_fails
    {State : Type*}
    {body : State → Element → Option State}
    {element : Element}
    (fails : ∀ state, body state element = none)
    (state : State) :
    (front ++ element :: back).foldlM body state = none := by
  rw [List.foldlM_append]
  cases front.foldlM body state with
  | none =>
      rfl
  | some next =>
      exact congrArg (Option.bind · _) (fails next)

end

/-- Whether the entry of a map is above the history. -/
def above
    (map historyMap : List UInt8)
    (j : Nat) : Bool :=
  match map[j]?, historyMap[j]? with
  | some item, some existing => existing < item
  | _, _ => false

namespace Simd

variable {map historyMap : List UInt8}

theorem isAbove_eq
    {j : Nat}
    (inMap : j < map.length)
    (inHistory : j < historyMap.length) :
    isAbove map historyMap j = some (above map historyMap j) := by
  unfold isAbove above
  rw [List.getElem?_eq_getElem inMap, List.getElem?_eq_getElem inHistory]
  rfl

theorem isAbove_fails
    {j : Nat}
    (isOut : historyMap.length ≤ j) :
    isAbove map historyMap j = none := by
  unfold isAbove
  rw [List.getElem?_eq_none isOut]
  cases map[j]? <;> rfl

theorem fromSlice_eq
    {slice : List UInt8}
    {i : Nat}
    (fits : i + lanes ≤ slice.length) :
    fromSlice slice i = some ((slice.drop i).take lanes) :=
  if_pos fits

theorem max_eq_history_iff
    {item existing : UInt8} :
    max item existing = existing ↔ ¬existing < item := by
  change (if item ≤ existing then existing else item) = existing ↔ _
  rw [Std.not_lt]
  constructor
  · intro same
    split at same
    · assumption
    · exact same ▸ Std.le_refl _
  · exact fun isBelow => if_pos isBelow

theorem simdMax_eq_iff
    {items history : List UInt8}
    (sameLength : items.length = history.length) :
    simdMax items history = history ↔
      ∀ j < history.length, above items history j = false := by
  constructor
  · intro same j inHistory
    have inItems : j < items.length := sameLength ▸ inHistory
    have atIndex := congrArg (·[j]?) same
    simp only [simdMax, List.getElem?_zipWith, List.getElem?_eq_getElem inItems,
      List.getElem?_eq_getElem inHistory] at atIndex
    unfold above
    rw [List.getElem?_eq_getElem inItems, List.getElem?_eq_getElem inHistory]
    exact decide_eq_false (max_eq_history_iff.mp (Option.some.inj atIndex))
  · intro noneAbove
    have inMax : (simdMax items history).length = history.length := by
      rw [simdMax, List.length_zipWith, sameLength, Nat.min_self]
    refine List.ext_getElem inMax fun j _ inHistory => ?_
    have inItems : j < items.length := sameLength ▸ inHistory
    have isBelow := noneAbove j inHistory
    unfold above at isBelow
    rw [List.getElem?_eq_getElem inItems,
      List.getElem?_eq_getElem inHistory] at isBelow
    exact
      (List.getElem_zipWith).trans
        (max_eq_history_iff.mpr (of_decide_eq_false isBelow))

theorem above_lanes
    {start j : Nat}
    (isLane : j < lanes) :
    above ((map.drop start).take lanes) ((historyMap.drop start).take lanes) j =
      above map historyMap (start + j) := by
  unfold above
  rw [List.getElem?_take_of_lt isLane, List.getElem?_take_of_lt isLane,
    List.getElem?_drop, List.getElem?_drop]

section

variable {step : Nat}

theorem stepIsAbove_eq
    (inMap : step * lanes + lanes ≤ map.length)
    (inHistory : step * lanes + lanes ≤ historyMap.length) :
    stepIsAbove map historyMap step =
      some
        ((List.range' (step * lanes) lanes).any (above map historyMap)) := by
  have lengths :
      ∀ slice : List UInt8, step * lanes + lanes ≤ slice.length →
        ((slice.drop (step * lanes)).take lanes).length = lanes := by
    intro slice fits
    rw [List.length_take, List.length_drop]
    omega
  have sameLength := (lengths _ inMap).trans (lengths _ inHistory).symm
  have found := simdMax_eq_iff sameLength
  rw [lengths _ inHistory] at found
  rw [stepIsAbove, fromSlice_eq inHistory, fromSlice_eq inMap]
  refine congrArg some ?_
  rw [Bool.eq_iff_iff, decide_eq_true_iff, ne_eq, found, List.any_eq_true]
  constructor
  · intro notAll
    push Not at notAll
    obtain ⟨j, isLane, isAbove⟩ := notAll
    rw [above_lanes isLane] at isAbove
    exact ⟨_, List.mem_range'_1.mpr ⟨by omega, by omega⟩,
      eq_true_of_ne_false isAbove⟩
  · rintro ⟨j, inStep, isAbove⟩ noneAbove
    obtain ⟨fromStart, toEnd⟩ := List.mem_range'_1.mp inStep
    have isBelow := noneAbove (j - step * lanes) (by omega)
    rw [above_lanes (by omega), Nat.add_sub_cancel' fromStart, isAbove] at isBelow
    cases isBelow

theorem stepIsAbove_fails
    (isOut : historyMap.length < step * lanes + lanes) :
    stepIsAbove map historyMap step = none := by
  rw [stepIsAbove, fromSlice, if_neg (Nat.not_le.mpr isOut)]
  rfl

theorem foldlM_pushAbove
    {indices : List Nat}
    (inMap : ∀ j ∈ indices, j < map.length)
    (inHistory : ∀ j ∈ indices, j < historyMap.length)
    (novelties : List Nat) :
    indices.foldlM (pushAbove map historyMap) novelties =
      some (novelties ++ indices.filter (above map historyMap)) := by
  induction indices generalizing novelties with
  | nil =>
      simp
  | cons j rest ih =>
      have atRest :=
        ih
          (fun later isLater => inMap later (List.mem_cons_of_mem _ isLater))
          (fun later isLater => inHistory later (List.mem_cons_of_mem _ isLater))
      rw [List.foldlM_cons, pushAbove,
        isAbove_eq (inMap j List.mem_cons_self) (inHistory j List.mem_cons_self)]
      cases isFound : above map historyMap j
      · simp [atRest, isFound]
      · simp [atRest, isFound]

theorem trackStep_eq
    (inMap : step * lanes + lanes ≤ map.length)
    (inHistory : step * lanes + lanes ≤ historyMap.length)
    (tracked : Bool × List Nat) :
    trackStep map historyMap tracked step =
      some
        (tracked.1 ||
            (List.range' (step * lanes) lanes).any (above map historyMap),
          tracked.2 ++
            (List.range' (step * lanes) lanes).filter (above map historyMap)) := by
  have within :
      ∀ j ∈ List.range' (step * lanes) lanes, j < step * lanes + lanes :=
    fun j inStep => (List.mem_range'_1.mp inStep).2
  rw [trackStep, stepIsAbove_eq inMap inHistory,
    foldlM_pushAbove (fun j inStep => (within j inStep).trans_le inMap)
      fun j inStep => (within j inStep).trans_le inHistory]
  cases anyAbove : (List.range' (step * lanes) lanes).any (above map historyMap)
  · have noneAbove :
        (List.range' (step * lanes) lanes).filter (above map historyMap) = [] :=
      List.filter_eq_nil_iff.mpr fun j inStep isAbove =>
        List.any_eq_false.mp anyAbove j inStep isAbove
    rw [noneAbove, List.append_nil, Bool.or_false]
    rfl
  · rw [Bool.or_true]
    rfl

theorem foldlM_trackStep
    {steps : Nat}
    (inMap : steps * lanes ≤ map.length)
    (inHistory : steps * lanes ≤ historyMap.length) :
    (List.range steps).foldlM (trackStep map historyMap) (false, []) =
      some
        ((List.range (steps * lanes)).any (above map historyMap),
          (List.range (steps * lanes)).filter (above map historyMap)) := by
  induction steps with
  | zero =>
      rw [Nat.zero_mul]
      rfl
  | succ steps ih =>
      rw [Nat.succ_mul] at inMap inHistory
      rw [List.range_succ, List.foldlM_append,
        ih (by omega) (by omega), Nat.succ_mul, List.range_add,
        List.any_append, List.filter_append, ← List.range'_eq_map_range]
      change [steps].foldlM (trackStep map historyMap) _ = _
      rw [List.foldlM_cons, trackStep_eq inMap inHistory]
      rfl

theorem range_eq_steps_append_left
    (size : Nat) :
    List.range size =
      List.range (size / lanes * lanes) ++
        List.range' (size - size % lanes) (size % lanes) := by
  have whole := Nat.div_add_mod' size lanes
  have start : size - size % lanes = size / lanes * lanes := by omega
  rw [start, List.range'_eq_map_range, ← List.range_add, whole]

theorem any_steps
    (steps : Nat)
    (found : Nat → Bool) :
    (List.range steps).any
        (fun step => (List.range' (step * lanes) lanes).any found) =
      (List.range (steps * lanes)).any found := by
  induction steps with
  | zero =>
      rw [Nat.zero_mul]
      rfl
  | succ steps ih =>
      rw [List.range_succ, List.any_append, ih, Nat.succ_mul,
        List.range_add, List.any_append, ← List.range'_eq_map_range,
        List.any_cons, List.any_nil, Bool.or_false]

end

section

variable {observer : MapObserver UInt8}
variable {self : MapFeedback UInt8}

theorem isInteresting_eq
    (inMap : observer.usableCount ≤ observer.asSlice.length)
    (inHistory :
      observer.usableCount ≤
        (resized self.historyMap observer.len 0).length) :
    isInteresting observer self =
      some
        ((List.range observer.usableCount).any
            (above observer.asSlice (resized self.historyMap observer.len 0)),
          { self with
            historyMap := resized self.historyMap observer.len 0
            novelties :=
              self.novelties.map fun _ =>
                (List.range observer.usableCount).filter
                  (above observer.asSlice
                    (resized self.historyMap observer.len 0)) }) := by
  have whole := Nat.div_add_mod' observer.usableCount lanes
  have stepsInMap :
      observer.usableCount / lanes * lanes ≤ observer.asSlice.length := by
    omega
  have stepsInHistory :
      observer.usableCount / lanes * lanes ≤
        (resized self.historyMap observer.len 0).length := by
    omega
  have readsLeft :
      ∀ j ∈ List.range' (observer.usableCount - observer.usableCount % lanes)
          (observer.usableCount % lanes),
        isAbove observer.asSlice (resized self.historyMap observer.len 0) j =
          some
            (above observer.asSlice
              (resized self.historyMap observer.len 0) j) := by
    intro j isLeft
    obtain ⟨_, toEnd⟩ := List.mem_range'_1.mp isLeft
    exact isAbove_eq (by omega) (by omega)
  have readsSteps :
      ∀ step ∈ List.range (observer.usableCount / lanes),
        stepIsAbove observer.asSlice
            (resized self.historyMap observer.len 0) step =
          some
            ((List.range' (step * lanes) lanes).any
              (above observer.asSlice
                (resized self.historyMap observer.len 0))) := by
    intro step isStep
    have isEarlier :=
      Nat.mul_le_mul_right lanes (Nat.succ_le_of_lt (List.mem_range.mp isStep))
    rw [Nat.succ_mul] at isEarlier
    exact stepIsAbove_eq (by omega) (by omega)
  rw [isInteresting, if_neg (Nat.not_lt.mpr inMap),
    range_eq_steps_append_left observer.usableCount, List.any_append,
    List.filter_append]
  cases tracks : self.novelties with
  | some novelties =>
      dsimp only [Option.isSome_some, if_true]
      simp only [foldlM_trackStep stepsInMap stepsInHistory,
        track_of_total readsLeft, Option.bind_eq_bind, Option.bind_some,
        List.map_id, Option.map_some, if_true]
  | none =>
      dsimp only [Option.isSome_none, Bool.false_eq_true, if_false]
      rw [findsOne_of_total readsSteps, any_steps]
      cases anyAbove :
        (List.range (observer.usableCount / lanes * lanes)).any
          (above observer.asSlice (resized self.historyMap observer.len 0))
      · change (findsOne _ _ >>= _) = _
        rw [findsOne_of_total readsLeft]
        simp
      · simp

/-- The entries that are read before the first that the history is too short for. -/
def readable
    (size length : Nat) : Nat :=
  if length < size / lanes * lanes then length / lanes * lanes else length

theorem isInteresting_overrun_tracking
    (isOut :
      (resized self.historyMap observer.len 0).length < observer.usableCount)
    (tracks : self.novelties.isSome = true) :
    isInteresting observer self = none := by
  have whole := Nat.div_add_mod' observer.usableCount lanes
  rw [isInteresting]
  dsimp only
  split
  · rfl
  · rename_i inMap
    rcases Nat.lt_or_ge (resized self.historyMap observer.len 0).length
      (observer.usableCount / lanes * lanes) with outOfSteps | inSteps
    · have isStep :
          (resized self.historyMap observer.len 0).length / lanes <
            0 + observer.usableCount / lanes := by
        rw [Nat.zero_add]
        exact Nat.div_lt_of_lt_mul (Nat.mul_comm _ lanes ▸ outOfSteps)
      have fails :
          ∀ tracked,
            trackStep observer.asSlice (resized self.historyMap observer.len 0)
              tracked
              ((resized self.historyMap observer.len 0).length / lanes) =
              none := by
        intro tracked
        rw [trackStep, stepIsAbove_fails (Nat.lt_div_mul_add (by decide))]
        rfl
      rw [List.range_eq_range', range'_eq_append_cons (Nat.zero_le _) isStep,
        foldlM_fails fails]
      rfl
    · have fails :
          ∀ tracked,
            track
              (isAbove observer.asSlice
                (resized self.historyMap observer.len 0))
              id tracked (resized self.historyMap observer.len 0).length =
              none := by
        intro tracked
        rw [track, isAbove_fails (Nat.le_refl _)]
        rfl
      rw [foldlM_trackStep (by omega) inSteps,
        @range'_eq_append_cons _ _
          (resized self.historyMap observer.len 0).length (by omega) (by omega)]
      simp only [Option.bind_eq_bind, Option.bind_some, foldlM_fails fails,
        Option.bind_none]

/-- Only an entry that is read before ends the search. -/
theorem isInteresting_overrun
    (inMap : observer.usableCount ≤ observer.asSlice.length)
    (isOut :
      (resized self.historyMap observer.len 0).length < observer.usableCount)
    (tracksNothing : self.novelties = none) :
    isInteresting observer self =
      if
          (List.range
            (readable observer.usableCount
              (resized self.historyMap observer.len 0).length)).any
            (above observer.asSlice (resized self.historyMap observer.len 0)) then
        some
          (true,
            { self with
              historyMap := resized self.historyMap observer.len 0 })
      else none := by
  have whole := Nat.div_add_mod' observer.usableCount lanes
  rw [isInteresting, if_neg (Nat.not_lt.mpr inMap)]
  dsimp only
  rw [tracksNothing, readable]
  rw [Option.isSome_none, if_neg Bool.false_ne_true]
  have reads :
      ∀ steps,
        steps * lanes ≤ (resized self.historyMap observer.len 0).length →
          steps * lanes ≤ observer.usableCount →
            ∀ step ∈ List.range steps,
              stepIsAbove observer.asSlice
                  (resized self.historyMap observer.len 0) step =
                some
                  ((List.range' (step * lanes) lanes).any
                    (above observer.asSlice
                      (resized self.historyMap observer.len 0))) := by
    intro steps inHistory inSize step isStep
    have isEarlier :=
      Nat.mul_le_mul_right lanes (Nat.succ_le_of_lt (List.mem_range.mp isStep))
    rw [Nat.succ_mul] at isEarlier
    exact stepIsAbove_eq (by omega) (by omega)
  rcases Nat.lt_or_ge (resized self.historyMap observer.len 0).length
    (observer.usableCount / lanes * lanes) with outOfSteps | inSteps
  · have isStep :
        (resized self.historyMap observer.len 0).length / lanes <
          0 + observer.usableCount / lanes := by
      rw [Nat.zero_add]
      exact Nat.div_lt_of_lt_mul (Nat.mul_comm _ lanes ▸ outOfSteps)
    have inHistory :=
      Nat.div_mul_le_self (resized self.historyMap observer.len 0).length lanes
    have split := range'_eq_append_cons (Nat.zero_le _) isStep
    rw [Nat.sub_zero, ← List.range_eq_range', ← List.range_eq_range'] at split
    rw [if_pos outOfSteps, split,
      findsOne_of_fails (reads _ inHistory (by omega))
        (stepIsAbove_fails (Nat.lt_div_mul_add (by decide))),
      any_steps]
    split <;> rfl
  · rw [if_neg (Nat.not_lt.mpr inSteps),
      findsOne_of_total (reads _ inSteps (by omega)), any_steps]
    have readsLeft :
        ∀ j ∈
            List.range' (observer.usableCount - observer.usableCount % lanes)
              ((resized self.historyMap observer.len 0).length -
                (observer.usableCount - observer.usableCount % lanes)),
          isAbove observer.asSlice (resized self.historyMap observer.len 0) j =
            some
              (above observer.asSlice
                (resized self.historyMap observer.len 0) j) := by
      intro j isLeft
      obtain ⟨_, toEnd⟩ := List.mem_range'_1.mp isLeft
      exact isAbove_eq (by omega) (by omega)
    have start :
        observer.usableCount - observer.usableCount % lanes =
          observer.usableCount / lanes * lanes := by
      omega
    have split :
        List.range (resized self.historyMap observer.len 0).length =
          List.range (observer.usableCount / lanes * lanes) ++
            List.range' (observer.usableCount - observer.usableCount % lanes)
              ((resized self.historyMap observer.len 0).length -
                (observer.usableCount - observer.usableCount % lanes)) := by
      rw [start, List.range'_eq_map_range, ← List.range_add,
        Nat.add_sub_cancel' inSteps]
    rw [split, List.any_append,
      @range'_eq_append_cons _ _
        (resized self.historyMap observer.len 0).length (by omega) (by omega)]
    cases anyAbove :
      (List.range (observer.usableCount / lanes * lanes)).any
        (above observer.asSlice (resized self.historyMap observer.len 0))
    · change (findsOne _ _ >>= _) = _
      rw [findsOne_of_fails readsLeft (isAbove_fails (Nat.le_refl _))]
      cases
        (List.range' (observer.usableCount - observer.usableCount % lanes)
            ((resized self.historyMap observer.len 0).length -
              (observer.usableCount - observer.usableCount % lanes))).any
          (above observer.asSlice (resized self.historyMap observer.len 0)) <;>
        rfl
    · rfl

end

end Simd

section

variable {T : Type}

theorem length_resized
    {historyMap : List T}
    {len : Nat}
    {value : T} :
    (resized historyMap len value).length = max historyMap.length len := by
  rw [resized, List.length_append, List.length_replicate]
  omega

theorem getElem?_resized
    {historyMap : List T}
    {len j : Nat}
    {value : T}
    (inHistory : j < max historyMap.length len) :
    (resized historyMap len value)[j]? = some (historyMap[j]?.getD value) := by
  rw [resized, List.getElem?_append]
  split
  · rename_i isOld
    rw [List.getElem?_eq_getElem isOld]
    rfl
  · rename_i isNew
    rw [List.getElem?_replicate_of_lt (by omega),
      List.getElem?_eq_none (Nat.not_lt.mp isNew)]
    rfl

theorem lt_of_mem_touched
    [DecidableEq T]
    {initial : T}
    {items : List T}
    {cell : T × Nat}
    (isTouched : cell ∈ touched initial items) :
    cell.2 < items.length :=
  (List.getElem?_eq_some_iff.mp
    (List.mem_zipIdx_iff_getElem?.mp (List.mem_filter.mp isTouched).1)).1

theorem touched_append
    [DecidableEq T]
    {initial : T}
    {front back : List T} :
    ∃ later,
      touched initial (front ++ back) = touched initial front ++ later ∧
        ∀ cell ∈ later, front.length ≤ cell.2 := by
  refine
    ⟨(back.zipIdx (0 + front.length)).filter fun cell =>
      decide (cell.1 ≠ initial), ?_, ?_⟩
  · rw [touched, List.zipIdx_append, List.filter_append]
    rfl
  · intro cell isLater
    have isBehind := (List.mem_zipIdx (List.mem_filter.mp isLater).1).1
    rwa [Nat.zero_add] at isBehind

theorem filter_zipIdx
    {holds : T × Nat → Bool}
    {holdsAt : Nat → Bool}
    (items : List T)
    (same :
      ∀ j item, items[j]? = some item → holds (item, j) = holdsAt j) :
    (items.zipIdx.filter holds).map Prod.snd =
      (List.range items.length).filter holdsAt := by
  induction items using List.reverseRecOn with
  | nil =>
      rfl
  | append_singleton front item ih =>
      have atFront :=
        ih fun j earlier isEarlier =>
          same j earlier
            (List.getElem?_append_left (List.getElem?_eq_some_iff.mp isEarlier).1 ▸
              isEarlier)
      have atItem := same front.length item List.getElem?_concat_length
      rw [List.zipIdx_append, List.filter_append, List.map_append, atFront,
        List.length_append, List.length_singleton, List.range_succ,
        List.filter_append, List.zipIdx_singleton, Nat.zero_add]
      cases isFound : holdsAt front.length
      · rw [isFound] at atItem
        simp [isFound, atItem]
      · rw [isFound] at atItem
        simp [isFound, atItem]

theorem isNovel_max
    {existing item : UInt8} :
    DifferentIsNovel.isNovel existing (MaxReducer.reduce existing item) =
      decide (existing < item) := by
  unfold DifferentIsNovel.isNovel MaxReducer.reduce
  rw [Bool.eq_iff_iff, decide_eq_true_iff, decide_eq_true_iff]
  split
  · rename_i isBelow
    exact ⟨fun differs => absurd rfl differs, fun isAbove =>
      absurd (Std.lt_trans isBelow isAbove) (Std.lt_irrefl)⟩
  · rename_i isNotBelow
    rw [UInt8.lt_iff_toNat_lt] at isNotBelow ⊢
    rw [ne_eq, ← UInt8.toNat_inj]
    omega

end

/-- Whether the default finds a novelty at an index. -/
def novelAt
    (observer : MapObserver UInt8)
    (self : MapFeedback UInt8)
    (j : Nat) : Bool :=
  match observer.asSlice[j]?,
    (resized self.historyMap observer.len observer.initial)[j]? with
  | some item, some existing => item ≠ observer.initial && existing < item
  | _, _ => false

/--
Whether the default does not find a novelty at an index that is above the history
once zeros fill it up: the entry is initial, or the target left there less than
the initial value.
-/
def mistakenAt
    (observer : MapObserver UInt8)
    (self : MapFeedback UInt8)
    (j : Nat) : Bool :=
  match observer.asSlice[j]?, self.historyMap[j]? with
  | some item, some existing => item = observer.initial && existing < item
  | some item, none => 0 < item && item ≤ observer.initial
  | none, _ => false

section

variable {observer : MapObserver UInt8}
variable {self : MapFeedback UInt8}

theorem above_eq
    {j : Nat}
    (inHistory : j < max self.historyMap.length observer.len) :
    above observer.asSlice (resized self.historyMap observer.len 0) j =
      (novelAt observer self j || mistakenAt observer self j) := by
  unfold above novelAt mistakenAt
  rw [getElem?_resized inHistory, getElem?_resized inHistory]
  cases observer.asSlice[j]? with
  | none =>
      rfl
  | some item =>
      cases self.historyMap[j]? with
      | some existing =>
          by_cases isInitial : item = observer.initial
          · simp [isInitial]
          · simp [isInitial]
      | none =>
          dsimp only [Option.getD_none]
          rw [Bool.eq_iff_iff]
          simp only [decide_eq_true_iff, Bool.or_eq_true, Bool.and_eq_true,
            ne_eq, decide_not, Bool.not_eq_true', decide_eq_false_iff_not,
            UInt8.lt_iff_toNat_lt, UInt8.le_iff_toNat_le, ← UInt8.toNat_inj,
            UInt8.toNat_zero]
          omega

theorem not_mistakenAt_of_novelAt
    {j : Nat}
    (isNovel : novelAt observer self j = true) :
    mistakenAt observer self j = false := by
  unfold novelAt at isNovel
  unfold mistakenAt
  split at isNovel
  · rename_i item existing isItem isExisting
    rw [isItem]
    obtain ⟨differs, isAbove⟩ := Bool.and_eq_true_iff.mp isNovel
    have differs := of_decide_eq_true differs
    have isAbove := of_decide_eq_true isAbove
    cases isOld : self.historyMap[j]? with
    | some _ =>
        simp [differs]
    | none =>
        have inHistory := (List.getElem?_eq_some_iff.mp isExisting).1
        rw [length_resized] at inHistory
        rw [getElem?_resized inHistory, isOld] at isExisting
        obtain rfl := Option.some.inj isExisting
        have isNotBelow := Std.not_le.mpr isAbove
        simp only [Option.getD_none] at isNotBelow
        simp [isNotBelow]
  · cases isNovel

/-- Whether an entry that is not initial is a novelty. -/
def foundIn
    (historyMap : List UInt8)
    (cell : UInt8 × Nat) : Bool :=
  match historyMap[cell.2]? with
  | some existing => existing < cell.1
  | none => false

theorem isNovelty_eq
    {historyMap : List UInt8}
    {cell : UInt8 × Nat}
    (inHistory : cell.2 < historyMap.length) :
    isNovelty MaxReducer.reduce DifferentIsNovel.isNovel historyMap cell =
      some (foundIn historyMap cell) := by
  unfold isNovelty foundIn
  rw [List.getElem?_eq_getElem inHistory]
  exact congrArg some isNovel_max

theorem isNovelty_fails
    {historyMap : List UInt8}
    {cell : UInt8 × Nat}
    (isOut : historyMap.length ≤ cell.2) :
    isNovelty MaxReducer.reduce DifferentIsNovel.isNovel historyMap cell =
      none := by
  unfold isNovelty
  rw [List.getElem?_eq_none isOut]
  rfl

theorem filter_touched
    {count : Nat}
    (inMap : count ≤ observer.asSlice.length) :
    ((touched observer.initial (observer.asSlice.take count)).filter
        (foundIn
          (resized self.historyMap observer.len observer.initial))).map
        Prod.snd =
      (List.range count).filter (novelAt observer self) := by
  have atIndex :=
    @filter_zipIdx UInt8
      (fun cell =>
        foundIn (resized self.historyMap observer.len observer.initial) cell &&
          decide (cell.1 ≠ observer.initial))
      (novelAt observer self) (observer.asSlice.take count) ?_
  · rw [List.length_take_of_le inMap] at atIndex
    rw [touched, List.filter_filter, atIndex]
  · intro j item isItem
    have inCount := (List.getElem?_eq_some_iff.mp isItem).1
    rw [List.length_take_of_le inMap] at inCount
    rw [List.getElem?_take_of_lt inCount] at isItem
    unfold foundIn novelAt
    rw [isItem]
    cases (resized self.historyMap observer.len observer.initial)[j]? with
    | none =>
        rfl
    | some existing =>
        exact Bool.and_comm _ _

theorem any_touched
    {count : Nat}
    (inMap : count ≤ observer.asSlice.length) :
    (touched observer.initial (observer.asSlice.take count)).any
        (foundIn (resized self.historyMap observer.len observer.initial)) =
      (List.range count).any (novelAt observer self) := by
  have sameNovelties := @filter_touched observer self _ inMap
  rw [Bool.eq_iff_iff, List.any_eq_true, List.any_eq_true]
  constructor
  · rintro ⟨cell, isTouched, isFound⟩
    have isNovel :=
      sameNovelties ▸
        List.mem_map_of_mem (List.mem_filter.mpr ⟨isTouched, isFound⟩)
    exact ⟨_, List.mem_filter.mp isNovel⟩
  · rintro ⟨j, inCount, isNovel⟩
    have isFound := List.mem_filter.mpr ⟨inCount, isNovel⟩
    rw [← sameNovelties] at isFound
    obtain ⟨cell, isCell, -⟩ := List.mem_map.mp isFound
    exact ⟨cell, List.mem_filter.mp isCell⟩

theorem isInterestingDefault_eq
    (inMap : observer.usableCount ≤ observer.asSlice.length)
    (inHistory :
      observer.usableCount ≤ max self.historyMap.length observer.len) :
    isInterestingDefault MaxReducer.reduce DifferentIsNovel.isNovel observer
        self =
      some
        ((List.range observer.usableCount).any (novelAt observer self),
          { self with
            historyMap :=
              resized self.historyMap observer.len observer.initial
            novelties :=
              self.novelties.map fun _ =>
                (List.range observer.usableCount).filter
                  (novelAt observer self) }) := by
  have reads :
      ∀ cell ∈
          touched observer.initial
            (observer.asSlice.take observer.usableCount),
        isNovelty MaxReducer.reduce DifferentIsNovel.isNovel
            (resized self.historyMap observer.len observer.initial) cell =
          some
            (foundIn (resized self.historyMap observer.len observer.initial)
              cell) := by
    intro cell isTouched
    have inItems := lt_of_mem_touched isTouched
    rw [List.length_take_of_le inMap] at inItems
    exact isNovelty_eq (length_resized ▸ inItems.trans_le inHistory)
  rw [isInterestingDefault, MapObserver.asIter, if_pos inMap]
  cases tracks : self.novelties with
  | some novelties =>
      simp only [Option.bind_eq_bind, Option.bind_some, Option.isSome_some,
        if_true, track_of_total reads, any_touched inMap, filter_touched inMap,
        Bool.false_or, List.nil_append, Option.map_some]
  | none =>
      simp only [Option.bind_eq_bind, Option.bind_some, Option.isSome_none,
        Bool.false_eq_true, if_false, findsOne_of_total reads, any_touched inMap,
        Option.map_none]

/-- Where not all entries can be read, only one that can be ends the search. -/
theorem isInterestingDefault_overrun
    (inMap : observer.usableCount ≤ observer.asSlice.length)
    (isOut : max self.historyMap.length observer.len < observer.usableCount)
    (tracksNothing : self.novelties = none)
    {next : MapFeedback UInt8} :
    isInterestingDefault MaxReducer.reduce DifferentIsNovel.isNovel observer
          self =
        some (true, next) ↔
      next =
          { self with
            historyMap :=
              resized self.historyMap observer.len observer.initial } ∧
        (List.range (max self.historyMap.length observer.len)).any
            (novelAt observer self) =
          true := by
  have isPart := isOut.le.trans inMap
  have reads :
      ∀ cell ∈
          touched observer.initial
            (observer.asSlice.take (max self.historyMap.length observer.len)),
        isNovelty MaxReducer.reduce DifferentIsNovel.isNovel
            (resized self.historyMap observer.len observer.initial) cell =
          some
            (foundIn (resized self.historyMap observer.len observer.initial)
              cell) := by
    intro cell isTouched
    have inItems := lt_of_mem_touched isTouched
    rw [List.length_take_of_le isPart] at inItems
    exact isNovelty_eq (length_resized ▸ inItems)
  obtain ⟨later, splits, outOfHistory⟩ :
      ∃ later,
        touched observer.initial
              (observer.asSlice.take observer.usableCount) =
            touched observer.initial
                (observer.asSlice.take
                  (max self.historyMap.length observer.len)) ++
              later ∧
          ∀ cell ∈ later,
            (resized self.historyMap observer.len observer.initial).length ≤
              cell.2 := by
    obtain ⟨later, splits, isBehind⟩ :=
      @touched_append _ _ observer.initial
        (observer.asSlice.take (max self.historyMap.length observer.len))
        ((observer.asSlice.take observer.usableCount).drop
          (max self.historyMap.length observer.len))
    have items :=
      List.take_append_drop (max self.historyMap.length observer.len)
        (observer.asSlice.take observer.usableCount)
    rw [List.take_take, Nat.min_eq_left isOut.le] at items
    rw [items] at splits
    rw [List.length_take_of_le isPart] at isBehind
    exact ⟨later, splits, fun cell isLater =>
      length_resized ▸ isBehind cell isLater⟩
  have search :
      findsOne
          (isNovelty MaxReducer.reduce DifferentIsNovel.isNovel
            (resized self.historyMap observer.len observer.initial))
          (touched observer.initial
            (observer.asSlice.take observer.usableCount)) =
        if
            (List.range (max self.historyMap.length observer.len)).any
              (novelAt observer self) then
          some true
        else
          findsOne
            (isNovelty MaxReducer.reduce DifferentIsNovel.isNovel
              (resized self.historyMap observer.len observer.initial))
            later := by
    rw [splits, findsOne_append, findsOne_of_total reads, Option.bind_some,
      any_touched isPart]
  rw [isInterestingDefault, MapObserver.asIter, if_pos inMap, tracksNothing]
  simp only [Option.bind_eq_bind, Option.bind_some, Option.isSome_none,
    Bool.false_eq_true, if_false, search]
  constructor
  · intro stops
    split at stops
    · exact ⟨(Prod.mk.inj (Option.some.inj stops)).2.symm, ‹_›⟩
    · cases later with
      | nil =>
          cases stops
      | cons cell rest =>
          rw [findsOne, isNovelty_fails (outOfHistory cell List.mem_cons_self)]
            at stops
          cases stops
  · rintro ⟨rfl, isFound⟩
    rw [if_pos isFound]
    rfl

theorem any_range_iff
    {count : Nat}
    {holds : Nat → Bool} :
    (List.range count).any holds = true ↔ ∃ j < count, holds j = true := by
  simp only [List.any_eq_true, List.mem_range]

theorem any_above
    {count : Nat}
    (inHistory : count ≤ max self.historyMap.length observer.len) :
    (List.range count).any
        (above observer.asSlice (resized self.historyMap observer.len 0)) =
      ((List.range count).any (novelAt observer self) ||
        (List.range count).any (mistakenAt observer self)) := by
  rw [Bool.eq_iff_iff, Bool.or_eq_true, any_range_iff, any_range_iff,
    any_range_iff]
  constructor
  · rintro ⟨j, inCount, isAbove⟩
    rw [above_eq (inCount.trans_le inHistory), Bool.or_eq_true] at isAbove
    exact isAbove.imp (fun isNovel => ⟨j, inCount, isNovel⟩)
      fun isMistaken => ⟨j, inCount, isMistaken⟩
  · rintro (⟨j, inCount, isNovel⟩ | ⟨j, inCount, isMistaken⟩)
    · exact ⟨j, inCount, by rw [above_eq (inCount.trans_le inHistory), isNovel]; rfl⟩
    · refine ⟨j, inCount, ?_⟩
      rw [above_eq (inCount.trans_le inHistory), isMistaken, Bool.or_true]

theorem filter_above_iff
    {count : Nat}
    (inHistory : count ≤ max self.historyMap.length observer.len) :
    (List.range count).filter (novelAt observer self) =
        (List.range count).filter
          (above observer.asSlice (resized self.historyMap observer.len 0)) ↔
      ∀ j < count, mistakenAt observer self j = false := by
  constructor
  · intro same j inCount
    by_contra isMistaken
    have isMistaken := eq_true_of_ne_false isMistaken
    have isAbove := @above_eq observer self _ (inCount.trans_le inHistory)
    rw [isMistaken, Bool.or_true] at isAbove
    have isFound :=
      List.mem_filter.mpr ⟨List.mem_range.mpr inCount, isAbove⟩
    rw [← same] at isFound
    have noMistake := not_mistakenAt_of_novelAt (List.mem_filter.mp isFound).2
    rw [isMistaken] at noMistake
    cases noMistake
  · intro noMistake
    refine List.filter_congr fun j inCount => ?_
    have inCount := List.mem_range.mp inCount
    rw [above_eq (inCount.trans_le inHistory), noMistake j inCount, Bool.or_false]

end

/-- Both return the same verdict and, where they are tracked, the same novelties. -/
def Agree
    (observer : MapObserver UInt8)
    (self : MapFeedback UInt8) : Prop :=
  ∃ verdict byDefault vectorized,
    isInterestingDefault MaxReducer.reduce DifferentIsNovel.isNovel observer
          self =
        some (verdict, byDefault) ∧
      Simd.isInteresting observer self = some (verdict, vectorized) ∧
      byDefault.novelties = vectorized.novelties

/-- No entry is mistaken, or there is a novelty anyway and they are not tracked. -/
def Unmistaken
    (observer : MapObserver UInt8)
    (self : MapFeedback UInt8) : Prop :=
  (∀ j < observer.usableCount, mistakenAt observer self j = false) ∨
    self.novelties = none ∧
      ∃ j < observer.usableCount, novelAt observer self j = true

/--
Novelties are not tracked and both find one before they get to an entry that the
history is too short for.
-/
def StopBefore
    (observer : MapObserver UInt8)
    (self : MapFeedback UInt8)
    (length : Nat) : Prop :=
  self.novelties = none ∧
    (∃ j < length, novelAt observer self j = true) ∧
    ∃ j < Simd.readable observer.usableCount length,
      novelAt observer self j = true ∨ mistakenAt observer self j = true

section

variable {observer : MapObserver UInt8}
variable {self : MapFeedback UInt8}

theorem agree_iff_unmistaken
    (inMap : observer.usableCount ≤ observer.asSlice.length)
    (inHistory :
      observer.usableCount ≤ max self.historyMap.length observer.len) :
    Agree observer self ↔ Unmistaken observer self := by
  have verdicts := @any_above observer self _ inHistory
  unfold Agree Unmistaken
  rw [isInterestingDefault_eq inMap inHistory,
    Simd.isInteresting_eq inMap (length_resized.symm ▸ inHistory)]
  constructor
  · rintro ⟨verdict, byDefault, vectorized, isDefault, isVectorized, same⟩
    obtain ⟨rfl, rfl⟩ := Prod.mk.inj (Option.some.inj isDefault)
    obtain ⟨agreed, rfl⟩ := Prod.mk.inj (Option.some.inj isVectorized)
    cases tracks : self.novelties with
    | some novelties =>
        rw [tracks] at same
        exact .inl ((filter_above_iff inHistory).mp (Option.some.inj same))
    | none =>
        rw [verdicts] at agreed
        cases anyNovel :
          (List.range observer.usableCount).any (novelAt observer self)
        · rw [anyNovel, Bool.false_or] at agreed
          refine .inl fun j inCount => eq_false_of_ne_true fun isMistaken => ?_
          have anyMistaken := any_range_iff.mpr ⟨j, inCount, isMistaken⟩
          rw [agreed] at anyMistaken
          cases anyMistaken
        · exact .inr ⟨rfl, any_range_iff.mp anyNovel⟩
  · rintro (noMistake | ⟨tracksNothing, isFound⟩)
    · refine ⟨_, _, _, rfl, congrArg some (Prod.ext ?_ rfl), ?_⟩
      · have noneMistaken :
            (List.range observer.usableCount).any (mistakenAt observer self) =
              false := by
          rw [List.any_eq_false]
          intro j inCount isMistaken
          rw [noMistake j (List.mem_range.mp inCount)] at isMistaken
          cases isMistaken
        exact verdicts.trans (by rw [noneMistaken, Bool.or_false])
      · dsimp only
        rw [(filter_above_iff inHistory).mpr noMistake]
    · have anyNovel := any_range_iff.mpr isFound
      rw [anyNovel, Bool.true_or] at verdicts
      rw [anyNovel, verdicts, tracksNothing]
      exact ⟨_, _, _, rfl, rfl, rfl⟩

theorem agree_iff_stopBefore
    (inMap : observer.usableCount ≤ observer.asSlice.length)
    (isOut : max self.historyMap.length observer.len < observer.usableCount) :
    Agree observer self ↔
      StopBefore observer self
        (max self.historyMap.length observer.len) := by
  have inVectorized :
      (resized self.historyMap observer.len 0).length < observer.usableCount :=
    length_resized.symm ▸ isOut
  have isReadable :
      Simd.readable observer.usableCount
          (max self.historyMap.length observer.len) ≤
        max self.historyMap.length observer.len := by
    unfold Simd.readable
    split
    · exact Nat.div_mul_le_self _ _
    · exact Nat.le_refl _
  constructor
  · rintro ⟨verdict, byDefault, vectorized, isDefault, isVectorized, -⟩
    cases tracks : self.novelties with
    | some novelties =>
        rw [Simd.isInteresting_overrun_tracking inVectorized
          (tracks ▸ rfl)] at isVectorized
        cases isVectorized
    | none =>
        rw [Simd.isInteresting_overrun inMap inVectorized tracks,
          length_resized] at isVectorized
        split at isVectorized
        · rename_i isAbove
          obtain ⟨rfl, -⟩ := Prod.mk.inj (Option.some.inj isVectorized)
          obtain ⟨-, isNovel⟩ :=
            (isInterestingDefault_overrun inMap isOut tracks).mp isDefault
          obtain ⟨j, inCount, isAbove⟩ := any_range_iff.mp isAbove
          rw [above_eq (inCount.trans_le isReadable), Bool.or_eq_true] at isAbove
          exact ⟨tracks, any_range_iff.mp isNovel, j, inCount, isAbove⟩
        · cases isVectorized
  · rintro ⟨tracks, isNovel, j, inCount, isAbove⟩
    rw [← Bool.or_eq_true, ← above_eq (inCount.trans_le isReadable)] at isAbove
    refine ⟨true, _,
      { self with historyMap := resized self.historyMap observer.len 0 },
      (isInterestingDefault_overrun inMap isOut tracks).mpr
        ⟨rfl, any_range_iff.mpr isNovel⟩,
      ?_, rfl⟩
    rw [Simd.isInteresting_overrun inMap inVectorized tracks, length_resized]
    exact if_pos (any_range_iff.mpr ⟨j, inCount, isAbove⟩)

end

/--
The two agree exactly where all entries can be read and none is mistaken, or
where a novelty that both get to hides the mistake, or what cannot be read.
-/
theorem agree_iff
    (observer : MapObserver UInt8)
    (self : MapFeedback UInt8) :
    Agree observer self ↔
      observer.usableCount ≤ observer.asSlice.length ∧
        if observer.usableCount ≤ max self.historyMap.length observer.len then
          Unmistaken observer self
        else
          StopBefore observer self
            (max self.historyMap.length observer.len) := by
  by_cases inMap : observer.usableCount ≤ observer.asSlice.length
  · rw [and_iff_right inMap]
    split
    · exact agree_iff_unmistaken inMap ‹_›
    · exact agree_iff_stopBefore inMap (Nat.not_le.mp ‹_›)
  · refine iff_of_false ?_ fun holds => inMap holds.1
    rintro ⟨_, _, _, isDefault, -⟩
    rw [isInterestingDefault, MapObserver.asIter, if_neg inMap] at isDefault
    cases isDefault

/-- A target that touches nothing is interesting when maps start out with ones. -/
theorem untouched_map_disagrees :
    ∃ (observer : MapObserver UInt8) (self : MapFeedback UInt8),
      isInterestingDefault MaxReducer.reduce DifferentIsNovel.isNovel observer
            self =
          some (false, { self with historyMap := [1] }) ∧
        Simd.isInteresting observer self =
          some (true, { self with historyMap := [0] }) :=
  ⟨⟨[1], 1, 1, 1⟩, ⟨false, none, []⟩, by decide, by decide⟩

end MeFuzz.Feedbacks
