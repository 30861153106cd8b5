import MeFuzz.ComposedFeedbacks

namespace MeFuzz.Feedbacks

/-!
# Whose novelties are appended

A map feedback that is asked about an execution replaces its novelties and grows
its history.  One that a fast operation skips keeps what an earlier execution left
and a history that may be too short, and is told to append all the same.
-/

section

variable {Element : Type*}
variable {found : Element → Option Bool}
variable {index : Element → Nat}

theorem track_eq
    {elements : List Element}
    {tracked result : Bool × List Nat}
    (returns : elements.foldlM (track found index) tracked = some result) :
    result.2 =
      tracked.2 ++ (elements.filter (found · = some true)).map index := by
  have reads :
      ∀ element ∈ elements,
        found element = some (decide (found element = some true)) := by
    intro element isElement
    have isSome :=
      (track_isSome_iff tracked).mp (Option.isSome_of_eq_some returns) element
        isElement
    cases isRead : found element with
    | none =>
        rw [isRead] at isSome
        cases isSome
    | some isFound =>
        cases isFound <;> rfl
  rw [track_of_total reads] at returns
  exact (congrArg Prod.snd (Option.some.inj returns)).symm

end

namespace Strategy

/-- The indexes of a map that are novel against a history. -/
def novelIndexes {T : Type} : Strategy T → MapObserver T → List T → List Nat
  | @byDefault _ _ reduce isNovel => fun observer historyMap =>
      ((touched observer.initial
            (observer.asSlice.take observer.usableCount)).filter fun cell =>
          isNovelty reduce isNovel
              (resized historyMap observer.len observer.initial) cell =
            some true).map
        Prod.snd
  | .vectorized => fun observer historyMap =>
      (List.range observer.usableCount).filter
        (above observer.asSlice (resized historyMap observer.len 0))

section

variable {T : Type}
variable {strategy : Strategy T}
variable {observer : MapObserver T}
variable {self next : MapFeedback T}
variable {verdict : Bool}

theorem inMap_isInteresting
    (returns : strategy.isInteresting observer self = some (verdict, next)) :
    observer.usableCount ≤ observer.asSlice.length := by
  by_contra isOut
  cases strategy with
  | byDefault reduce isNovel =>
      simp only [isInteresting, isInterestingDefault, MapObserver.asIter,
        if_neg isOut] at returns
      cases returns
  | vectorized =>
      simp only [isInteresting, Simd.isInteresting,
        if_pos (Nat.not_le.mp isOut)] at returns
      cases returns

/-- What was novel in an execution replaces the novelties that are tracked. -/
theorem novelties_isInteresting
    (returns : strategy.isInteresting observer self = some (verdict, next)) :
    next.novelties =
      self.novelties.map fun _ =>
        strategy.novelIndexes observer self.historyMap := by
  cases strategy with
  | byDefault reduce isNovel =>
      simp only [isInteresting, isInterestingDefault] at returns
      obtain ⟨items, isItems, returns⟩ := Option.bind_eq_some_iff.mp returns
      obtain rfl := asIter_eq isItems
      cases tracks : self.novelties with
      | some novelties =>
          rw [tracks, Option.isSome_some, if_pos rfl] at returns
          obtain ⟨result, isTracked, returns⟩ :=
            Option.bind_eq_some_iff.mp returns
          obtain ⟨-, rfl⟩ := Prod.mk.inj (Option.some.inj returns)
          exact congrArg some (track_eq isTracked)
      | none =>
          rw [tracks, Option.isSome_none, if_neg Bool.false_ne_true] at returns
          obtain ⟨isFound, -, returns⟩ := Option.bind_eq_some_iff.mp returns
          obtain ⟨-, rfl⟩ := Prod.mk.inj (Option.some.inj returns)
          rfl
  | vectorized =>
      have inMap := inMap_isInteresting returns
      simp only [isInteresting] at returns
      rcases Nat.lt_or_ge (resized self.historyMap observer.len 0).length
        observer.usableCount with isOut | inHistory
      · cases tracks : self.novelties with
        | some novelties =>
            have isTracking : self.novelties.isSome = true := tracks ▸ rfl
            rw [Simd.isInteresting_overrun_tracking isOut isTracking] at returns
            cases returns
        | none =>
            rw [Simd.isInteresting_overrun inMap isOut tracks] at returns
            split at returns
            · obtain ⟨-, rfl⟩ := Prod.mk.inj (Option.some.inj returns)
              exact tracks
            · cases returns
      · rw [Simd.isInteresting_eq inMap inHistory] at returns
        obtain ⟨-, rfl⟩ := Prod.mk.inj (Option.some.inj returns)
        rfl

theorem novelties_append
    {metadata : TestcaseMetadata}
    (returns : strategy.append observer self = some (metadata, next)) :
    metadata.novelties = self.novelties ∧
      next.historyMap.length = self.historyMap.length := by
  obtain ⟨items, -, reduced⟩ := append_spec returns
  refine ⟨?_, (reduceInto_spec reduced).1⟩
  simp only [append, appendMetadata] at returns
  obtain ⟨items, -, returns⟩ := Option.bind_eq_some_iff.mp returns
  obtain ⟨historyMap, -, returns⟩ := Option.bind_eq_some_iff.mp returns
  obtain ⟨rfl, -⟩ := Prod.mk.inj (Option.some.inj returns)
  rfl

end

end Strategy

namespace Composed

section

variable {Kind : Type}
variable {Entry : Kind → Type}

namespace Leaf

variable (leaf : Leaf Entry)
variable (execution : Execution Entry)
variable (histories : Histories Entry)

/-- The novelties of an execution against the history, if they are tracked. -/
def novelNow : Option (List Nat) :=
  leaf.novelties.map fun _ =>
    match execution.observers leaf.kind leaf.observerName,
      histories leaf.kind leaf.name with
    | some observer, some historyMap =>
        leaf.strategy.novelIndexes observer historyMap
    | _, _ => []

/-- What is appended is read within a history that grows to the observer's length. -/
def GrowsEnough : Prop :=
  ∀ observer historyMap,
    execution.observers leaf.kind leaf.observerName = some observer →
      histories leaf.kind leaf.name = some historyMap →
        leaf.strategy.ReducesWithin observer
          (max historyMap.length observer.len)

/-- What is appended is read within the history that there is. -/
def AppendsWithin : Prop :=
  ∃ observer historyMap,
    execution.observers leaf.kind leaf.observerName = some observer ∧
      histories leaf.kind leaf.name = some historyMap ∧
      observer.usableCount ≤ observer.asSlice.length ∧
      leaf.strategy.ReducesWithin observer historyMap.length

/--
A leaf that is not asked has nothing left over from an earlier execution, and what
it would find in this one is nothing, if it tracks novelties; and its history is long
enough.
-/
structure SkipsHarmlessly : Prop where
  nothingLeft : ∀ novelties, leaf.novelties = some novelties → novelties = []
  nothingNovel :
    ∀ novelties,
      leaf.novelNow execution histories = some novelties → novelties = []
  within : leaf.AppendsWithin execution histories

end Leaf

/-- The map feedbacks of a tree, in order. -/
def Feedback.leaves : Feedback Entry → List (Leaf Entry)
  | .other _ => []
  | .map leaf => [leaf]
  | .combined _ first second => first.leaves ++ second.leaves
  | .not first => first.leaves

/-- No history gets lost or shorter. -/
def Grows (before after : Histories Entry) : Prop :=
  ∀ kind name historyMap,
    before kind name = some historyMap →
      ∃ grown,
        after kind name = some grown ∧ historyMap.length ≤ grown.length

theorem Grows.refl (histories : Histories Entry) : Grows histories histories :=
  fun _ _ historyMap isHistory => ⟨historyMap, isHistory, Nat.le_refl _⟩

theorem Grows.trans
    {first second third : Histories Entry}
    (earlier : Grows first second)
    (later : Grows second third) :
    Grows first third := by
  intro kind name historyMap isHistory
  obtain ⟨middle, isMiddle, isLonger⟩ := earlier kind name historyMap isHistory
  obtain ⟨last, isLast, isLongest⟩ := later kind name middle isMiddle
  exact ⟨last, isLast, isLonger.trans isLongest⟩

theorem Leaf.SkipsHarmlessly.novelties_eq
    {leaf : Leaf Entry}
    {execution : Execution Entry}
    {histories : Histories Entry}
    (skips : leaf.SkipsHarmlessly execution histories) :
    leaf.novelties = leaf.novelNow execution histories := by
  cases tracks : leaf.novelties with
  | none =>
      rw [Leaf.novelNow, tracks, Option.map_none]
  | some novelties =>
      obtain rfl := skips.nothingLeft novelties tracks
      have nothingNovel := skips.nothingNovel
      rw [Leaf.novelNow, tracks, Option.map_some] at nothingNovel ⊢
      exact congrArg some (nothingNovel _ rfl).symm

theorem Leaf.AppendsWithin.grows
    {leaf : Leaf Entry}
    {execution : Execution Entry}
    {histories after : Histories Entry}
    (within : leaf.AppendsWithin execution histories)
    (grows : Grows histories after) :
    leaf.AppendsWithin execution after := by
  obtain ⟨observer, historyMap, isObserver, isHistory, inMap, reduces⟩ := within
  obtain ⟨grown, isGrown, isLonger⟩ := grows _ _ _ isHistory
  exact
    ⟨observer, grown, isObserver, isGrown, inMap, fun cell isCell =>
      (reduces cell isCell).trans_le isLonger⟩

end

section

variable {Kind : Type}
variable [DecidableEq Kind]
variable {Entry : Kind → Type}

namespace Feedback

/--
The novelties of an execution, against the history that each leaf has when it is
asked or skipped.
-/
def novelNow :
    Feedback Entry → Execution Entry → Histories Entry →
      List (Option (List Nat))
  | .other _, _, _ => []
  | .map leaf, execution, histories => [leaf.novelNow execution histories]
  | .combined logic first second, execution, histories =>
      first.novelNow execution histories ++
        match first.isInteresting execution histories with
        | some a =>
            if logic.asksSecond a.verdict then
              second.novelNow execution a.histories
            else
              second.leaves.map fun leaf => leaf.novelNow execution a.histories
        | none => []
  | .not first, execution, histories => first.novelNow execution histories

/--
The leaves that are asked grow their histories to a sufficient length, and those
that are skipped are harmless.
-/
def Sound :
    Feedback Entry → Execution Entry → Histories Entry → Prop
  | .other _, _, _ => True
  | .map leaf, execution, histories => leaf.GrowsEnough execution histories
  | .combined logic first second, execution, histories =>
      first.Sound execution histories ∧
        ∀ a, first.isInteresting execution histories = some a →
          if logic.asksSecond a.verdict then
            second.Sound execution a.histories
          else
            ∀ leaf ∈ second.leaves, leaf.SkipsHarmlessly execution a.histories
  | .not first, execution, histories => first.Sound execution histories

end Feedback

theorem Histories.set_same
    {histories : Histories Entry}
    {kind : Kind}
    {name : String}
    {historyMap : List (Entry kind)} :
    histories.set kind name historyMap kind name = some historyMap := by
  rw [Histories.set, Function.update_self, Function.update_self]

theorem grows_set
    {histories : Histories Entry}
    {kind : Kind}
    {name : String}
    {old new : List (Entry kind)}
    (isOld : histories kind name = some old)
    (isLonger : old.length ≤ new.length) :
    Grows histories (histories.set kind name new) := by
  intro otherKind otherName historyMap isHistory
  unfold Histories.set
  rcases eq_or_ne otherKind kind with rfl | otherType
  · rw [Function.update_self]
    rcases eq_or_ne otherName name with rfl | isOther
    · obtain rfl := Option.some.inj (isHistory.symm.trans isOld)
      exact ⟨new, Function.update_self .., isLonger⟩
    · exact ⟨historyMap, (Function.update_of_ne isOther ..).trans isHistory,
        Nat.le_refl _⟩
  · exact ⟨historyMap,
      (congrFun (Function.update_of_ne otherType ..) _).trans isHistory,
      Nat.le_refl _⟩

variable {execution : Execution Entry}
variable {histories : Histories Entry}

theorem Leaf.asked_spec
    {leaf : Leaf Entry}
    {asked : Asked Entry}
    (isAsked : leaf.isInteresting execution histories = some asked) :
    Grows histories asked.histories ∧
      ∃ after : Leaf Entry,
        asked.feedback = .map after ∧
          after.novelties = leaf.novelNow execution histories ∧
          (leaf.GrowsEnough execution histories →
            after.AppendsWithin execution asked.histories) := by
  unfold Leaf.isInteresting at isAsked
  split at isAsked
  · rename_i observer historyMap isObserver isHistory
    obtain ⟨⟨verdict, self⟩, returns, rfl⟩ := Option.map_eq_some_iff.mp isAsked
    have isFilled := Strategy.historyMap_isInteresting_fill returns
    have isLonger : historyMap.length ≤ self.historyMap.length := by
      rw [isFilled, length_resized]
      exact Nat.le_max_left _ _
    refine ⟨grows_set isHistory isLonger, _, rfl, ?_, fun growsEnough => ?_⟩
    · rw [Leaf.novelNow, isObserver, isHistory]
      exact Strategy.novelties_isInteresting returns
    · refine ⟨observer, _, isObserver, Histories.set_same, ?_, ?_⟩
      · exact Strategy.inMap_isInteresting returns
      · have reduces := growsEnough observer historyMap isObserver isHistory
        rw [isFilled, length_resized]
        exact reduces
  · cases isAsked

theorem Leaf.appended_spec
    {leaf : Leaf Entry}
    (within : leaf.AppendsWithin execution histories)
    (testcase : TestcaseMetadata) :
    ∃ appended,
      leaf.appendMetadata execution histories testcase = some appended ∧
        Grows histories appended.histories ∧
        appended.testcase.novelties = leaf.novelties.or testcase.novelties := by
  obtain ⟨observer, historyMap, isObserver, isHistory, inMap, reduces⟩ := within
  obtain ⟨⟨metadata, self⟩, returns⟩ :=
    Option.isSome_iff_exists.mp
      ((@append_isSome_iff _ observer (leaf.toMapFeedback historyMap)
        leaf.strategy inMap).mpr reduces)
  obtain ⟨isNovel, sameLength⟩ := Strategy.novelties_append returns
  have appends :
      leaf.appendMetadata execution histories testcase =
        some
          ⟨addMetadata testcase metadata,
            .map { leaf with novelties := self.novelties },
            histories.set leaf.kind leaf.name self.historyMap⟩ := by
    rw [Leaf.appendMetadata, isObserver, isHistory]
    exact congrArg (Option.map _) returns
  exact
    ⟨_, appends, grows_set isHistory sameLength.ge,
      congrArg (Option.or · testcase.novelties) isNovel⟩

namespace Feedback

theorem isInteresting_grows
    {feedback : Feedback Entry}
    {asked : Asked Entry}
    (isAsked : feedback.isInteresting execution histories = some asked) :
    Grows histories asked.histories := by
  induction feedback generalizing histories asked with
  | other id =>
      obtain rfl := Option.some.inj isAsked
      exact Grows.refl histories
  | map leaf =>
      exact (Leaf.asked_spec isAsked).1
  | combined logic first second firstHypothesis secondHypothesis =>
      obtain ⟨a, isFirst, isAsked⟩ := Option.bind_eq_some_iff.mp isAsked
      split at isAsked
      · obtain ⟨b, isSecond, isAsked⟩ := Option.bind_eq_some_iff.mp isAsked
        obtain rfl := Option.some.inj isAsked
        have firstGrows := firstHypothesis isFirst
        have secondGrows := secondHypothesis isSecond
        exact firstGrows.trans secondGrows
      · obtain rfl := Option.some.inj isAsked
        have firstGrows := firstHypothesis isFirst
        exact firstGrows
  | not first ih =>
      obtain ⟨a, isFirst, isAsked⟩ := Option.bind_eq_some_iff.mp isAsked
      obtain rfl := Option.some.inj isAsked
      have grows := ih isFirst
      exact grows

/-- After it was asked, a sound tree has the novelties of the execution. -/
theorem asked_spec
    {feedback : Feedback Entry}
    {asked : Asked Entry}
    (sound : feedback.Sound execution histories)
    (isAsked : feedback.isInteresting execution histories = some asked) :
    asked.feedback.leaves.map Leaf.novelties =
        feedback.novelNow execution histories ∧
      ∀ leaf ∈ asked.feedback.leaves,
        leaf.AppendsWithin execution asked.histories := by
  induction feedback generalizing histories asked with
  | other id =>
      obtain rfl := Option.some.inj isAsked
      exact ⟨rfl, nofun⟩
  | map leaf =>
      obtain ⟨-, after, isAfter, isNovel, within⟩ := Leaf.asked_spec isAsked
      rw [isAfter]
      refine ⟨congrArg (· :: []) isNovel, fun other isLeaf => ?_⟩
      obtain rfl := List.mem_singleton.mp isLeaf
      exact within sound
  | combined logic first second firstHypothesis secondHypothesis =>
      obtain ⟨a, isFirst, isAsked⟩ := Option.bind_eq_some_iff.mp isAsked
      obtain ⟨firstSound, secondSound⟩ := sound
      have secondSound := secondSound a isFirst
      obtain ⟨firstNovel, firstWithin⟩ := firstHypothesis firstSound isFirst
      rw [novelNow, isFirst]
      split at isAsked
      · rename_i asks
        rw [if_pos asks] at secondSound
        obtain ⟨b, isSecond, isAsked⟩ := Option.bind_eq_some_iff.mp isAsked
        obtain rfl := Option.some.inj isAsked
        obtain ⟨secondNovel, secondWithin⟩ :=
          secondHypothesis secondSound isSecond
        have secondGrows := isInteresting_grows isSecond
        refine ⟨?_, fun leaf isLeaf => ?_⟩
        · dsimp only
          rw [if_pos asks, leaves, List.map_append, firstNovel, secondNovel]
        · rcases List.mem_append.mp isLeaf with inFirst | inSecond
          · exact (firstWithin leaf inFirst).grows secondGrows
          · exact secondWithin leaf inSecond
      · rename_i skips
        rw [if_neg skips] at secondSound
        obtain rfl := Option.some.inj isAsked
        refine ⟨?_, fun leaf isLeaf => ?_⟩
        · dsimp only
          rw [if_neg skips, leaves, List.map_append, firstNovel]
          refine congrArg _ (List.map_congr_left fun leaf isLeaf => ?_)
          exact (secondSound leaf isLeaf).novelties_eq
        · rcases List.mem_append.mp isLeaf with inFirst | inSecond
          · exact firstWithin leaf inFirst
          · exact (secondSound leaf inSecond).within
  | not first ih =>
      obtain ⟨a, isFirst, isAsked⟩ := Option.bind_eq_some_iff.mp isAsked
      obtain rfl := Option.some.inj isAsked
      have holds := ih sound isFirst
      exact holds

/--
What a tree leaves in a testcase are the novelties of the last of its leaves that
tracks any.
-/
theorem appended_spec
    {feedback : Feedback Entry}
    (within :
      ∀ leaf ∈ feedback.leaves, leaf.AppendsWithin execution histories)
    (testcase : TestcaseMetadata) :
    ∃ appended,
      feedback.appendMetadata execution histories testcase = some appended ∧
        Grows histories appended.histories ∧
        appended.testcase.novelties =
          (feedback.leaves.filterMap Leaf.novelties).getLast?.or
            testcase.novelties := by
  induction feedback generalizing histories testcase with
  | other id =>
      exact ⟨_, rfl, Grows.refl histories, rfl⟩
  | map leaf =>
      obtain ⟨appended, appends, grows, isLeft⟩ :=
        Leaf.appended_spec (within leaf (List.mem_singleton_self leaf)) testcase
      refine ⟨appended, appends, grows, isLeft.trans ?_⟩
      rw [leaves, List.filterMap_cons, List.filterMap_nil]
      cases leaf.novelties with
      | none =>
          rfl
      | some novelties =>
          rfl
  | combined logic first second firstHypothesis secondHypothesis =>
      obtain ⟨a, isFirst, firstGrows, firstNovel⟩ :=
        firstHypothesis (fun leaf isLeaf =>
          within leaf (List.mem_append_left _ isLeaf)) testcase
      obtain ⟨b, isSecond, secondGrows, secondNovel⟩ :=
        secondHypothesis (fun leaf isLeaf =>
          (within leaf (List.mem_append_right _ isLeaf)).grows firstGrows)
          a.testcase
      have appends :
          (Feedback.combined logic first second).appendMetadata execution
              histories testcase =
            some
              ⟨b.testcase, .combined logic a.feedback b.feedback,
                b.histories⟩ := by
        rw [appendMetadata, isFirst]
        exact congrArg (Option.bind · _) isSecond
      refine ⟨_, appends, firstGrows.trans secondGrows, ?_⟩
      rw [leaves, List.filterMap_append, List.getLast?_append, Option.or_assoc,
        ← firstNovel]
      exact secondNovel
  | not first ih =>
      obtain ⟨a, isFirst, grows, isNovel⟩ := ih within testcase
      have appends :
          (Feedback.not first).appendMetadata execution histories testcase =
            some ⟨a.testcase, .not a.feedback, a.histories⟩ := by
        rw [appendMetadata, isFirst]
        rfl
      exact ⟨_, appends, grows, isNovel⟩

end Feedback

end

section

variable {Kind : Type}
variable [DecidableEq Kind]
variable {Entry : Kind → Type}

/-- The input of an execution is added. -/
def Adds
    (fuzzer : Fuzzer Entry)
    (execution : Execution Entry)
    (asked : Asked Entry) : Prop :=
  execution.isSolution = false ∧
    fuzzer.feedback.isInteresting execution fuzzer.histories = some asked ∧
    execution.adds asked.verdict = true

/--
Where an input is added, what the map feedbacks found novel in this very execution
is what the testcase has, and nothing behind the end of a history is read.
-/
def Records
    (fuzzer : Fuzzer Entry)
    (execution : Execution Entry) : Prop :=
  ∀ asked, Adds fuzzer execution asked →
    ∃ appended,
      asked.feedback.appendMetadata execution asked.histories emptyMetadata =
          some appended ∧
        ∀ novelties,
          appended.testcase.novelties = some novelties ↔
            some novelties ∈
              fuzzer.feedback.novelNow execution fuzzer.histories

/--
Where an input is added, the map feedbacks that were skipped are harmless, and those
that track novelties find the same, as one alone does.
-/
def SoundWhereAdded
    (fuzzer : Fuzzer Entry)
    (execution : Execution Entry) : Prop :=
  ∀ asked, Adds fuzzer execution asked →
    fuzzer.feedback.Sound execution fuzzer.histories ∧
      ∀ first second,
        some first ∈ fuzzer.feedback.novelNow execution fuzzer.histories →
          some second ∈ fuzzer.feedback.novelNow execution fuzzer.histories →
            first = second

theorem getLast?_eq_some_iff_of_same
    {Element : Type*}
    {elements : List Element}
    {element : Element}
    (same : ∀ first ∈ elements, ∀ second ∈ elements, first = second) :
    elements.getLast? = some element ↔ element ∈ elements := by
  refine ⟨List.mem_of_getLast?, fun isElement => ?_⟩
  have isLast := List.getLast?_eq_some_getLast (List.ne_nil_of_mem isElement)
  rw [isLast]
  exact congrArg some (same _ (List.getLast_mem _) _ isElement)

theorem records_of_sound
    {fuzzer : Fuzzer Entry}
    {execution : Execution Entry}
    (sound : SoundWhereAdded fuzzer execution) :
    Records fuzzer execution := by
  intro asked adds
  obtain ⟨sound, same⟩ := sound asked adds
  obtain ⟨isNovel, within⟩ := Feedback.asked_spec sound adds.2.1
  obtain ⟨appended, appends, -, isLeft⟩ :=
    Feedback.appended_spec within emptyMetadata
  refine ⟨appended, appends, fun novelties => ?_⟩
  have isTracked
      (found : List Nat) :
      found ∈ asked.feedback.leaves.filterMap Leaf.novelties ↔
        some found ∈ fuzzer.feedback.novelNow execution fuzzer.histories := by
    rw [← isNovel, List.mem_filterMap, List.mem_map]
  have isLeft := isLeft.trans (Option.or_none ..)
  rw [isLeft, ← isTracked]
  refine getLast?_eq_some_iff_of_same fun first isFirst second isSecond => ?_
  exact same first second ((isTracked _).mp isFirst) ((isTracked _).mp isSecond)

/--
In every run whose executions find the skipped map feedbacks harmless and the
tracking ones agreed wherever an input is added, the novelties that are appended are
always those of the execution at hand.
-/
theorem composed_records_execution
    (start : Fuzzer Entry)
    (executions : List (Execution Entry))
    (sound : Run.Throughout Step SoundWhereAdded start executions) :
    Run.Throughout Step Records start executions :=
  fun earlier execution now isPrefix run =>
    records_of_sound (sound earlier execution now isPrefix run)

end

/-- The entries of all maps are bytes. -/
abbrev SampleEntry : Unit → Type :=
  fun _ => UInt8

/-- A map feedback that tracks novelties. -/
def sampleLeaf : Leaf SampleEntry where
  kind := ()
  strategy := .byDefault MaxReducer.reduce DifferentIsNovel.isNovel
  name := "map"
  observerName := "map"
  indexes := false
  novelties := some []

/-- The map feedback is interesting only together with another feedback. -/
def sampleFuzzer : Fuzzer SampleEntry where
  feedback :=
    .combined .logicFastOr (.other 0)
      (.combined .logicEagerAnd (.map sampleLeaf) (.other 1))
  histories _ _ := some []

/-- An execution that leaves a map behind. -/
def sampleExecution
    (map : List UInt8)
    (verdicts : Nat → Bool) : Execution SampleEntry where
  observers _ _ := some ⟨map, map.length, map.length, 0⟩
  verdicts := verdicts
  isSolution := false
  forced := false

/-- Two map feedbacks that track novelties, each of a map of its own. -/
def sampleTrackers : Fuzzer SampleEntry where
  feedback :=
    .combined .logicEagerOr (.map sampleLeaf)
      (.map { sampleLeaf with name := "other", observerName := "other" })
  histories _ _ := some []

/-- An execution that leaves two maps behind. -/
def sampleMaps (map other : List UInt8) : Execution SampleEntry where
  observers _ name :=
    if name = "map" then some ⟨map, map.length, map.length, 0⟩
    else some ⟨other, other.length, other.length, 0⟩
  verdicts _ := false
  isSolution := false
  forced := false

/--
The map feedback is asked about the first execution, and skipped in the second, of
which nothing is novel any more.
-/
theorem composed_records_execution_asked :
    Run.Throughout Step Records sampleFuzzer
      [sampleExecution [1, 0] (fun id => id = 1),
        sampleExecution [1, 0] (fun id => id = 0)] := by
  refine
    composed_records_execution _ _
      (Run.throughout_cons ?_ fun taken => Run.throughout_singleton ?_)
  · rintro asked -
    refine ⟨⟨trivial, ?_⟩, ?_⟩
    · rintro _ ⟨⟩
      refine ⟨?_, ?_⟩
      · rintro observer historyMap ⟨⟩ ⟨⟩
        intro cell isCell
        exact lt_of_mem_touched isCell
      · rintro _ -
        trivial
    · rintro first second (_ | ⟨_, ⟨⟩⟩) (_ | ⟨_, ⟨⟩⟩)
      rfl
  · obtain rfl := Option.some.inj taken
    rintro asked -
    refine ⟨⟨trivial, ?_⟩, ?_⟩
    · rintro _ ⟨⟩ leaf isLeaf
      obtain rfl := List.mem_singleton.mp isLeaf
      refine ⟨?_, ?_, _, [1, 0], rfl, rfl, by decide, ?_⟩
      · rintro _ ⟨⟩
        rfl
      · rintro _ ⟨⟩
        rfl
      · intro cell isCell
        exact lt_of_mem_touched isCell
    · rintro first second (_ | ⟨_, ⟨⟩⟩) (_ | ⟨_, ⟨⟩⟩)
      rfl

/--
A map feedback that is skipped appends the novelties of an execution that was not
added, one whose history is still empty reads behind its end, and the second of two
replaces what the first appended.
-/
theorem skipped_feedback_is_stale :
    (∃ now asked appended,
      Run Step sampleFuzzer [sampleExecution [0, 1] fun _ => false] now ∧
        Adds now (sampleExecution [1, 0] (fun id => id = 0)) asked ∧
        asked.feedback.appendMetadata
            (sampleExecution [1, 0] (fun id => id = 0)) asked.histories
            emptyMetadata =
          some appended ∧
        appended.testcase.novelties = some [1] ∧
        now.feedback.novelNow (sampleExecution [1, 0] (fun id => id = 0))
            now.histories =
          [some [0]]) ∧
      (∃ asked,
        Adds sampleFuzzer (sampleExecution [1] (fun id => id = 0)) asked ∧
          (asked.feedback.appendMetadata
              (sampleExecution [1] (fun id => id = 0)) asked.histories
              emptyMetadata).isNone =
            true) ∧
      ∃ asked appended,
        Adds sampleTrackers (sampleMaps [1, 0] [0, 1]) asked ∧
          asked.feedback.appendMetadata (sampleMaps [1, 0] [0, 1])
              asked.histories emptyMetadata =
            some appended ∧
          appended.testcase.novelties = some [1] ∧
          sampleTrackers.feedback.novelNow (sampleMaps [1, 0] [0, 1])
              sampleTrackers.histories =
            [some [0], some [1]] := by
  refine ⟨⟨_, _, _, .single rfl, ⟨rfl, rfl, rfl⟩, rfl, rfl, ?_⟩,
    ⟨_, ⟨rfl, rfl, rfl⟩, rfl⟩, ⟨_, _, ⟨rfl, rfl, rfl⟩, rfl, rfl, ?_⟩⟩
  · rfl
  · rfl

end Composed

end MeFuzz.Feedbacks
