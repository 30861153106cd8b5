import MeFuzz.Grimoire

namespace MeFuzz.Grimoire

open Corpus (CorpusId)
open Mutators Procedure

/-!
# The shape of generalized inputs

A generalized input starts and ends with a gap, and no two gaps are adjacent.
Cut at a gap, its front has no gap at the end and its back none at the start, so
that the parts that are put between or behind them fit.
-/

/-- Not both are gaps. -/
def Apart (item next : GeneralizedItem) : Prop :=
  item = .gap → next ≠ .gap

/-- The shape of a whole input. -/
structure Shape (items : List GeneralizedItem) : Prop where
  first : items.head? = some .gap
  last : items.getLast? = some .gap
  apart : items.IsChain Apart

/-- What something can be put behind: nothing, or items that start with a gap. -/
structure Front (items : List GeneralizedItem) : Prop where
  first : items ≠ [] → items.head? = some .gap
  apart : items.IsChain Apart

/-- What can be put behind a gap: nothing, or items that end with one. -/
structure Back (items : List GeneralizedItem) : Prop where
  first : items.head? ≠ some .gap
  last : items ≠ [] → items.getLast? = some .gap
  apart : items.IsChain Apart

section

variable {items more : List GeneralizedItem}
variable {i : Nat}

theorem Shape.front
    (shape : Shape items) :
    Front items :=
  ⟨fun _ => shape.first, shape.apart⟩

theorem back_nil : Back [] :=
  ⟨nofun, fun nonempty => absurd rfl nonempty, .nil⟩

theorem Front.append_shape
    (front : Front items)
    (noGap : items.getLast? ≠ some .gap)
    (shape : Shape more) :
    Shape (items ++ more) where
  first := by
    rw [List.head?_append]
    cases items with
    | nil =>
        exact shape.first
    | cons item rest =>
        exact congrArg (·.or more.head?) (front.first (List.cons_ne_nil _ _))
  last := by
    rw [List.getLast?_append, shape.last]
    rfl
  apart := by
    refine List.isChain_append.mpr ⟨front.apart, shape.apart, ?_⟩
    intro item isLast next _ isGap
    exact absurd (isGap ▸ isLast) noGap

theorem Front.append_back
    (front : Front items)
    (isGap : items.getLast? = some .gap)
    (back : Back more) :
    Shape (items ++ more) where
  first := by
    rw [List.head?_append]
    cases items with
    | nil =>
        cases isGap
    | cons item rest =>
        exact congrArg (·.or more.head?) (front.first (List.cons_ne_nil _ _))
  last := by
    rw [List.getLast?_append]
    cases more with
    | nil =>
        exact isGap
    | cons item rest =>
        rw [back.last (List.cons_ne_nil _ _)]
        rfl
  apart := by
    refine List.isChain_append.mpr ⟨front.apart, back.apart, ?_⟩
    intro item _ next isFirst _ nextIsGap
    exact back.first (nextIsGap ▸ isFirst)

theorem Shape.append_back
    (shape : Shape items)
    (back : Back more) :
    Shape (items ++ more) :=
  shape.front.append_back shape.last back

theorem Back.append
    (back : Back items)
    (later : Back more) :
    Back (items ++ more) where
  first := by
    rw [List.head?_append]
    cases items with
    | nil =>
        exact later.first
    | cons item rest =>
        exact back.first
  last nonempty := by
    rw [List.getLast?_append]
    cases more with
    | nil =>
        rw [List.append_nil] at nonempty
        exact back.last nonempty
    | cons item rest =>
        rw [later.last (List.cons_ne_nil _ _)]
        rfl
  apart := by
    refine List.isChain_append.mpr ⟨back.apart, later.apart, ?_⟩
    intro item _ next isFirst _ nextIsGap
    exact later.first (nextIsGap ▸ isFirst)

theorem Shape.take
    (shape : Shape items)
    (isGap : items[i]? = some .gap) :
    Front (items.take i) ∧ (items.take i).getLast? ≠ some .gap := by
  have inItems := (List.getElem?_eq_some_iff.mp isGap).1
  refine ⟨⟨fun nonempty => ?_, shape.apart.take i⟩, fun endsWithGap => ?_⟩
  · rw [List.head?_take]
    split
    · rename_i isZero
      rw [isZero] at nonempty
      exact absurd rfl nonempty
    · exact shape.first
  · rw [List.getLast?_take] at endsWithGap
    split at endsWithGap
    · cases endsWithGap
    · rename_i notZero
      have inFront : i - 1 + 1 < items.length := by omega
      have apart := List.isChain_iff_getElem.mp shape.apart (i - 1) inFront
      rw [List.getElem?_eq_getElem (by omega)] at endsWithGap
      refine apart (Option.some.inj endsWithGap) ?_
      have same : i - 1 + 1 = i := by omega
      rw [List.getElem?_eq_getElem inItems] at isGap
      simpa only [same] using Option.some.inj isGap

theorem Shape.drop
    (shape : Shape items)
    (isGap : items[i]? = some .gap) :
    Back (items.drop (i + 1)) where
  first startsWithGap := by
    rw [List.head?_drop] at startsWithGap
    obtain ⟨_, isGap⟩ := List.getElem?_eq_some_iff.mp isGap
    obtain ⟨inItems, nextIsGap⟩ := List.getElem?_eq_some_iff.mp startsWithGap
    exact List.isChain_iff_getElem.mp shape.apart i inItems isGap nextIsGap
  last nonempty := by
    rw [List.getLast?_drop, if_neg, shape.last]
    exact fun isShort => nonempty (List.drop_eq_nil_of_le isShort)
  apart := shape.apart.drop (i + 1)

theorem Shape.drop_gap
    (shape : Shape items)
    (isGap : items[i]? = some .gap) :
    Shape (items.drop i) where
  first := by
    rw [List.head?_drop, isGap]
  last := by
    rw [List.getLast?_drop, if_neg, shape.last]
    exact Nat.not_le.mpr (List.getElem?_eq_some_iff.mp isGap).1
  apart := shape.apart.drop i

theorem Shape.take_gap
    (shape : Shape items)
    (isGap : items[i]? = some .gap) :
    Shape (items.take (i + 1)) where
  first := by
    rw [List.head?_take, if_neg (Nat.succ_ne_zero i), shape.first]
  last := by
    rw [List.getLast?_take, if_neg (Nat.succ_ne_zero i), Nat.add_sub_cancel, isGap]
    rfl
  apart := shape.apart.take (i + 1)

theorem Shape.nonempty
    (shape : Shape items) :
    items ≠ [] := by
  rintro rfl
  cases shape.first

theorem mem_gapsOf :
    i ∈ gapsOf items ↔ items[i]? = some .gap := by
  unfold gapsOf
  constructor
  · intro isIndex
    obtain ⟨cell, isCell, rfl⟩ := List.mem_map.mp isIndex
    obtain ⟨isItem, isGap⟩ := List.mem_filter.mp isCell
    rw [← of_decide_eq_true isGap]
    exact List.mem_zipIdx_iff_getElem?.mp isItem
  · intro isGap
    exact
      List.mem_map.mpr
        ⟨(.gap, i),
          List.mem_filter.mpr
            ⟨List.mem_zipIdx_iff_getElem?.mpr isGap, decide_eq_true rfl⟩,
          rfl⟩

theorem Shape.gapsOf_ne_nil
    (shape : Shape items) :
    gapsOf items ≠ [] := by
  have isFirst : items[0]? = some .gap := by
    rw [← List.head?_eq_getElem?, shape.first]
  exact List.ne_nil_of_mem (mem_gapsOf.mpr isFirst)

end

/-- Between calls, nothing is left over that does not fit behind a gap. -/
structure Ready (now : Generalizing) : Prop where
  gapIndices : now.gapIndices = []
  scratch : Back now.scratch

/-- The generalized inputs of the corpus have the shape. -/
def Context.Shaped (context : Context) : Prop :=
  ∀ idx gen, context.get idx = .ok (some gen) → Shape gen

/-- A mutator does not return where the corpus is empty, or does not give a testcase. -/
inductive Excuse (context : Context) : Failure → Prop where
  | empty :
      context.count = 0 → Excuse context .panicked
  | error
      {idx : CorpusId}
      {error : Corpus.Error} :
      context.get idx = .error error → Excuse context (.error error)

/-- A mutator that does not return is starved or has an excuse. -/
def Fails
    (context : Context)
    (failure : Failure)
    (now : Generalizing) : Prop :=
  failure = .starved ∨ Excuse context failure ∧ Ready now

/-- An extension gives the shape, or changes nothing. -/
def Extends
    (start : Generalizing)
    (extended : Bool)
    (now : Generalizing) : Prop :=
  if extended then
    Shape now.generalized ∧ now.scratch = start.scratch ∧ now.gapIndices = []
  else now = start

section

variable {context : Context}
variable {start : Generalizing}
variable {failed : Failure → Generalizing → Prop}

variable {Result : Type}

variable {after : Result → Generalizing → Prop}

theorem bind_assertGaps
    {rest : Unit → Mutation Generalizing Result}
    (shape : Shape start.generalized)
    (later : Meets (· = start) (rest ()) after failed) :
    Meets (· = start) (assertGaps >>= rest) after failed := by
  have asserts :
      Meets (· = start) assertGaps (fun _ now => now = start) failed := by
    unfold assertGaps
    refine .bind_own ?_
    rw [if_pos ⟨shape.first, shape.last⟩]
    exact .pure fun _ isStart => isStart
  exact .bind asserts fun _ => later

variable {gen : List GeneralizedItem}

theorem bind_pushGaps
    {rest : List Nat → Mutation Generalizing Result}
    (ready : start.gapIndices = [])
    (later :
      Meets (· = { start with gapIndices := gapsOf gen }) (rest (gapsOf gen))
        after failed) :
    Meets (· = start) (pushGaps gen >>= rest) after failed := by
  obtain ⟨generalized, scratch, gapIndices⟩ := start
  obtain rfl : gapIndices = [] := ready
  rintro ⟨draws, _⟩ rfl
  exact later _ rfl

theorem exists_slice
    {items gen : List GeneralizedItem}
    {first second : Nat}
    (front : Front items)
    (shape : Shape gen)
    (firstIsGap : gen[first]? = some .gap)
    (secondIsGap : gen[second]? = some .gap) :
    ∃ part,
      slice gen
            (if items.getLast? = some .gap then min first second + 1
              else min first second)
            (max first second) =
          some part ∧
        Shape (items ++ part) := by
  have ordered : min first second ≤ max first second := min_le_max
  have minIsGap : gen[min first second]? = some .gap := by
    rcases min_choice first second with same | same
    · rw [same, firstIsGap]
    · rw [same, secondIsGap]
  have maxIsGap : gen[max first second]? = some .gap := by
    rcases max_choice first second with same | same
    · rw [same, firstIsGap]
    · rw [same, secondIsGap]
  have inItems := (List.getElem?_eq_some_iff.mp maxIsGap).1
  have shapeTaken := shape.take_gap maxIsGap
  have isTaken : (gen.take (max first second + 1))[min first second]? = some .gap := by
    rw [List.getElem?_take_of_lt (Nat.lt_succ_of_le ordered), minIsGap]
  unfold slice
  split
  · rename_i isGap
    rw [if_pos ⟨Nat.succ_le_succ ordered, inItems⟩]
    exact ⟨_, rfl, front.append_back isGap (shapeTaken.drop isTaken)⟩
  · rename_i noGap
    rw [if_pos ⟨Nat.le_succ_of_le ordered, inItems⟩]
    exact ⟨_, rfl, front.append_shape noGap (shapeTaken.drop_gap isTaken)⟩

theorem Shape.exists_gap
    (shape : Shape gen)
    (rand : Nat) :
    ∃ index,
      (gapsOf gen)[rand % (gapsOf gen).length]? = some index ∧
        gen[index]? = some .gap := by
  have positive := List.length_pos_iff.mpr shape.gapsOf_ne_nil
  have isIndex := List.getElem?_eq_getElem (Nat.mod_lt rand positive)
  exact ⟨_, isIndex, mem_gapsOf.mp (List.mem_of_getElem? isIndex)⟩

variable {idx : CorpusId}

theorem meets_extendWithSlice
    (shaped : context.Shaped)
    (front : Front start.generalized)
    (ready : Ready start) :
    Meets (· = start) (extendWithSlice context idx) (Extends start)
      (Fails context) := by
  refine .bind_next (.inl rfl) fun rand1 => .bind_next (.inl rfl) fun rand2 => ?_
  cases isGen : context.get idx with
  | error error =>
      exact .bind_attempt_error rfl (.inr ⟨.error isGen, ready⟩)
  | ok optional =>
      refine .bind_attempt rfl ?_
      cases optional with
      | none =>
          exact .pure fun _ isStart => isStart
      | some gen =>
          have shape := shaped idx gen isGen
          obtain ⟨first, isFirst, firstIsGap⟩ := shape.exists_gap rand1
          obtain ⟨second, isSecond, secondIsGap⟩ := shape.exists_gap rand2
          obtain ⟨part, isPart, extended⟩ :=
            exists_slice front shape firstIsGap secondIsGap
          refine bind_pushGaps ready.gapIndices ?_
          refine .bind_unwrap isFirst (.bind_unwrap isSecond ?_)
          refine .bind_change (.bind_own (.bind_unwrap isPart ?_))
          refine .bind_change (bind_assertGaps extended ?_)
          refine .pure fun now isEnd => ?_
          subst isEnd
          exact ⟨extended, rfl, rfl⟩

theorem shape_token
    {items : List GeneralizedItem}
    {token : Bytes}
    (front : Front items) :
    Shape
      (items ++
        if items.getLast? = some .gap then [.bytes token, .gap]
        else [.gap, .bytes token, .gap]) := by
  split
  · exact front.append_back ‹_›
      ⟨nofun, fun _ => rfl, by simp [Apart]⟩
  · exact front.append_shape ‹_› ⟨rfl, rfl, by simp [Apart]⟩

theorem meets_extendWithToken
    (front : Front start.generalized)
    (ready : Ready start) :
    Meets (· = start) (extendWithToken context) (Extends start)
      (Fails context) := by
  unfold extendWithToken
  refine .bind_next (.inl rfl) fun rand1 => ?_
  cases context.tokens with
  | none =>
      exact .pure fun _ isStart => isStart
  | some tokens =>
      cases tokens with
      | nil =>
          exact .pure fun _ isStart => isStart
      | cons token tokens =>
          have isIndex := Nat.mod_lt rand1 (Nat.succ_pos tokens.length)
          refine .bind_unwrap (List.getElem?_eq_getElem isIndex) (.bind_own ?_)
          have extended := @shape_token _ (token :: tokens)[rand1 % _] front
          dsimp only
          split at extended
          · rw [if_pos ‹_›]
            refine .bind_change (bind_assertGaps extended ?_)
            refine .pure fun now isEnd => ?_
            subst isEnd
            exact ⟨extended, rfl, ready.gapIndices⟩
          · rw [if_neg ‹_›]
            refine .bind_change (bind_assertGaps extended ?_)
            refine .pure fun now isEnd => ?_
            subst isEnd
            exact ⟨extended, rfl, ready.gapIndices⟩

theorem shape_whole
    {items gen : List GeneralizedItem}
    (front : Front items)
    (shape : Shape gen) :
    Shape
      (items ++
        if items.getLast? = some .gap ∧ gen.head? = some .gap then gen.tail
        else gen) := by
  have firstIsGap : gen[0]? = some .gap := by
    rw [← List.head?_eq_getElem?, shape.first]
  split
  · rename_i isGap
    exact front.append_back isGap.1 (List.drop_one ▸ shape.drop firstIsGap)
  · rename_i noGap
    exact front.append_shape (fun isGap => noGap ⟨isGap, shape.first⟩) shape

theorem meets_extendWithWhole
    (shaped : context.Shaped)
    (front : Front start.generalized)
    (ready : Ready start) :
    Meets (· = start) (extendWithWhole context idx)
      (fun result => Extends start (result = .mutated)) (Fails context) := by
  unfold extendWithWhole
  cases isGen : context.get idx with
  | error error =>
      exact .bind_attempt_error rfl (.inr ⟨.error isGen, ready⟩)
  | ok optional =>
      refine .bind_attempt rfl ?_
      cases optional with
      | none =>
          exact .pure fun _ isStart => isStart
      | some gen =>
          have extended := shape_whole front (shaped idx gen isGen)
          refine .bind_own ?_
          dsimp only
          split at extended
          · rw [if_pos ‹_›]
            refine .bind_change (bind_assertGaps extended ?_)
            refine .pure fun now isEnd => ?_
            subst isEnd
            exact ⟨extended, rfl, ready.gapIndices⟩
          · rw [if_neg ‹_›]
            refine .bind_change (bind_assertGaps extended ?_)
            refine .pure fun now isEnd => ?_
            subst isEnd
            exact ⟨extended, rfl, ready.gapIndices⟩

theorem meets_extended
    {mutation : Mutation Generalizing Bool}
    {rest : Mutation Generalizing MutationResult}
    (first : Meets (· = start) mutation (Extends start) (Fails context))
    (second :
      Meets (· = start) rest (fun result => Extends start (result = .mutated))
        (Fails context)) :
    Meets (· = start) (do if ← mutation then pure .mutated else rest)
      (fun result => Extends start (result = .mutated)) (Fails context) := by
  refine .bind first fun extended => ?_
  cases extended
  · exact second
  · exact .pure fun _ reached => reached

theorem meets_extendWithSubinput
    (shaped : context.Shaped)
    (front : Front start.generalized)
    (ready : Ready start) :
    Meets (· = start) (extendWithSubinput context idx) (Extends start)
      (Fails context) := by
  refine .bind_below (.inl rfl) fun chance _ => ?_
  split
  · refine .bind (meets_extendWithSlice shaped front ready) fun extended => ?_
    cases extended
    · exact meets_extendWithToken front ready
    · exact .pure fun _ reached => reached
  · exact meets_extendWithToken front ready

theorem bind_randomCorpusId
    {rest : CorpusId → Mutation Generalizing Result}
    (ready : Ready start)
    (later : ∀ idx, Meets (· = start) (rest idx) after (Fails context)) :
    Meets (· = start) (randomCorpusId context >>= rest) after (Fails context) := by
  have drawn :
      Meets (· = start) (randomCorpusId context) (fun _ now => now = start)
        (Fails context) := by
    refine .bind_below (.inl rfl) fun nth isNth => .unwrap ?_ ?_
    · exact fun _ _ _ isStart => isStart
    · rintro isNone _ rfl
      refine .inr ⟨.empty ?_, ready⟩
      have notBelow : ¬nth < context.count := fun isBelow => by
        have isSome := context.nth_isSome nth isBelow
        rw [isNone] at isSome
        cases isSome
      omega
  exact .bind drawn later

theorem meets_extendWithRandomGeneralized
    (shaped : context.Shaped)
    (front : Front start.generalized)
    (ready : Ready start) :
    Meets (· = start) (extendWithRandomGeneralized context)
      (fun result => Extends start (result = .mutated)) (Fails context) := by
  refine bind_randomCorpusId ready fun idx => ?_
  refine .bind_below (.inl rfl) fun chance _ => ?_
  split
  · exact meets_extended (meets_extendWithSubinput shaped front ready)
      (meets_extendWithWhole shaped front ready)
  · exact meets_extendWithWhole shaped front ready

/-- A whole input between calls. -/
structure Whole (now : Generalizing) : Prop where
  shape : Shape now.generalized
  ready : Ready now

theorem meets_replaceGap
    {selected : Nat}
    (shaped : context.Shaped)
    (whole : Whole start)
    (isGap : start.generalized[selected]? = some .gap) :
    Meets (· = start) (replaceGap context start.generalized selected)
      (fun _ => Whole) (Fails context) := by
  obtain ⟨front, noGap⟩ := whole.shape.take isGap
  have back := whole.ready.scratch.append (whole.shape.drop isGap)
  unfold replaceGap
  refine .bind_change ?_
  refine .bind
    (meets_extendWithRandomGeneralized shaped front
      ⟨whole.ready.gapIndices, back⟩) fun result => ?_
  cases result with
  | mutated =>
      rintro ⟨draws, now⟩ ⟨shape, isScratch, noGaps⟩
      have isScratch : now.scratch = _ := isScratch
      exact ⟨shape.append_back (isScratch ▸ back), noGaps, back_nil⟩
  | skipped =>
      rintro ⟨draws, _⟩ rfl
      refine ⟨?_, whole.ready.gapIndices, back_nil⟩
      exact (front.append_shape noGap ⟨rfl, rfl, by simp⟩).append_back back

theorem meets_replaceRecursively
    (shaped : context.Shaped)
    (depth : Nat)
    (result : MutationResult) :
    Meets Whole (replaceRecursively context depth result) (fun _ => Whole)
      (Fails context) := by
  induction depth generalizing result with
  | zero =>
      exact .pure fun _ whole => whole
  | succ depth ih =>
      refine .of_each fun now whole => ?_
      unfold replaceRecursively
      refine .bind_own ?_
      dsimp only
      split
      · exact .pure fun _ isStart => isStart ▸ whole
      · refine bind_pushGaps whole.ready.gapIndices ?_
        rw [if_neg (by simpa using whole.shape.gapsOf_ne_nil)]
        refine .bind_choose whole.shape.gapsOf_ne_nil (.inl rfl)
          fun selected isSelected => .bind_change ?_
        have cleared :
            Whole { now with gapIndices := [] } :=
          ⟨whole.shape, rfl, whole.ready.scratch⟩
        exact .bind (meets_replaceGap shaped cleared (mem_gapsOf.mp isSelected))
          fun _ => ih .mutated

theorem exists_drain
    {first second : Nat}
    (shape : Shape gen)
    (firstIsGap : gen[first]? = some .gap)
    (secondIsGap : gen[second]? = some .gap) :
    ∃ drained,
      drain gen (min first second) (max first second) = some drained ∧
        Shape drained := by
  have inFirst := (List.getElem?_eq_some_iff.mp firstIsGap).1
  have inSecond := (List.getElem?_eq_some_iff.mp secondIsGap).1
  refine ⟨_, if_pos ⟨min_le_max, (max_lt inFirst inSecond).le⟩, ?_⟩
  rcases le_total first second with ordered | ordered
  · rw [min_eq_left ordered, max_eq_right ordered]
    obtain ⟨front, noGap⟩ := shape.take firstIsGap
    exact front.append_shape noGap (shape.drop_gap secondIsGap)
  · rw [min_eq_right ordered, max_eq_left ordered]
    obtain ⟨front, noGap⟩ := shape.take secondIsGap
    exact front.append_shape noGap (shape.drop_gap firstIsGap)

theorem bind_below_gap
    {rest : Nat → Mutation Generalizing Result}
    (shape : Shape gen)
    (later :
      ∀ index, gen[index]? = some .gap →
        Meets (· = start) (rest index) after (Fails context)) :
    Meets (· = start)
      (below (gapsOf gen).length >>= fun i => unwrap (gapsOf gen)[i]? >>= rest)
      after (Fails context) := by
  refine .bind_below (.inl rfl) fun i isIndex => ?_
  have positive := List.length_pos_iff.mpr shape.gapsOf_ne_nil
  have inGaps : i < (gapsOf gen).length := by omega
  have isGap := List.getElem?_eq_getElem inGaps
  exact .bind_unwrap isGap (later _ (mem_gapsOf.mp (List.mem_of_getElem? isGap)))

theorem meets_deleteRandomly
    (whole : Whole start) :
    Meets (· = start) deleteRandomly (fun _ => Whole) (Fails context) := by
  have shape := whole.shape
  unfold deleteRandomly
  refine .bind_own (bind_pushGaps whole.ready.gapIndices ?_)
  refine bind_below_gap shape fun first firstIsGap => ?_
  refine bind_below_gap shape fun second secondIsGap => .bind_change ?_
  dsimp only
  split
  · refine .pure fun now isEnd => ?_
    subst isEnd
    exact ⟨shape, rfl, whole.ready.scratch⟩
  · obtain ⟨drained, isDrained, shapeDrained⟩ :=
      exists_drain shape firstIsGap secondIsGap
    refine .bind_unwrap isDrained (.bind_change (.pure fun now isEnd => ?_))
    subst isEnd
    exact ⟨shapeDrained, rfl, whole.ready.scratch⟩

end

/-- Which items are gaps. -/
def kinds (items : List GeneralizedItem) : List Bool :=
  items.map fun item => item = .gap

section

variable {items next : List GeneralizedItem}

theorem head?_kinds :
    items.head? = some .gap ↔ (kinds items).head? = some true := by
  rw [kinds, List.head?_map, Option.map_eq_some_iff]
  simp

theorem getLast?_kinds :
    items.getLast? = some .gap ↔ (kinds items).getLast? = some true := by
  rw [kinds, List.getLast?_map, Option.map_eq_some_iff]
  simp

theorem isChain_kinds :
    items.IsChain Apart ↔
      (kinds items).IsChain fun isGap nextIsGap =>
        isGap = true → nextIsGap ≠ true := by
  rw [kinds, List.isChain_map]
  simp only [ne_eq, decide_eq_true_eq]
  rfl

theorem Shape.of_kinds
    (shape : Shape items)
    (same : kinds next = kinds items) :
    Shape next where
  first := head?_kinds.mpr (same ▸ head?_kinds.mp shape.first)
  last := getLast?_kinds.mpr (same ▸ getLast?_kinds.mp shape.last)
  apart := isChain_kinds.mpr (same ▸ isChain_kinds.mp shape.apart)

variable {fuel : Nat}
variable {find replacement : Bytes}
variable {stopAtFirst : Bool}
variable {result final : MutationResult}

theorem kinds_replaceInItems
    (replaced :
      replaceInItems fuel find replacement stopAtFirst items result =
        some (next, final)) :
    kinds next = kinds items := by
  induction items generalizing next result with
  | nil =>
      obtain ⟨rfl, rfl⟩ := Prod.mk.inj (Option.some.inj replaced)
      rfl
  | cons item rest ih =>
      cases item with
      | gap =>
          rw [replaceInItems] at replaced
          obtain ⟨⟨rest', result'⟩, isRest, replaced⟩ :=
            Option.bind_eq_some_iff.mp replaced
          obtain ⟨rfl, rfl⟩ := Prod.mk.inj (Option.some.inj replaced)
          exact congrArg (true :: ·) (ih isRest)
      | bytes content =>
          rw [replaceInItems] at replaced
          obtain ⟨⟨content', result', stops⟩, -, replaced⟩ :=
            Option.bind_eq_some_iff.mp replaced
          dsimp only at replaced
          split at replaced
          · obtain ⟨rfl, rfl⟩ := Prod.mk.inj (Option.some.inj replaced)
            rfl
          · obtain ⟨⟨rest', result''⟩, isRest, replaced⟩ :=
              Option.bind_eq_some_iff.mp replaced
            obtain ⟨rfl, rfl⟩ := Prod.mk.inj (Option.some.inj replaced)
            exact congrArg (false :: ·) (ih isRest)

theorem isSome_replaceToken
    {i : Nat}
    {bytes : Bytes}
    (nonempty : find ≠ [])
    (isEnough : bytes.length - i < fuel) :
    (replaceToken find replacement stopAtFirst fuel i bytes result).isSome =
      true := by
  induction fuel generalizing i bytes result with
  | zero =>
      cases isEnough
  | succ fuel ih =>
      have positive := List.length_pos_iff.mpr nonempty
      rw [replaceToken]
      split
      · split
        · rename_i isInside isFound
          have inBytes := (List.isPrefixOf_iff_prefix.mp isFound).length_le
          rw [List.length_drop] at inBytes
          split
          · rfl
          · refine ih ?_
            rw [List.length_append, List.length_append, List.length_take,
              List.length_drop]
            omega
        · exact ih (by omega)
      · rfl

theorem replaceInItems_hangs
    (hangs :
      replaceInItems fuel find replacement stopAtFirst items result = none) :
    find = [] ∨ ∃ content, .bytes content ∈ items ∧ fuel ≤ content.length := by
  by_cases isEmpty : find = []
  · exact .inl isEmpty
  · refine .inr ?_
    induction items generalizing result with
    | nil =>
        cases hangs
    | cons item rest ih =>
        cases item with
        | gap =>
            rw [replaceInItems] at hangs
            cases isRest :
              replaceInItems fuel find replacement stopAtFirst rest result with
            | none =>
                obtain ⟨content, isItem, isShort⟩ := ih isRest
                exact ⟨content, List.mem_cons_of_mem _ isItem, isShort⟩
            | some _ =>
                rw [isRest] at hangs
                cases hangs
        | bytes content =>
            by_cases isShort : fuel ≤ content.length
            · exact ⟨content, List.mem_cons_self, isShort⟩
            · obtain ⟨⟨content', result', stops⟩, isToken⟩ :=
                Option.isSome_iff_exists.mp
                  (@isSome_replaceToken fuel find replacement stopAtFirst result 0
                    content isEmpty (by omega))
              rw [replaceInItems, isToken] at hangs
              cases stops
              · cases isRest :
                  replaceInItems fuel find replacement stopAtFirst rest result' with
                | none =>
                    obtain ⟨content, isItem, isShort⟩ := ih isRest
                    exact ⟨content, List.mem_cons_of_mem _ isItem, isShort⟩
                | some _ =>
                    simp [isRest] at hangs
              · simp at hangs

end

/-- Why `mutate` does not return, given what it starts with. -/
def FailsToMutate
    (context : Context)
    (fuel : Nat)
    (start : Generalizing)
    (failure : Failure)
    (now : Generalizing) : Prop :=
  Fails context failure now ∨
    failure = .hangs ∧
      ((∃ tokens, context.tokens = some tokens ∧ [] ∈ tokens) ∨
        ∃ content, .bytes content ∈ start.generalized ∧ fuel ≤ content.length)

section

variable {context : Context}
variable {start : Generalizing}
variable {fuel : Nat}

theorem bind_finishes
    {Value Result : Type}
    {optional : Option Value}
    {rest : Value → Mutation Generalizing Result}
    {after : Result → Generalizing → Prop}
    {failed : Failure → Generalizing → Prop}
    (hangs : optional = none → failed .hangs start)
    (later :
      ∀ value, optional = some value → Meets (· = start) (rest value) after failed) :
    Meets (· = start) (finishes optional >>= rest) after failed := by
  cases optional with
  | none =>
      rintro ⟨draws, _⟩ rfl
      exact hangs rfl
  | some value =>
      exact later value rfl

theorem kinds_take_append_drop
    {items front back : List GeneralizedItem}
    {index : Nat}
    (sameFront : kinds front = kinds (items.take index))
    (sameBack : kinds back = kinds (items.drop index)) :
    kinds (front ++ back) = kinds items := by
  unfold kinds at sameFront sameBack ⊢
  rw [List.map_append, sameFront, sameBack, ← List.map_append,
    List.take_append_drop]

theorem meets_replaceTokens
    {tokens : List Bytes}
    {find replacement : Bytes}
    {stopAtFirst : Bool}
    {randIdx : Nat}
    (hasTokens : context.tokens = some tokens)
    (isToken : find ∈ tokens)
    (whole : Whole start) :
    Meets (· = start) (replaceTokens fuel find replacement stopAtFirst randIdx)
      (fun _ => Whole) (FailsToMutate context fuel start) := by
  have excuse :
      ∀ {items result},
        (∀ item ∈ items, item ∈ start.generalized) →
        replaceInItems fuel find replacement stopAtFirst items result = none →
        ∀ now, FailsToMutate context fuel start .hangs now := by
    intro items result isPart hangs now
    rcases replaceInItems_hangs hangs with isEmpty | ⟨content, isItem, isShort⟩
    · exact .inr ⟨rfl, .inl ⟨tokens, hasTokens, isEmpty ▸ isToken⟩⟩
    · exact .inr ⟨rfl, .inr ⟨content, isPart _ isItem, isShort⟩⟩
  refine .bind_own (bind_finishes ?_ fun (front, result) isFront => .bind_change ?_)
  · exact fun hangs => excuse (fun _ => List.mem_of_mem_take) hangs _
  · have sameFront := kinds_replaceInItems isFront
    dsimp only
    split
    · refine bind_finishes ?_ fun (back, result) isBack => .bind_change ?_
      · exact fun hangs => excuse (fun _ => List.mem_of_mem_drop) hangs _
      · refine .pure fun now isEnd => ?_
        subst isEnd
        exact
          ⟨whole.shape.of_kinds
              (kinds_take_append_drop sameFront (kinds_replaceInItems isBack)),
            whole.ready.gapIndices, whole.ready.scratch⟩
    · refine .pure fun now isEnd => ?_
      subst isEnd
      exact
        ⟨whole.shape.of_kinds (kinds_take_append_drop sameFront rfl),
          whole.ready.gapIndices, whole.ready.scratch⟩

theorem meets_replaceStrings
    {tokens : List Bytes}
    (hasTokens : context.tokens = some tokens)
    (nonempty : tokens ≠ [])
    (whole : Whole start) :
    Meets (· = start) (replaceStrings fuel tokens)
      (fun _ => Whole) (FailsToMutate context fuel start) := by
  have positive := List.length_pos_iff.mpr nonempty
  have starves : FailsToMutate context fuel start .starved start :=
    .inl (.inl rfl)
  have isNonempty : start.generalized.isEmpty = false := by
    simpa using whole.shape.nonempty
  have finish :
      ∀ tokenFind tokenReplace,
        tokenFind = 0 ∨ tokenFind < tokens.length →
        tokenReplace = 0 ∨ tokenReplace < tokens.length →
        Meets (· = start)
          (do
            let stopAtFirst := 50 < (← below 100)
            let randIdx ← next
            let token1 ← unwrap tokens[tokenFind]?
            let token2 ← unwrap tokens[tokenReplace]?
            let gen := (← own).generalized
            if gen.isEmpty then throw .panicked
            else
              replaceTokens fuel token1 token2 stopAtFirst (randIdx % gen.length))
          (fun _ => Whole) (FailsToMutate context fuel start) := by
    intro tokenFind tokenReplace inFind inReplace
    have inFind : tokenFind < tokens.length := by omega
    have inReplace : tokenReplace < tokens.length := by omega
    refine .bind_below starves fun _ _ => .bind_next starves fun randIdx => ?_
    refine .bind_unwrap (List.getElem?_eq_getElem inFind) ?_
    refine .bind_unwrap (List.getElem?_eq_getElem inReplace) (.bind_own ?_)
    dsimp only
    rw [isNonempty, if_neg Bool.false_ne_true]
    exact meets_replaceTokens hasTokens (List.getElem_mem inFind) whole
  refine .bind_below starves fun tokenFind inFind => ?_
  refine .bind_below starves fun drawn inDrawn => ?_
  dsimp only
  split
  · exact .bind_below starves fun tokenReplace inReplace =>
      finish _ _ inFind inReplace
  · exact finish _ _ inFind inDrawn

/--
From any whole input, and whatever the random numbers are, each of the mutators
returns a whole input.  It does not return where the corpus has no testcase to
give, or where it looks for the empty token.
-/
theorem mutate_keeps_shape
    (context : Context)
    (shaped : context.Shaped)
    (fuel : Nat)
    (mutator : GrimoireMutator)
    (start : Generalizing)
    (whole : Whole start) :
    Meets (· = start) (mutate context fuel mutator) (fun _ => Whole)
      (FailsToMutate context fuel start) := by
  cases mutator with
  | extension =>
      refine
        (meets_extendWithRandomGeneralized shaped whole.shape.front
          whole.ready).weaken
          (fun _ isStart => isStart) ?_ fun _ _ fails => .inl fails
      intro result now reached
      cases result with
      | mutated =>
          obtain ⟨shape, isScratch, noGaps⟩ := reached
          exact ⟨shape, noGaps, isScratch ▸ whole.ready.scratch⟩
      | skipped =>
          obtain rfl : now = start := reached
          exact whole
  | recursiveReplacement =>
      refine .bind_choose (List.cons_ne_nil _ _) (.inl (.inl rfl)) fun depth _ => ?_
      exact
        (meets_replaceRecursively shaped depth .skipped).weaken
          (fun _ isStart => isStart ▸ whole) (fun _ _ reached => reached)
          fun _ _ fails => .inl fails
  | stringReplacement =>
      unfold mutate
      cases hasTokens : context.tokens with
      | none =>
          exact .pure fun _ isStart => isStart ▸ whole
      | some tokens =>
          dsimp only
          split
          · exact .pure fun _ isStart => isStart ▸ whole
          · rename_i nonempty
            exact meets_replaceStrings hasTokens (by simpa using nonempty) whole
  | randomDelete =>
      exact
        (meets_deleteRandomly whole).weaken (fun _ isStart => isStart)
          (fun _ _ reached => reached) fun _ _ fails => .inl fails

/-- A corpus of one testcase. -/
def sampleContext : Context where
  count := 1
  nth i := if i = 0 then some 7 else none
  nth_isSome i isBelow := by
    obtain rfl : i = 0 := by omega
    rfl
  get _ := .ok (some [.gap, .bytes [1], .gap])
  tokens := none

/-- The extension of an input with all of another. -/
theorem mutate_keeps_shape_extension :
    ∃ final : Drawing Generalizing,
      (mutate sampleContext 0 .extension).outcome
            ⟨[0], ⟨[.gap, .bytes [2], .gap], [], []⟩⟩ =
          (.ok .mutated, final) ∧
        final.own.generalized =
          [.gap, .bytes [2], .gap, .bytes [1], .gap] ∧
        Whole final.own := by
  have sampleShape :
      ∀ byte, Shape [.gap, .bytes [byte], .gap] :=
    fun _ => ⟨rfl, rfl, by simp [Apart]⟩
  have shaped : sampleContext.Shaped := by
    rintro idx _ ⟨⟩
    exact sampleShape 1
  have returned :
      (mutate sampleContext 0 .extension).outcome
          ⟨[0], ⟨[.gap, .bytes [2], .gap], [], []⟩⟩ =
        (.ok .mutated,
          ⟨[], ⟨[.gap, .bytes [2], .gap, .bytes [1], .gap], [], []⟩⟩) := by
    rfl
  refine ⟨_, returned, rfl, ?_⟩
  exact
    (mutate_keeps_shape sampleContext shaped 0 .extension _
      ⟨sampleShape 2, rfl, back_nil⟩).of_ok rfl returned

end

end MeFuzz.Grimoire
