import MeFuzz.BoundedMutations
import MeFuzz.TargetRuns

namespace MeFuzz.Colorization

open Corpus (CorpusId Error InMemoryCorpus)
open Execution (Executor Machine)
open Mutators
open Procedure

/-!
# Colorization

The stage replaces as much of an input as it can without changing the map.  A range
whose replacement changes the map is cut in two, and the halves are tried later.  What
is left are the bytes that the map depends on.
-/

/-- The first byte of the class of a byte, and how many follow it. -/
def drawnClass (byte : UInt8) : Option (UInt8 × Nat) :=
  if 0x41 ≤ byte ∧ byte ≤ 0x46 then some (0x41, 5)
  else if 0x61 ≤ byte ∧ byte ≤ 0x66 then some (0x61, 5)
  else if 0x32 ≤ byte ∧ byte ≤ 0x39 then some (0x32, 7)
  else if 0x47 ≤ byte ∧ byte ≤ 0x5a then some (0x47, 19)
  else if 0x67 ≤ byte ∧ byte ≤ 0x7a then some (0x67, 19)
  else if 0x21 ≤ byte ∧ byte ≤ 0x2a then some (0x21, 9)
  else if 0x2c ≤ byte ∧ byte ≤ 0x2e then some (0x2c, 2)
  else if 0x3a ≤ byte ∧ byte ≤ 0x40 then some (0x3a, 6)
  else if 0x5b ≤ byte ∧ byte ≤ 0x60 then some (0x5b, 5)
  else if 0x7b ≤ byte ∧ byte ≤ 0x7e then some (0x7b, 3)
  else none

/-- What takes the place of a byte that is in no class. -/
def swapped (byte : UInt8) : UInt8 :=
  if byte = 0x30 then 0x31
  else if byte = 0x31 then 0x30
  else if byte = 0x2b then 0x2f
  else if byte = 0x2f then 0x2b
  else if byte = 0x20 then 0x9
  else if byte = 0x9 then 0x20
  else if byte = 0xd then 0xa
  else if byte = 0xa then 0xd
  else if byte = 0x0 then 0x1
  else if byte = 0x1 ∨ byte = 0xff then 0x0
  else if byte < 32 then byte ^^^ 0x1f
  else byte ^^^ 0x7f

section

variable {Own : Type}

/-- The body of the loop in `type_replace`. -/
def replaceByte (byte : UInt8) : Mutation Own UInt8 :=
  match drawnClass byte with
  | some (first, count) => do
      pure (first + 1 + UInt8.ofNat (← below count))
  | none => pure (swapped byte)

/-- `type_replace`. -/
def typeReplace (bytes : List UInt8) : Mutation Own (List UInt8) :=
  bytes.mapM replaceByte

theorem typeReplace_length
    {bytes changed : List UInt8}
    {now next : Drawing Own}
    (returned : (typeReplace bytes).outcome now = (.ok changed, next)) :
    changed.length = bytes.length := by
  unfold typeReplace at returned
  induction bytes generalizing changed now with
  | nil =>
      cases returned
      rfl
  | cons byte bytes ih =>
      rw [List.mapM_cons, outcome_bind] at returned
      split at returned
      · rw [outcome_bind] at returned
        split at returned
        · rename_i reached
          cases returned
          exact congrArg (· + 1) (ih reached)
        · cases returned
      · cases returned

end

/-- The positions of a list of ranges. -/
def Covers (ranges : List Range) (index : Nat) : Prop :=
  ∃ range ∈ ranges, range.Contains index

/-- No position is in both ranges. -/
def Apart (left right : Range) : Prop :=
  left.stop ≤ right.start ∨ right.stop ≤ left.start

/-- There is something in a range of a sequence of some length. -/
def Inhabits (length : Nat) (range : Range) : Prop :=
  range.start < range.stop ∧ range.stop ≤ length

/-- Ranges in order, with something between any two of them. -/
structure Separated (length : Nat) (ranges : List Range) : Prop where
  ordered : ranges.Pairwise fun left right => left.stop < right.start
  inhabits : ∀ range ∈ ranges, Inhabits length range

section

variable {length index : Nat}
variable {range : Range}
variable {ranges others : List Range}

@[simp] theorem covers_nil :
    ¬Covers [] index :=
  fun ⟨_, isMember, _⟩ => List.not_mem_nil isMember

@[simp] theorem covers_cons :
    Covers (range :: ranges) index ↔ range.Contains index ∨ Covers ranges index := by
  simp [Covers]

@[simp] theorem covers_append :
    Covers (ranges ++ others) index ↔ Covers ranges index ∨ Covers others index := by
  simp [Covers, or_and_right, exists_or]

theorem covers_perm
    (perm : ranges.Perm others) :
    Covers ranges index ↔ Covers others index := by
  simp [Covers, perm.mem_iff]

theorem apart_comm
    {left right : Range}
    (apart : Apart left right) :
    Apart right left :=
  apart.symm

theorem not_covers
    (apart : ∀ other ∈ ranges, Apart range other)
    (contains : range.Contains index) :
    ¬Covers ranges index := by
  rintro ⟨other, isMember, inOther⟩
  rcases apart other isMember with before | behind
  · exact absurd (contains.2.trans_le before) (Nat.not_lt.mpr inOther.1)
  · exact absurd (inOther.2.trans_le behind) (Nat.not_lt.mpr contains.1)

end

/-- The body of the loop over the sorted ranges. -/
def mergeRange (res : List Range) (item : Range) : List Range :=
  match res.getLast? with
  | some last =>
      if last.stop = item.start then res.dropLast ++ [{ last with stop := item.stop }]
      else res ++ [item]
  | none => res ++ [item]

/-- The ranges, with those that touch put together. -/
def mergeRanges (ranges : List Range) : List Range :=
  ranges.foldl mergeRange []

/-- `ok_ranges.into_sorted_vec().into_iter().rev()`; the starts of the ranges differ. -/
def sortedRanges (okRanges : List Range) : List Range :=
  (okRanges.mergeSort fun left right => right.start ≤ left.start).reverse

section

variable {length index : Nat}
variable {item : Range}
variable {res items : List Range}

/-- What has been merged ends where the next range starts, or before. -/
def EndsBefore (res : List Range) (item : Range) : Prop :=
  ∀ last ∈ res.getLast?, last.stop ≤ item.start

theorem mergeRange_spec
    (separated : Separated length res)
    (inhabits : Inhabits length item)
    (ends : EndsBefore res item) :
    Separated length (mergeRange res item) ∧
      (∀ last ∈ (mergeRange res item).getLast?, last.stop = item.stop) ∧
      ∀ index, Covers (mergeRange res item) index ↔ Covers res index ∨ item.Contains index := by
  rcases List.eq_nil_or_concat' res with rfl | ⟨front, last, rfl⟩
  · refine ⟨⟨by simp [mergeRange], by simpa [mergeRange] using inhabits⟩, ?_, fun index => ?_⟩
    · simp [mergeRange]
    · simp [mergeRange]
  · have lastEnds : last.stop ≤ item.start := ends last (by simp)
    have lastInhabits := separated.inhabits last (by simp)
    have ordered := List.pairwise_append.mp separated.ordered
    unfold mergeRange
    rw [List.getLast?_concat]
    dsimp only
    split_ifs with touches
    · rw [List.dropLast_concat]
      refine ⟨⟨?_, ?_⟩, by simp, fun index => ?_⟩
      · refine List.pairwise_append.mpr ⟨ordered.1, by simp, ?_⟩
        intro range isMember merged isMerged
        rw [List.mem_singleton.mp isMerged]
        exact ordered.2.2 range isMember last (by simp)
      · intro range isMember
        rcases List.mem_append.mp isMember with inFront | isMerged
        · exact separated.inhabits range (List.mem_append_left _ inFront)
        · rw [List.mem_singleton.mp isMerged]
          exact ⟨lastInhabits.1.trans (touches ▸ inhabits.1), inhabits.2⟩
      · have split :
            last.start ≤ index ∧ index < item.stop ↔
              (last.start ≤ index ∧ index < last.stop) ∨
                (item.start ≤ index ∧ index < item.stop) := by
          have := lastInhabits.1
          have := inhabits.1
          omega
        simp only [covers_append, covers_cons, covers_nil, or_false, Range.Contains, split,
          or_assoc]
    · refine ⟨⟨?_, ?_⟩, by simp, by simp [or_assoc]⟩
      · refine List.pairwise_append.mpr ⟨separated.ordered, by simp, ?_⟩
        intro range isMember next isNext
        rw [List.mem_singleton.mp isNext]
        have gap : last.stop < item.start := lt_of_le_of_ne lastEnds touches
        rcases List.mem_append.mp isMember with inFront | isLast
        · have before := ordered.2.2 range inFront last (by simp)
          exact (before.trans lastInhabits.1).trans gap
        · rwa [List.mem_singleton.mp isLast]
      · intro range isMember
        rcases List.mem_append.mp isMember with inRes | isNext
        · exact separated.inhabits range inRes
        · rwa [List.mem_singleton.mp isNext]

theorem foldl_mergeRange
    (ordered : items.Pairwise fun left right => left.stop ≤ right.start)
    (inhabits : ∀ item ∈ items, Inhabits length item)
    (separated : Separated length res)
    (ends : ∀ item ∈ items, EndsBefore res item) :
    Separated length (items.foldl mergeRange res) ∧
      ∀ index, Covers (items.foldl mergeRange res) index ↔
        Covers res index ∨ Covers items index := by
  induction items generalizing res with
  | nil =>
      exact ⟨separated, by simp⟩
  | cons item items ih =>
      obtain ⟨isBefore, restOrdered⟩ := List.pairwise_cons.mp ordered
      obtain ⟨merged, lastStop, covers⟩ :=
        mergeRange_spec separated (inhabits item (by simp)) (ends item (by simp))
      have reached :=
        ih restOrdered (fun next isNext => inhabits next (by simp [isNext]))
          merged fun next isNext last isLast =>
            (lastStop last isLast).le.trans (isBefore next isNext)
      refine ⟨reached.1, fun index => (reached.2 index).trans ?_⟩
      rw [covers index, covers_cons, or_assoc]

theorem merge_sorted
    {okRanges : List Range}
    (apart : okRanges.Pairwise Apart)
    (inhabits : ∀ range ∈ okRanges, Inhabits length range) :
    Separated length (mergeRanges (sortedRanges okRanges)) ∧
      ∀ index, Covers (mergeRanges (sortedRanges okRanges)) index ↔ Covers okRanges index := by
  have perm : (sortedRanges okRanges).Perm okRanges :=
    (List.reverse_perm _).trans (List.mergeSort_perm _ _)
  have byStart :
      (sortedRanges okRanges).Pairwise fun left right => left.start ≤ right.start := by
    have sorted :=
      @List.pairwise_mergeSort Range (fun left right => decide (right.start ≤ left.start))
        (fun _ _ _ first second => by
          rw [decide_eq_true_eq] at first second ⊢
          exact second.trans first)
        (fun left right => by
          simpa using Nat.le_total right.start left.start)
        okRanges
    simpa [sortedRanges, List.pairwise_reverse] using sorted
  have sortedInhabits :
      ∀ range ∈ sortedRanges okRanges, Inhabits length range :=
    fun range isMember => inhabits range (perm.mem_iff.mp isMember)
  have ordered :
      (sortedRanges okRanges).Pairwise fun left right => left.stop ≤ right.start := by
    have both :=
      byStart.and (perm.symm.pairwise apart fun apart => apart_comm apart)
    refine both.imp_of_mem fun {left right} isLeft isRight together => ?_
    rcases together.2 with before | behind
    · exact before
    · have := (sortedInhabits right isRight).1
      have := together.1
      omega
  obtain ⟨separated, covers⟩ :=
    foldl_mergeRange ordered sortedInhabits ⟨.nil, by simp⟩ (by simp [EndsBefore])
  refine ⟨separated, fun index => (covers index).trans ?_⟩
  rw [covers_perm perm]
  simp

end

/-- `BinaryHeap<Bigger>`: of several ranges of the greatest length, any may be popped. -/
structure Heap where
  pop : List Range → Option (Range × List Range)
  perm :
    ∀ {ranges range rest},
      pop ranges = some (range, rest) → (range :: rest).Perm ranges
  greatest :
    ∀ {ranges range rest},
      pop ranges = some (range, rest) → ∀ other ∈ ranges, other.len ≤ range.len
  empty : ∀ {ranges}, pop ranges = none → ranges = []

/-- `TaintMetadata`. -/
structure TaintMetadata where
  inputVec : List UInt8
  ranges : List Range
  deriving Repr, DecidableEq

/-- The state of the fuzzer, as far as the stage reads and writes it. -/
structure Coloring (World : Type) where
  machine : Machine World
  corpus : InMemoryCorpus (List UInt8)
  taint : Option TaintMetadata

/-- The input that is colored, the ranges to be tried and those that were safe. -/
structure Colors where
  input : List UInt8
  ranges : List Range
  okRanges : List Range

section

variable {World Value : Type}

/-- What concerns the target and the fuzzer only. -/
def onMachine (stage : Execution.Stage World Value) : Mutation (Coloring World) Value :=
  ExceptT.mk fun now =>
    ((stage.outcome now.own.machine).1.mapError .error,
      { now with own := { now.own with machine := (stage.outcome now.own.machine).2 } })

variable (heap : Heap)
variable (executor : Executor (List UInt8) World)

/-- `get_raw_map_hash_run`. -/
def getRawMapHashRun (input : List UInt8) : Mutation (Coloring World) Nat :=
  onMachine (Execution.getRawMapHashRun executor input)

/-- A range that was popped is safe, or it is separated. -/
def tryRange
    (backup changed : List UInt8)
    (origHash : Nat)
    (range : Range)
    (colors : Colors) : Mutation (Coloring World) Colors := do
  let input ← unwrap (bufferCopy colors.input changed range.start range.start range.len)
  let changedHash ← getRawMapHashRun executor input
  if origHash = changedHash then
    pure { colors with input := input, okRanges := range :: colors.okRanges }
  else
    let input ← unwrap (bufferCopy input backup range.start range.start range.len)
    if 1 < range.len then
      let middle := range.start + range.len / 2
      pure { colors with
        input := input
        ranges := ⟨middle, range.stop⟩ :: ⟨range.start, middle⟩ :: colors.ranges }
    else pure { colors with input := input }

/-- The loop, with the turns that are left. -/
def separate
    (backup changed : List UInt8)
    (origHash : Nat) :
    Nat → Colors → Mutation (Coloring World) Colors
  | 0, colors => pure colors
  | left + 1, colors =>
      match heap.pop colors.ranges with
      | none => pure colors
      | some (range, ranges) => do
          let colors ← tryRange executor backup changed origHash range
            { colors with ranges := ranges }
          separate backup changed origHash left colors

/-- `ColorizationStage::colorize`. -/
def colorize (corpusIdx : CorpusId) : Mutation (Coloring World) (List UInt8) := do
  let backup ← attempt ((← own).corpus.get corpusIdx)
  let origHash ← getRawMapHashRun executor backup
  let changed ← typeReplace backup
  let colors ← separate heap executor backup changed origHash (backup.length * 2)
    { input := backup, ranges := [⟨0, backup.length⟩], okRanges := [] }
  let res := mergeRanges (sortedRanges colors.okRanges)
  change fun now => { now with taint := some { inputVec := colors.input, ranges := res } }
  pure colors.input

end

section

variable {original changed input : List UInt8}
variable {chosen : Nat → Prop}
variable {range : Range}

/-- The input with its replacement at the positions that are chosen. -/
structure Colored
    (original changed : List UInt8)
    (chosen : Nat → Prop)
    (input : List UInt8) : Prop where
  length : input.length = original.length
  inside : ∀ index, chosen index → input[index]? = changed[index]?
  outside : ∀ index, ¬chosen index → input[index]? = original[index]?

theorem exists_copied
    {dst src : List UInt8}
    (sameLength : dst.length = src.length)
    (inhabits : Inhabits dst.length range) :
    ∃ copied, bufferCopy dst src range.start range.start range.len = some copied ∧
      copied.length = dst.length ∧
      (∀ index, range.Contains index → copied[index]? = src[index]?) ∧
      ∀ index, ¬range.Contains index → copied[index]? = dst[index]? := by
  obtain ⟨nonempty, isWithin⟩ := inhabits
  have ends : range.start + range.len = range.stop := by
    unfold Range.len
    omega
  have length : ((src.drop range.start).take range.len).length = range.len := by
    rw [List.length_take, List.length_drop]
    omega
  have someDst : dst ≠ [] := List.ne_nil_of_length_pos (by omega)
  have someSrc : src ≠ [] := List.ne_nil_of_length_pos (by omega)
  refine ⟨_, if_pos ⟨someDst, someSrc, by omega, by omega⟩, length_overwrite (by omega), ?_, ?_⟩
  · rintro index ⟨first, last⟩
    rw [overwrite, List.append_assoc, List.getElem?_append_right (by simp; omega),
      List.getElem?_append_left (by simp; omega), List.getElem?_take_of_lt (by simp; omega),
      List.getElem?_drop]
    congr 1
    simp
    omega
  · intro index outside
    rw [overwrite, length, ends, List.append_assoc]
    rcases Nat.lt_or_ge index range.start with before | behind
    · rw [List.getElem?_append_left (by simp; omega), List.getElem?_take_of_lt before]
    · have past : range.stop ≤ index := Nat.le_of_not_lt fun below => outside ⟨behind, below⟩
      rw [List.getElem?_append_right (by simp; omega),
        List.getElem?_append_right (by simp; omega), List.getElem?_drop]
      congr 1
      simp
      omega

theorem Colored.replace
    (colored : Colored original changed chosen input)
    (sameLength : changed.length = original.length)
    (inhabits : Inhabits original.length range) :
    ∃ copied, bufferCopy input changed range.start range.start range.len = some copied ∧
      Colored original changed (fun index => chosen index ∨ range.Contains index) copied := by
  obtain ⟨copied, isCopied, length, inside, outside⟩ :=
    exists_copied (colored.length.trans sameLength.symm) (colored.length ▸ inhabits)
  refine ⟨copied, isCopied, ⟨length.trans colored.length, fun index isChosen => ?_, ?_⟩⟩
  · by_cases contains : range.Contains index
    · exact inside index contains
    · rw [outside index contains, colored.inside index (isChosen.resolve_right contains)]
  · intro index notChosen
    rw [not_or] at notChosen
    rw [outside index notChosen.2, colored.outside index notChosen.1]

theorem Colored.revert
    (colored : Colored original changed (fun index => chosen index ∨ range.Contains index) input)
    (apart : ∀ index, range.Contains index → ¬chosen index)
    (inhabits : Inhabits original.length range) :
    ∃ copied, bufferCopy input original range.start range.start range.len = some copied ∧
      Colored original changed chosen copied := by
  obtain ⟨copied, isCopied, length, inside, outside⟩ :=
    exists_copied colored.length (colored.length ▸ inhabits)
  refine ⟨copied, isCopied, ⟨length.trans colored.length, fun index isChosen => ?_, ?_⟩⟩
  · rw [outside index fun contains => apart index contains isChosen,
      colored.inside index (.inl isChosen)]
  · intro index notChosen
    by_cases contains : range.Contains index
    · exact inside index contains
    · rw [outside index contains, colored.outside index (not_or.mpr ⟨notChosen, contains⟩)]

theorem Colored.unique
    {other : List UInt8}
    (colored : Colored original changed chosen input)
    (another : Colored original changed chosen other) :
    input = other := by
  refine List.ext_getElem? fun index => ?_
  by_cases isChosen : chosen index
  · rw [colored.inside index isChosen, another.inside index isChosen]
  · rw [colored.outside index isChosen, another.outside index isChosen]

theorem Colored.of_iff
    {others : Nat → Prop}
    (colored : Colored original changed chosen input)
    (same : ∀ index, chosen index ↔ others index) :
    Colored original changed others input := by
  obtain rfl : chosen = others := funext fun index => propext (same index)
  exact colored

end

section

variable (mapHash : List UInt8 → Nat)
variable (original changed : List UInt8)

/-- Replacing this byte, after others that are safe, was what changed the map. -/
def Tainted (safe : Nat → Prop) (index : Nat) : Prop :=
  ∃ chosen : Nat → Prop, (∀ position, chosen position → safe position) ∧
    ∃ before tried, Colored original changed chosen before ∧
      Colored original changed (fun position => chosen position ∨ position = index) tried ∧
      mapHash before = mapHash original ∧ mapHash tried ≠ mapHash original

/-- The ranges are apart, and every byte is in one of them or tainted. -/
structure Separates (left : Nat) (colors : Colors) : Prop where
  apart : (colors.ranges ++ colors.okRanges).Pairwise Apart
  inhabits : ∀ range ∈ colors.ranges ++ colors.okRanges, Inhabits original.length range
  colored : Colored original changed (Covers colors.okRanges) colors.input
  same : mapHash colors.input = mapHash original
  tried :
    ∀ index < original.length,
      Covers (colors.ranges ++ colors.okRanges) index ∨
        Tainted mapHash original changed (Covers colors.okRanges) index
  budget : (colors.ranges.map fun range => 2 * range.len - 1).sum ≤ left

variable {mapHash original changed}
variable {left : Nat}
variable {input : List UInt8}
variable {range : Range}
variable {ranges okRanges : List Range}

theorem Tainted.mono
    {safe safer : Nat → Prop}
    {index : Nat}
    (tainted : Tainted mapHash original changed safe index)
    (weaker : ∀ position, safe position → safer position) :
    Tainted mapHash original changed safer index := by
  obtain ⟨chosen, isSafe, tried⟩ := tainted
  exact ⟨chosen, fun position isChosen => weaker position (isSafe position isChosen), tried⟩

theorem Separates.perm
    {colors : Colors}
    {others : List Range}
    (separates : Separates mapHash original changed left colors)
    (perm : others.Perm colors.ranges) :
    Separates mapHash original changed left ⟨colors.input, others, colors.okRanges⟩ := by
  have all : (others ++ colors.okRanges).Perm (colors.ranges ++ colors.okRanges) :=
    perm.append_right _
  refine ⟨?_, ?_, separates.colored, separates.same, ?_, ?_⟩
  · exact all.symm.pairwise separates.apart fun apart => apart_comm apart
  · exact fun other isMember => separates.inhabits other (all.mem_iff.mp isMember)
  · exact fun index isIndex => (separates.tried index isIndex).imp_left (covers_perm all).mpr
  · exact (perm.map _).sum_eq.trans_le separates.budget

namespace Separates

variable (separates : Separates mapHash original changed (left + 1)
  ⟨input, range :: ranges, okRanges⟩)

include separates

theorem safe
    {copied : List UInt8}
    (colored :
      Colored original changed (fun index => Covers okRanges index ∨ range.Contains index) copied)
    (same : mapHash copied = mapHash original) :
    Separates mapHash original changed left ⟨copied, ranges, range :: okRanges⟩ := by
  have all : (ranges ++ range :: okRanges).Perm (range :: ranges ++ okRanges) :=
    List.perm_middle
  refine ⟨?_, ?_, ?_, same, fun index isIndex => ?_, ?_⟩
  · exact all.symm.pairwise separates.apart fun apart => apart_comm apart
  · exact fun other isMember => separates.inhabits other (all.mem_iff.mp isMember)
  · exact colored.of_iff fun index => by rw [covers_cons, or_comm]
  · rcases separates.tried index isIndex with covers | tainted
    · exact .inl ((covers_perm all).mpr covers)
    · exact .inr (tainted.mono fun _ covers => covers_cons.mpr (.inr covers))
  · have positive := (separates.inhabits range (by simp)).1
    have budget := separates.budget
    rw [List.map_cons, List.sum_cons, Range.len] at budget
    dsimp only
    omega

theorem halve
    {copied : List UInt8}
    {middle : Nat}
    (colored : Colored original changed (Covers okRanges) copied)
    (same : mapHash copied = mapHash original)
    (isMiddle : range.start < middle ∧ middle < range.stop) :
    Separates mapHash original changed left
      ⟨copied, ⟨middle, range.stop⟩ :: ⟨range.start, middle⟩ :: ranges, okRanges⟩ := by
  obtain ⟨above, below⟩ := isMiddle
  obtain ⟨apart, rest⟩ := List.pairwise_cons.mp separates.apart
  have isWithin := (separates.inhabits range (by simp)).2
  refine ⟨?_, ?_, colored, same, fun index isIndex => ?_, ?_⟩
  · refine List.pairwise_cons.mpr ⟨?_, List.pairwise_cons.mpr ⟨?_, rest⟩⟩
    · rintro other isMember
      rcases List.mem_cons.mp isMember with rfl | isOther
      · exact .inr le_rfl
      · exact (apart other isOther).imp id fun before => before.trans above.le
    · rintro other isOther
      exact (apart other isOther).imp (fun before => below.le.trans before) id
  · rintro other isMember
    rcases List.mem_cons.mp isMember with rfl | isMember
    · exact ⟨below, isWithin⟩
    · rcases List.mem_cons.mp isMember with rfl | isOther
      · exact ⟨above, below.le.trans isWithin⟩
      · exact separates.inhabits other (List.mem_cons_of_mem _ isOther)
  · refine (separates.tried index isIndex).imp_left fun covers => ?_
    rcases covers_cons.mp covers with contains | covers
    · rcases Nat.lt_or_ge index middle with inFirst | inSecond
      · exact covers_cons.mpr (.inr (covers_cons.mpr (.inl ⟨contains.1, inFirst⟩)))
      · exact covers_cons.mpr (.inl ⟨inSecond, contains.2⟩)
    · exact covers_cons.mpr (.inr (covers_cons.mpr (.inr covers)))
  · have budget := separates.budget
    rw [List.map_cons, List.sum_cons, Range.len] at budget
    rw [List.map_cons, List.sum_cons, List.map_cons, List.sum_cons, Range.len, Range.len]
    dsimp only
    omega

theorem taint
    {copied : List UInt8}
    (colored : Colored original changed (Covers okRanges) copied)
    (same : mapHash copied = mapHash original)
    (tainted :
      ∀ index, range.Contains index →
        Tainted mapHash original changed (Covers okRanges) index) :
    Separates mapHash original changed left ⟨copied, ranges, okRanges⟩ := by
  refine ⟨(List.pairwise_cons.mp separates.apart).2, ?_, colored, same, ?_, ?_⟩
  · exact fun other isMember => separates.inhabits other (List.mem_cons_of_mem _ isMember)
  · intro index isIndex
    rcases separates.tried index isIndex with covers | isTainted
    · exact (covers_cons.mp covers).elim (fun contains => .inr (tainted index contains)) .inl
    · exact .inr isTainted
  · have positive := (separates.inhabits range (by simp)).1
    have budget := separates.budget
    rw [List.map_cons, List.sum_cons, Range.len] at budget
    dsimp only
    omega

end Separates

variable {World : Type}
variable {executor : Executor (List UInt8) World}
variable {heap : Heap}

/-- The map that the target shows only depends on the input. -/
def Deterministic
    (executor : Executor (List UInt8) World)
    (mapHash : List UInt8 → Nat) : Prop :=
  ∀ input machine hash next,
    (Execution.getRawMapHashRun executor input).outcome machine = (.ok hash, next) →
    hash = mapHash input

/-- Only the target fails, or nothing more is drawn; the metadata is not written then. -/
def Fails
    (taint : Option TaintMetadata)
    (failure : Failure)
    (now : Coloring World) : Prop :=
  failure.IsOrderly ∧ now.taint = taint

variable {taint : Option TaintMetadata}

theorem getRawMapHashRun_meets
    (deterministic : Deterministic executor mapHash)
    (input : List UInt8) :
    Meets (fun now => now.taint = taint) (getRawMapHashRun executor input)
      (fun hash now => hash = mapHash input ∧ now.taint = taint) (Fails taint) := by
  refine .of_outcome fun now same => ?_
  have isOutcome :
      outcome (getRawMapHashRun executor input) now =
        (((Execution.getRawMapHashRun executor input).outcome now.own.machine).1.mapError .error,
          { now with own := { now.own with
              machine :=
                ((Execution.getRawMapHashRun executor input).outcome now.own.machine).2 } }) :=
    rfl
  cases told : (Execution.getRawMapHashRun executor input).outcome now.own.machine with
  | mk answer machine =>
      rw [told] at isOutcome
      cases answer with
      | ok hash =>
          exact .inl ⟨hash, _, isOutcome, deterministic input _ hash machine told, same⟩
      | error error =>
          exact .inr ⟨.error error, _, isOutcome, isOrderly_error, same⟩

theorem tryRange_meets
    (deterministic : Deterministic executor mapHash)
    (sameLength : changed.length = original.length)
    (separates :
      Separates mapHash original changed (left + 1) ⟨input, range :: ranges, okRanges⟩) :
    Meets (fun now => now.taint = taint)
      (tryRange executor original changed (mapHash original) range ⟨input, ranges, okRanges⟩)
      (fun colors now =>
        Separates mapHash original changed left colors ∧ now.taint = taint)
      (Fails taint) := by
  have inhabits := separates.inhabits range (by simp)
  obtain ⟨copied, isCopied, colored⟩ := separates.colored.replace sameLength inhabits
  have apart : ∀ index, range.Contains index → ¬Covers okRanges index := fun index contains =>
    not_covers
      (fun other isOther =>
        (List.pairwise_cons.mp separates.apart).1 other (List.mem_append_right _ isOther))
      contains
  unfold tryRange
  rw [isCopied, unwrap_some, pure_bind]
  refine (getRawMapHashRun_meets deterministic copied).bind fun hash => .of_fact ?_
  rintro rfl
  by_cases same : mapHash original = mapHash copied
  · rw [if_pos same]
    exact .pure fun _ untouched => ⟨separates.safe colored same.symm, untouched⟩
  · obtain ⟨reverted, isReverted, back⟩ := colored.revert apart inhabits
    obtain rfl := back.unique separates.colored
    rw [if_neg same, isReverted, unwrap_some, pure_bind]
    split_ifs with wide
    · have isMiddle :
          range.start < range.start + range.len / 2 ∧ range.start + range.len / 2 < range.stop := by
        unfold Range.len at wide ⊢
        omega
      exact .pure fun _ untouched => ⟨separates.halve back separates.same isMiddle, untouched⟩
    · refine .pure fun _ untouched =>
        ⟨separates.taint back separates.same fun index contains => ?_, untouched⟩
      refine ⟨Covers okRanges, fun _ => id, _, copied, back, ?_, separates.same, Ne.symm same⟩
      refine colored.of_iff fun position => or_congr_right ?_
      unfold Range.Contains at contains ⊢
      unfold Range.len at wide
      omega

theorem separate_meets
    (deterministic : Deterministic executor mapHash)
    (sameLength : changed.length = original.length)
    {colors : Colors}
    (separates : Separates mapHash original changed left colors) :
    Meets (fun now => now.taint = taint)
      (separate heap executor original changed (mapHash original) left colors)
      (fun colors now =>
        Separates mapHash original changed 0 ⟨colors.input, [], colors.okRanges⟩ ∧
          now.taint = taint)
      (Fails taint) := by
  induction left generalizing colors with
  | zero =>
      refine .pure fun _ untouched => ⟨?_, untouched⟩
      cases isRanges : colors.ranges with
      | nil =>
          exact separates.perm (.of_eq isRanges.symm)
      | cons range ranges =>
          have budget := separates.budget
          have inhabits := separates.inhabits range (by simp [isRanges])
          rw [isRanges, List.map_cons, List.sum_cons, Range.len] at budget
          unfold Inhabits at inhabits
          omega
  | succ left ih =>
      unfold separate
      cases popped : heap.pop colors.ranges with
      | none =>
          have finished := separates.perm (.of_eq (heap.empty popped).symm)
          exact .pure fun _ untouched => ⟨{ finished with budget := le_rfl }, untouched⟩
      | some result =>
          obtain ⟨range, ranges⟩ := result
          have ordered :
              Separates mapHash original changed (left + 1)
                ⟨colors.input, range :: ranges, colors.okRanges⟩ :=
            separates.perm (heap.perm popped)
          exact (tryRange_meets deterministic sameLength ordered).bind fun next =>
            .of_fact fun nextSeparates => ih nextSeparates

/-- `type_replace` can give these bytes. -/
def TypeReplaced (World : Type) (original changed : List UInt8) : Prop :=
  ∃ now next : Drawing (Coloring World), (typeReplace original).outcome now = (.ok changed, next)

theorem replaceByte_meets
    {byte : UInt8} :
    Meets (fun now : Coloring World => now.taint = taint) (replaceByte byte)
      (fun _ now => now.taint = taint) (Fails taint) := by
  unfold replaceByte
  cases drawnClass byte with
  | none =>
      exact .pure fun _ untouched => untouched
  | some found =>
      refine .bind (.below (fun _ _ untouched _ => untouched) ?_) fun _ => .pure fun _ => id
      exact fun _ untouched => ⟨isOrderly_starved, untouched⟩

theorem typeReplace_meets
    {original : List UInt8} :
    Meets (fun now : Coloring World => now.taint = taint) (typeReplace original)
      (fun changed now => TypeReplaced World original changed ∧ now.taint = taint)
      (Fails taint) := by
  have keeps :
      Meets (fun now : Coloring World => now.taint = taint) (typeReplace original)
        (fun _ now => now.taint = taint) (Fails taint) := by
    unfold typeReplace
    induction original with
    | nil =>
        exact .pure fun _ untouched => untouched
    | cons byte bytes ih =>
        rw [List.mapM_cons]
        exact replaceByte_meets.bind fun _ => ih.bind fun _ =>
          .pure fun _ untouched => untouched
  intro now untouched
  have kept := keeps now untouched
  cases returned : (typeReplace original).outcome now with
  | mk result next =>
      rw [returned] at kept
      cases result with
      | ok changed =>
          exact ⟨⟨now, next, returned⟩, kept⟩
      | error failure =>
          exact kept

theorem separates_start
    (some : original ≠ []) :
    Separates mapHash original changed (original.length * 2)
      ⟨original, [⟨0, original.length⟩], []⟩ where
  apart := List.pairwise_singleton _ _
  inhabits := by simpa [Inhabits] using List.length_pos_iff.mpr some
  colored := ⟨rfl, fun _ covers => absurd covers covers_nil, fun _ _ => rfl⟩
  same := rfl
  tried index isIndex := .inl (covers_cons.mpr (.inl ⟨Nat.zero_le index, isIndex⟩))
  budget := by
    simp [Range.len]
    omega

theorem separate_from_start
    (deterministic : Deterministic executor mapHash)
    (sameLength : changed.length = original.length) :
    Meets (fun now => now.taint = taint)
      (separate heap executor original changed (mapHash original) (original.length * 2)
        ⟨original, [⟨0, original.length⟩], []⟩)
      (fun colors now =>
        Separates mapHash original changed 0 ⟨colors.input, [], colors.okRanges⟩ ∧
          now.taint = taint)
      (Fails taint) := by
  by_cases some : original = []
  · subst some
    refine .pure fun _ untouched =>
      ⟨⟨List.Pairwise.nil, by simp, ?_, rfl, by simp, le_rfl⟩, untouched⟩
    exact ⟨rfl, fun _ covers => absurd covers covers_nil, fun _ _ => rfl⟩
  · exact separate_meets deterministic sameLength (separates_start some)

/-- What the stage records of an entry. -/
structure Records
    (mapHash : List UInt8 → Nat)
    (original changed input : List UInt8)
    (ranges : List Range) : Prop where
  separated : Separated original.length ranges
  colored : Colored original changed (Covers ranges) input
  same : mapHash input = mapHash original
  tainted :
    ∀ index < original.length, ¬Covers ranges index →
      Tainted mapHash original changed (Covers ranges) index

theorem colorize_meets
    (heap : Heap)
    (deterministic : Deterministic executor mapHash)
    (corpusIdx : CorpusId)
    (start : Coloring World) :
    Meets (· = start) (colorize heap executor corpusIdx)
      (fun input next => ∃ original changed ranges,
        start.corpus.get corpusIdx = .ok original ∧ TypeReplaced World original changed ∧
          next.taint = some ⟨input, ranges⟩ ∧ Records mapHash original changed input ranges)
      (Fails start.taint) := by
  refine .bind_own ?_
  cases isEntry : start.corpus.get corpusIdx with
  | error error =>
      exact Meets.bind_attempt_error rfl ⟨isOrderly_error, rfl⟩
  | ok original =>
      refine Meets.bind_attempt rfl ?_
      have untouched : ∀ now, now = start → now.taint = start.taint := fun _ same => same ▸ rfl
      refine Meets.weaken ?_ untouched (fun _ _ reached => reached) fun _ _ fails => fails
      refine (getRawMapHashRun_meets deterministic original).bind fun hash => .of_fact ?_
      rintro rfl
      refine typeReplace_meets.bind fun changed => .of_fact fun replaced => ?_
      obtain ⟨_, _, returned⟩ := id replaced
      refine (separate_from_start deterministic (typeReplace_length returned)).bind
        fun colors => .of_fact fun finished => ?_
      let ranges := mergeRanges (sortedRanges colors.okRanges)
      obtain ⟨separated, covers⟩ :
          Separated original.length ranges ∧
            ∀ index, Covers ranges index ↔ Covers colors.okRanges index :=
        merge_sorted finished.apart finished.inhabits
      have records : Records mapHash original changed colors.input ranges := by
        refine ⟨separated, ?_, finished.same, fun index isIndex notCovered => ?_⟩
        · exact finished.colored.of_iff fun index => (covers index).symm
        · rw [covers index] at notCovered
          have tainted := (finished.tried index isIndex).resolve_left notCovered
          exact tainted.mono fun position => (covers position).mpr
      have recorded :
          Meets (fun now => now.taint = start.taint)
            (change fun now : Coloring World => { now with taint := some ⟨colors.input, ranges⟩ })
            (fun _ now => now.taint = some ⟨colors.input, ranges⟩) (Fails start.taint) :=
        .change fun _ _ => rfl
      exact recorded.bind fun _ => .pure fun now isNow =>
        ⟨original, changed, ranges, rfl, replaced, isNow, records⟩

/--
The stage records ranges in order with gaps between them, and an input that has its
replacement in them, is the original elsewhere and shows the same map.  Each other byte
was what changed the map when it was tried.  Where the stage fails it records nothing.
-/
theorem colorize_records_taint
    (heap : Heap)
    (deterministic : Deterministic executor mapHash)
    (corpusIdx : CorpusId)
    (draws : List Nat)
    (start : Coloring World) :
    match outcome (colorize heap executor corpusIdx) ⟨draws, start⟩ with
    | (.ok input, next) =>
        ∃ original changed ranges,
          start.corpus.get corpusIdx = .ok original ∧ TypeReplaced World original changed ∧
            next.own.taint = some ⟨input, ranges⟩ ∧
            Records mapHash original changed input ranges
    | (.error failure, next) => failure.IsOrderly ∧ next.own.taint = start.taint := by
  have reached := colorize_meets heap deterministic corpusIdx start ⟨draws, start⟩ rfl
  generalize outcome (colorize heap executor corpusIdx) ⟨draws, start⟩ = result at reached ⊢
  obtain ⟨result, next⟩ := result
  cases result <;> exact reached

end

/-- A heap that pops the first of the longest ranges. -/
def Heap.firstLongest : Heap where
  pop ranges := (ranges.argmax Range.len).map fun range => (range, ranges.erase range)
  perm popped := by
    obtain ⟨range, isLongest, same⟩ := Option.map_eq_some_iff.mp popped
    cases same
    exact (List.perm_cons_erase (List.argmax_mem isLongest)).symm
  greatest popped other isMember := by
    obtain ⟨range, isLongest, same⟩ := Option.map_eq_some_iff.mp popped
    cases same
    exact List.le_of_mem_argmax isMember isLongest
  empty popped := List.argmax_eq_none.mp (Option.map_eq_none_iff.mp popped)

/-- The first byte of the input is the map. -/
def firstByte : Executor (List UInt8) Nat where
  preExecAll _ := pure ()
  runTarget input := do
    set (input.headD 0).toNat
    pure .ok
  postExecAll _ _ := pure ()
  mapHash := get
  howManySet _ := pure 0

/-- An entry of two digits. -/
def twoDigits : Coloring Nat where
  machine := ⟨0, 0, 0⟩
  corpus := (InMemoryCorpus.new.add [0x30, 0x31]).2
  taint := none

theorem deterministic_firstByte :
    Deterministic firstByte fun input => (input.headD 0).toNat := by
  rintro input machine hash next returned
  cases returned
  rfl

theorem colorize_records_taint_two_digits :
    (outcome (colorize .firstLongest firstByte 0) ⟨[], twoDigits⟩).2.own.taint =
        some ⟨[0x30, 0x30], [⟨1, 2⟩]⟩ ∧
      match outcome (colorize .firstLongest firstByte 0) ⟨[], twoDigits⟩ with
      | (.ok input, next) =>
          ∃ original changed ranges,
            twoDigits.corpus.get 0 = .ok original ∧ TypeReplaced Nat original changed ∧
              next.own.taint = some ⟨input, ranges⟩ ∧
              Records (fun input => (input.headD 0).toNat) original changed input ranges
      | (.error failure, next) => failure.IsOrderly ∧ next.own.taint = twoDigits.taint :=
  ⟨by decide +kernel, colorize_records_taint .firstLongest deterministic_firstByte 0 [] twoDigits⟩

end MeFuzz.Colorization
