import MeFuzz.ByteStream
import MeFuzz.MutatorDraws

namespace MeFuzz.Mutators

open Procedure

/-!
# Ranges of an input

The operations on vectors that mutators use, and the ranges that they draw.  A
range is drawn by its length and an offset.  The offset may stand for a range
that reaches over either end of the input; the range is then cut, so that every
index is in the range for the same number of offsets.
-/

/-- `Range<usize>`; `stop` is `end`. -/
structure Range where
  start : Nat
  stop : Nat
  deriving Repr, DecidableEq

namespace Range

/-- `Range::len`. -/
def len (range : Range) : Nat :=
  range.stop - range.start

/-- `Range::is_empty`. -/
def isEmpty (range : Range) : Bool :=
  range.stop ≤ range.start

/-- `Range::contains`. -/
def Contains (range : Range) (index : Nat) : Prop :=
  range.start ≤ index ∧ index < range.stop

instance (range : Range) (index : Nat) : Decidable (range.Contains index) :=
  inferInstanceAs (Decidable (_ ∧ _))

/-- What a range of a sequence of some length must meet to be used. -/
def Fits (range : Range) (length : Nat) : Prop :=
  range.start ≤ range.stop ∧ range.stop ≤ length

instance (range : Range) (length : Nat) : Decidable (range.Fits length) :=
  inferInstanceAs (Decidable (_ ∧ _))

end Range

section

variable {Item : Type}

/-- `&items[range]`, which panics where the range does not fit. -/
def slice
    (items : List Item)
    (range : Range) : Option (List Item) :=
  if range.Fits items.length then
    some ((items.take range.stop).drop range.start)
  else none

/-- `Vec::splice`, which panics where the range does not fit. -/
def splice
    (items : List Item)
    (range : Range)
    (replaceWith : List Item) : Option (List Item) :=
  if range.Fits items.length then
    some (items.take range.start ++ replaceWith ++ items.drop range.stop)
  else none

/-- `Vec::resize`. -/
def resize
    (items : List Item)
    (newLen : Nat)
    (value : Item) : List Item :=
  items.take newLen ++ List.replicate (newLen - items.length) value

/-- Items of one list over those of another from an index on. -/
def overwrite
    (items : List Item)
    (index : Nat)
    (written : List Item) : List Item :=
  items.take index ++ written ++ items.drop (index + written.length)

/-- `slice::copy_within`, which panics where a range does not fit. -/
def copyWithin
    (items : List Item)
    (range : Range)
    (dest : Nat) : Option (List Item) := do
  let copied ← slice items range
  if dest + copied.length ≤ items.length then some (overwrite items dest copied)
  else none

/-- `buffer_copy`, where its assertions hold. -/
def bufferCopy
    (dst src : List Item)
    (source target len : Nat) : Option (List Item) :=
  if dst ≠ [] ∧ src ≠ [] ∧ source + len ≤ src.length ∧ target + len ≤ dst.length then
    some (overwrite dst target ((src.drop source).take len))
  else none

/-- `buffer_self_copy`, where its assertions hold. -/
def bufferSelfCopy
    (data : List Item)
    (source target len : Nat) : Option (List Item) :=
  bufferCopy data data source target len

variable {items : List Item}
variable {range : Range}

/-- The range of a part of a list behind its front. -/
def Range.behind (front part : List Item) : Range :=
  { start := front.length, stop := front.length + part.length }

theorem fits_behind
    {front part back : List Item} :
    (Range.behind front part).Fits (front ++ part ++ back).length := by
  rw [List.length_append, List.length_append]
  exact ⟨Nat.le_add_right _ _, Nat.le_add_right _ _⟩

theorem slice_behind
    {front part back : List Item} :
    slice (front ++ part ++ back) (.behind front part) = some part := by
  rw [slice, if_pos fits_behind]
  change some (((front ++ part ++ back).take (front.length + part.length)).drop
    front.length) = _
  rw [← List.length_append, List.take_left, List.drop_left]

theorem splice_behind
    {front part back replaceWith : List Item} :
    splice (front ++ part ++ back) (.behind front part) replaceWith =
      some (front ++ replaceWith ++ back) := by
  rw [splice, if_pos fits_behind]
  change some ((front ++ part ++ back).take front.length ++ replaceWith ++
    (front ++ part ++ back).drop (front.length + part.length)) = _
  rw [← List.length_append, List.drop_left, List.append_assoc front part back,
    List.take_left]

end

/-- The input of a mutator, and its buffer. -/
structure Mutating (Item : Type) where
  input : List Item
  tmpBuf : List Item
  deriving DecidableEq

section

variable {Item : Type}

/-- The input. -/
def input : Mutation (Mutating Item) (List Item) := do
  pure (← own).input

/-- Another input. -/
def setInput (items : List Item) : Mutation (Mutating Item) Unit :=
  change fun now => { now with input := items }

/-- What is left in the buffer. -/
def setTmpBuf (items : List Item) : Mutation (Mutating Item) Unit :=
  change fun now => { now with tmpBuf := items }

/-- A range of the input is replaced. -/
def spliceInput
    (range : Range)
    (replaceWith : List Item) : Mutation (Mutating Item) Unit := do
  setInput (← unwrap (splice (← input) range replaceWith))

/-- `drain` of the input. -/
def drainInput (range : Range) : Mutation (Mutating Item) (List Item) := do
  let drained ← unwrap (slice (← input) range)
  spliceInput range []
  pure drained

variable {draws : List Nat}
variable {now : Mutating Item}
variable {items : List Item}

theorem outcome_input :
    outcome input ⟨draws, now⟩ = (.ok now.input, ⟨draws, now⟩) :=
  rfl

theorem outcome_setInput :
    outcome (setInput items) ⟨draws, now⟩ =
      (.ok (), ⟨draws, { now with input := items }⟩) :=
  rfl

theorem outcome_setTmpBuf :
    outcome (setTmpBuf items) ⟨draws, now⟩ =
      (.ok (), ⟨draws, { now with tmpBuf := items }⟩) :=
  rfl

end

/-- `usize::MAX`. -/
def usizeMax : Nat :=
  2 ^ 64 - 1

/-- `isize::MAX`, which no vector of bytes is longer than. -/
def isizeMax : Nat :=
  2 ^ 63 - 1

section

variable {Own : Type}

/-- A sum of two `usize`, which panics where it overflows. -/
def addUsize (left right : Nat) : Mutation Own Nat :=
  unwrap (if left + right ≤ usizeMax then some (left + right) else none)

/-- A difference of two `usize`, which panics where it overflows. -/
def subUsize (left right : Nat) : Mutation Own Nat :=
  unwrap (if right ≤ left then some (left - right) else none)

/-- A remainder, which panics where the divisor is zero. -/
def remUsize (dividend divisor : Nat) : Mutation Own Nat :=
  unwrap (if divisor = 0 then none else some (dividend % divisor))

/-- The range that an offset stands for. -/
def rangeAt (upper len offset2 : Nat) : Range :=
  { start := offset2 - len, stop := min offset2 upper }

/-- `rand_range`. -/
def randRange (upper maxLen : Nat) : Mutation Own Range := do
  let len := (← remUsize (← next) maxLen) + 1
  let offset2 ← remUsize (← next) (← addUsize upper len)
  pure (rangeAt upper len offset2)

end

section

variable {upper maxLen len offset2 index : Nat}

theorem rangeAt_fits
    (isBelow : offset2 < upper + len) :
    (rangeAt upper len offset2).Fits upper := by
  constructor
  · change offset2 - len ≤ min offset2 upper
    omega
  · exact Nat.min_le_right offset2 upper

theorem len_rangeAt_le :
    (rangeAt upper len offset2).len ≤ len := by
  change min offset2 upper - (offset2 - len) ≤ len
  omega

theorem contains_rangeAt_iff
    (isIndex : index < upper) :
    (rangeAt upper len offset2).Contains index ↔
      index < offset2 ∧ offset2 ≤ index + len := by
  change offset2 - len ≤ index ∧ index < min offset2 upper ↔ _
  omega

theorem card_offsets
    (isIndex : index < upper) :
    ((Finset.range (upper + len)).filter
      fun offset2 => (rangeAt upper len offset2).Contains index).card = len := by
  have offsets :
      (Finset.range (upper + len)).filter
          (fun offset2 => (rangeAt upper len offset2).Contains index) =
        Finset.Ioc index (index + len) := by
    ext offset2
    rw [Finset.mem_filter, Finset.mem_range, contains_rangeAt_iff isIndex,
      Finset.mem_Ioc]
    omega
  rw [offsets, Nat.card_Ioc]
  omega

variable {Own : Type}

theorem addUsize_of_fits
    {left right : Nat}
    (fits : left + right ≤ usizeMax) :
    (addUsize left right : Mutation Own Nat) = pure (left + right) := by
  rw [addUsize, if_pos fits]
  rfl

theorem remUsize_of_pos
    {dividend divisor : Nat}
    (positive : 0 < divisor) :
    (remUsize dividend divisor : Mutation Own Nat) =
      pure (dividend % divisor) := by
  rw [remUsize, if_neg (Nat.ne_of_gt positive)]
  rfl

/-- The range that two values give. -/
def drawnRange (upper maxLen first second : Nat) : Range :=
  rangeAt upper (first % maxLen + 1) (second % (upper + (first % maxLen + 1)))

theorem drawnRange_fits
    {first second : Nat} :
    (drawnRange upper maxLen first second).Fits upper :=
  rangeAt_fits (Nat.mod_lt _ (Nat.add_pos_right upper (Nat.succ_pos _)))

theorem len_drawnRange_le
    {first second : Nat}
    (positive : 0 < maxLen) :
    (drawnRange upper maxLen first second).len ≤ maxLen :=
  len_rangeAt_le.trans (Nat.mod_lt first positive)

theorem outcome_randRange
    {first second : Nat}
    {rest : List Nat}
    {own : Own}
    (positive : 0 < maxLen)
    (fits : upper + maxLen ≤ usizeMax) :
    outcome (randRange upper maxLen) ⟨first :: second :: rest, own⟩ =
      (.ok (drawnRange upper maxLen first second), ⟨rest, own⟩) := by
  have isShort : first % maxLen < maxLen := Nat.mod_lt _ positive
  have total : upper + (first % maxLen + 1) ≤ usizeMax := by omega
  have nonempty : 0 < upper + (first % maxLen + 1) :=
    Nat.add_pos_right upper (Nat.succ_pos _)
  unfold randRange
  rw [outcome_bind_ok outcome_next, remUsize_of_pos positive, pure_bind,
    outcome_bind_ok outcome_next, addUsize_of_fits total, pure_bind,
    remUsize_of_pos nonempty, pure_bind, outcome_pure, drawnRange]

/--
Any two values give a range within the input that is not too long.  For each
length, every index is in the range for the same number of offsets.
-/
theorem rand_range_is_uniform
    (positive : 0 < maxLen)
    (fits : upper + maxLen ≤ usizeMax) :
    (∀ (first second : Nat) (rest : List Nat) (own : Own),
      let len := first % maxLen + 1
      let offset2 := second % (upper + len)
      outcome (randRange upper maxLen) ⟨first :: second :: rest, own⟩ =
        (.ok (rangeAt upper len offset2), ⟨rest, own⟩) ∧
      (rangeAt upper len offset2).Fits upper ∧
      (rangeAt upper len offset2).len ≤ maxLen) ∧
    ∀ len, ∀ index < upper,
      ((Finset.range (upper + len)).filter
        fun offset2 => (rangeAt upper len offset2).Contains index).card = len := by
  constructor
  · intro first second rest own
    exact ⟨outcome_randRange positive fits, drawnRange_fits,
      len_drawnRange_le positive⟩
  · intro len index isIndex
    exact card_offsets isIndex

/-- A range of at most sixteen of ten bytes. -/
theorem rand_range_is_uniform_ten :
    outcome (randRange 10 16) ⟨[18, 11], ()⟩ =
        (.ok (rangeAt 10 3 11), ⟨[], ()⟩) ∧
      ((Finset.range 13).filter
        fun offset2 => (rangeAt 10 3 offset2).Contains 9).card = 3 := by
  have isUniform :=
    @rand_range_is_uniform 10 16 Unit (by decide) (by decide)
  exact ⟨(isUniform.1 18 11 [] ()).1, isUniform.2 3 9 (by decide)⟩

end

end MeFuzz.Mutators
