import MeFuzz.EncodedMutators

namespace MeFuzz.Mutators

open Procedure

/-!
# Mutators that neither panic nor grow too long

A mutator is followed from a known input and buffer.  What it does to them stays
in range, and the input that it leaves is no longer than it was or than the limit.
-/

section

variable {Item Value Result : Type}

@[simp] theorem length_resize
    (items : List Item)
    (newLen : Nat)
    (value : Item) :
    (resize items newLen value).length = newLen := by
  simp only [resize, List.length_append, List.length_take, List.length_replicate]
  omega

theorem length_overwrite
    {items written : List Item}
    {index : Nat}
    (fits : index + written.length ≤ items.length) :
    (overwrite items index written).length = items.length := by
  simp only [overwrite, List.length_append, List.length_take, List.length_drop]
  omega

theorem exists_bufferCopy
    {dst src : List Item}
    (source target len : Nat)
    (some : dst ≠ [] ∧ src ≠ [])
    (inSource : source + len ≤ src.length)
    (inTarget : target + len ≤ dst.length) :
    ∃ copied, bufferCopy dst src source target len = Option.some copied ∧
      copied.length = dst.length := by
  refine ⟨_, if_pos ⟨some.1, some.2, inSource, inTarget⟩, length_overwrite ?_⟩
  rw [List.length_take, List.length_drop]
  omega

/-- A failure that is neither a panic nor a loop without an end. -/
def Failure.IsOrderly (failure : Failure) : Prop :=
  failure ≠ .panicked ∧ failure ≠ .hangs

theorem isOrderly_starved : Failure.IsOrderly .starved :=
  ⟨by decide, by decide⟩

theorem isOrderly_error
    {error : Corpus.Error} :
    Failure.IsOrderly (.error error) :=
  ⟨Failure.noConfusion, Failure.noConfusion⟩

/-- From a state, the input that is left is not longer than a bound. -/
def BoundedFrom
    (bound : Nat)
    (start : Mutating Item)
    (mutation : Mutation (Mutating Item) Value) : Prop :=
  Meets (· = start) mutation (fun _ now => now.input.length ≤ bound)
    fun failure _ => failure.IsOrderly

/-- The mutator neither panics nor makes an input longer than it was or may be. -/
def Bounded
    (maxSize : Nat)
    (mutation : Mutation (Mutating Item) Value) : Prop :=
  ∀ start, BoundedFrom (max start.input.length maxSize) start mutation

namespace BoundedFrom

variable {bound : Nat}
variable {start : Mutating Item}

theorem pure
    {value : Value}
    (short : start.input.length ≤ bound) :
    BoundedFrom bound start (Pure.pure value) :=
  Meets.pure fun _ isStart => isStart ▸ short

theorem bind_input
    {rest : List Item → Mutation (Mutating Item) Value}
    (later : BoundedFrom bound start (rest start.input)) :
    BoundedFrom bound start (input >>= rest) := by
  unfold input
  rw [bind_assoc]
  exact Meets.bind_own later

theorem bind_own
    {rest : Mutating Item → Mutation (Mutating Item) Value}
    (later : BoundedFrom bound start (rest start)) :
    BoundedFrom bound start (own >>= rest) :=
  Meets.bind_own later

variable {rest : Unit → Mutation (Mutating Item) Value}

theorem bind_setInput
    {items : List Item}
    (later : BoundedFrom bound { start with input := items } (rest ())) :
    BoundedFrom bound start (setInput items >>= rest) :=
  Meets.bind_change later

theorem bind_setTmpBuf
    {items : List Item}
    (later : BoundedFrom bound { start with tmpBuf := items } (rest ())) :
    BoundedFrom bound start (setTmpBuf items >>= rest) :=
  Meets.bind_change later

theorem bind_below
    {upperBoundExcl : Nat}
    {rest : Nat → Mutation (Mutating Item) Value}
    (later :
      ∀ value, value = 0 ∨ value < upperBoundExcl →
        BoundedFrom bound start (rest value)) :
    BoundedFrom bound start (below upperBoundExcl >>= rest) :=
  Meets.bind_below isOrderly_starved later

theorem bind_next
    {rest : Nat → Mutation (Mutating Item) Value}
    (later : ∀ value, BoundedFrom bound start (rest value)) :
    BoundedFrom bound start (next >>= rest) :=
  Meets.bind_next isOrderly_starved later

theorem bind_unwrap
    {optional : Option Result}
    {value : Result}
    {rest : Result → Mutation (Mutating Item) Value}
    (isSome : optional = some value)
    (later : BoundedFrom bound start (rest value)) :
    BoundedFrom bound start (unwrap optional >>= rest) :=
  Meets.bind_unwrap isSome later

theorem bind_attempt
    {result : Except Corpus.Error Result}
    {rest : Result → Mutation (Mutating Item) Value}
    (later : ∀ value, BoundedFrom bound start (rest value)) :
    BoundedFrom bound start (attempt result >>= rest) := by
  cases result with
  | error error =>
      exact Meets.bind_attempt_error rfl isOrderly_error
  | ok value =>
      exact Meets.bind_attempt rfl (later value)

theorem changeChosen
    {changed : Item → Mutation (Mutating Item) Item}
    (some : start.input ≠ [])
    (short : start.input.length ≤ bound)
    (draws :
      ∀ item, Meets (· = start) (changed item) (fun _ now => now = start)
        fun failure _ => failure.IsOrderly) :
    BoundedFrom bound start (Mutators.changeChosen changed) := by
  unfold Mutators.changeChosen
  refine bind_input (bind_below fun index isIndex => bind_input ?_)
  have positive := List.length_pos_iff.mpr some
  have inRange : index < start.input.length := by omega
  refine bind_unwrap (List.getElem?_eq_getElem inRange) ?_
  refine Meets.bind (draws _) fun item => bind_input (bind_setInput (pure ?_))
  rw [List.length_set]
  exact short

theorem bind_spliceInput
    {range : Range}
    {replaceWith : List Item}
    (fits : range.Fits start.input.length)
    (later :
      ∀ items,
        items.length + range.len = start.input.length + replaceWith.length →
        BoundedFrom bound { start with input := items } (rest ())) :
    BoundedFrom bound start (spliceInput range replaceWith >>= rest) := by
  unfold spliceInput
  rw [bind_assoc]
  refine bind_input ?_
  rw [bind_assoc]
  refine bind_unwrap (if_pos fits) (bind_setInput (later _ ?_))
  obtain ⟨ordered, inside⟩ := fits
  simp only [List.length_append, List.length_take, List.length_drop, Range.len]
  omega

theorem bind_drainInput
    {range : Range}
    {rest : List Item → Mutation (Mutating Item) Value}
    (fits : range.Fits start.input.length)
    (later :
      ∀ drained items, items.length + range.len = start.input.length →
        BoundedFrom bound { start with input := items } (rest drained)) :
    BoundedFrom bound start (drainInput range >>= rest) := by
  unfold drainInput
  rw [bind_assoc]
  refine bind_input ?_
  rw [bind_assoc]
  refine bind_unwrap (if_pos fits) ?_
  rw [bind_assoc]
  exact bind_spliceInput fits fun items length => later _ items length

theorem bind_otherCorpusId
    {context : Context Item}
    {rest : Option Corpus.CorpusId → Mutation (Mutating Item) Value}
    (some : 0 < context.count)
    (later : ∀ idx, BoundedFrom bound start (rest idx)) :
    BoundedFrom bound start (otherCorpusId context >>= rest) := by
  unfold otherCorpusId
  rw [bind_assoc]
  refine bind_below fun nth isNth => ?_
  have inRange : nth < context.count := by omega
  obtain ⟨idx, isIdx⟩ := Option.isSome_iff_exists.mp (context.nth_isSome nth inRange)
  rw [bind_assoc]
  exact bind_unwrap isIdx (later _)

end BoundedFrom

theorem bounded_unlessEmpty
    {maxSize : Nat}
    {mutation : Mutation (Mutating Item) MutationResult}
    (bounded :
      ∀ start : Mutating Item, start.input ≠ [] →
        BoundedFrom (max start.input.length maxSize) start mutation) :
    Bounded maxSize (unlessEmpty mutation) := by
  intro start
  refine .bind_input ?_
  split
  · exact .pure (le_max_left _ _)
  · rename_i notEmpty
    exact bounded start (by simpa using notEmpty)

theorem bounded_changeChosen
    {maxSize : Nat}
    {changed : Item → Mutation (Mutating Item) Item}
    (draws :
      ∀ start item,
        Meets (· = start) (changed item) (fun _ now => now = start)
          fun failure _ => failure.IsOrderly) :
    Bounded maxSize (unlessEmpty (changeChosen changed)) :=
  bounded_unlessEmpty fun start some =>
    .changeChosen some (le_max_left _ _) (draws start)

end

end MeFuzz.Mutators
