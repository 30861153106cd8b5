import MeFuzz.InMemoryCorpus
import MeFuzz.Procedures
import MeFuzz.Rands

namespace MeFuzz.Mutators

open Procedure

/-!
# Mutators that draw random numbers

A mutator works on a state of its own beside the values that the generator is
going to give.  It is starved when it needs more values than there are; a longer
list of values then tells how it goes on.
-/

/-- `MutationResult`. -/
inductive MutationResult where
  | mutated
  | skipped
  deriving Repr, DecidableEq

/-- The ways in which a mutator does not return a result. -/
inductive Failure where
  | starved
  | panicked
  | hangs
  | error (error : Corpus.Error)
  deriving DecidableEq

/-- The values that the generator is going to give, and the state of a mutator. -/
structure Drawing (Own : Type) where
  draws : List Nat
  own : Own
  deriving DecidableEq

/-- A mutator, or a part of one. -/
abbrev Mutation (Own Value : Type) :=
  Procedure Failure (Drawing Own) Value

section

variable {Own Value Item : Type}

/-- What is drawn by a generator. -/
def draw
    (drawing : List Nat → Option (Value × List Nat)) : Mutation Own Value := do
  match drawing (← get).draws with
  | none => throw .starved
  | some (value, draws) => do
      modify fun now => { now with draws }
      pure value

/-- `Rand::next`. -/
def next : Mutation Own Nat :=
  draw fun
    | [] => none
    | value :: draws => some (value, draws)

/-- `Rand::below`. -/
def below (upperBoundExcl : Nat) : Mutation Own Nat :=
  draw (Rand.below upperBoundExcl)

/-- `Rand::between`. -/
def between (lowerBoundIncl upperBoundIncl : Nat) : Mutation Own Nat :=
  draw (Rand.between lowerBoundIncl upperBoundIncl)

/-- What panics where there is none. -/
def unwrap : Option Value → Mutation Own Value
  | some value => pure value
  | none => throw .panicked

/-- `Rand::choose`. -/
def choose (items : List Item) : Mutation Own Item := do
  let index ← below items.length
  unwrap items[index]?

/-- The state of the mutator. -/
def own : Mutation Own Own := do
  pure (← get).own

/-- A change of the state of the mutator. -/
def change (changed : Own → Own) : Mutation Own Unit :=
  modify fun now => { now with own := changed now.own }

/-- What may fail with an error. -/
def attempt : Except Corpus.Error Value → Mutation Own Value
  | .ok value => pure value
  | .error error => throw (.error error)

end

section

variable {Own Value Item : Type}

variable {draws : List Nat}

theorem outcome_own
    {now : Own} :
    outcome own ⟨draws, now⟩ = (.ok now, ⟨draws, now⟩) :=
  rfl

theorem unwrap_some
    {value : Value} :
    (unwrap (some value) : Mutation Own Value) = pure value :=
  rfl

theorem outcome_next
    {value : Nat}
    {own : Own} :
    outcome next ⟨value :: draws, own⟩ = (.ok value, ⟨draws, own⟩) :=
  rfl

theorem outcome_below
    {bound value : Nat}
    {draws rest : List Nat}
    {own : Own}
    (drawn : Rand.below bound draws = some (value, rest)) :
    outcome (below bound) ⟨draws, own⟩ = (.ok value, ⟨rest, own⟩) := by
  unfold below draw
  rw [outcome_bind_ok outcome_get]
  dsimp only
  rw [drawn]
  rfl

theorem outcome_below_starved
    {bound : Nat}
    {own : Own}
    (starves : Rand.below bound draws = none) :
    outcome (below bound) ⟨draws, own⟩ = (.error .starved, ⟨draws, own⟩) := by
  unfold below draw
  rw [outcome_bind_ok outcome_get]
  dsimp only
  rw [starves]
  rfl

/-- From a state of its own, a mutator returns with another or fails with one. -/
def Meets
    (before : Own → Prop)
    (mutation : Mutation Own Value)
    (after : Value → Own → Prop)
    (failed : Failure → Own → Prop) : Prop :=
  Satisfies (fun now => before now.own) mutation
    (fun value now => after value now.own)
    (fun failure now => failed failure now.own)

namespace Meets

variable {before : Own → Prop}
variable {after : Value → Own → Prop}
variable {failed : Failure → Own → Prop}
variable {mutation : Mutation Own Value}

theorem weaken
    {stronger : Own → Prop}
    {weaker : Value → Own → Prop}
    {weakerFailed : Failure → Own → Prop}
    (meets : Meets before mutation after failed)
    (starts : ∀ now, stronger now → before now)
    (returns : ∀ value now, after value now → weaker value now)
    (fails : ∀ failure now, failed failure now → weakerFailed failure now) :
    Meets stronger mutation weaker weakerFailed :=
  Satisfies.weaken meets (fun now => starts now.own)
    (fun value now => returns value now.own)
    fun failure now => fails failure now.own

theorem pure
    {value : Value}
    (holds : ∀ now, before now → after value now) :
    Meets before (Pure.pure value : Mutation Own Value) after failed :=
  Satisfies.pure fun now => holds now.own

theorem bind
    {Result : Type}
    {middle : Value → Own → Prop}
    {after : Result → Own → Prop}
    {rest : Value → Mutation Own Result}
    (first : Meets before mutation middle failed)
    (second : ∀ value, Meets (middle value) (rest value) after failed) :
    Meets before (mutation >>= rest) after failed :=
  Satisfies.bind first second

theorem throw
    {failure : Failure}
    (holds : ∀ now, before now → failed failure now) :
    Meets before (MonadExcept.throw failure : Mutation Own Value) after failed :=
  fun now starts => holds now.own starts

theorem own
    {after : Own → Own → Prop}
    (holds : ∀ now, before now → after now now) :
    Meets before Mutators.own after failed :=
  fun now starts => holds now.own starts

theorem change
    {changed : Own → Own}
    {after : Unit → Own → Prop}
    (holds : ∀ now, before now → after () (changed now)) :
    Meets before (Mutators.change changed) after failed :=
  fun now starts => holds now.own starts

theorem draw
    {drawing : List Nat → Option (Value × List Nat)}
    (returns :
      ∀ draws value rest now,
        before now → drawing draws = some (value, rest) → after value now)
    (starves : ∀ now, before now → failed .starved now) :
    Meets before (Mutators.draw drawing) after failed := by
  intro now starts
  unfold Mutators.draw
  rw [outcome_bind_ok outcome_get]
  cases drawn : drawing now.draws with
  | none =>
      exact starves now.own starts
  | some result =>
      exact returns now.draws result.1 result.2 now.own starts drawn

theorem next
    {after : Nat → Own → Prop}
    (returns : ∀ value now, before now → after value now)
    (starves : ∀ now, before now → failed .starved now) :
    Meets before Mutators.next after failed :=
  .draw (fun _ value _ now starts _ => returns value now starts) starves

theorem below
    {upperBoundExcl : Nat}
    {after : Nat → Own → Prop}
    (returns :
      ∀ value now,
        before now → (value = 0 ∨ value < upperBoundExcl) → after value now)
    (starves : ∀ now, before now → failed .starved now) :
    Meets before (Mutators.below upperBoundExcl) after failed := by
  refine .draw (fun draws value rest now starts drawn => ?_) starves
  refine returns value now starts ?_
  rcases Nat.eq_zero_or_pos upperBoundExcl with rfl | positive
  · left
    rw [Rand.below, if_pos (Nat.zero_le 1)] at drawn
    exact (Prod.mk.inj (Option.some.inj drawn)).1.symm
  · exact .inr (Rand.below_lt positive drawn)

theorem unwrap
    {optional : Option Value}
    (returns : ∀ value, optional = some value → ∀ now, before now → after value now)
    (panics : optional = none → ∀ now, before now → failed .panicked now) :
    Meets before (Mutators.unwrap optional) after failed := by
  cases optional with
  | none =>
      exact .throw (panics rfl)
  | some value =>
      exact .pure (returns value rfl)

theorem choose
    {items : List Item}
    {after : Item → Own → Prop}
    (nonempty : items ≠ [])
    (returns : ∀ item ∈ items, ∀ now, before now → after item now)
    (starves : ∀ now, before now → failed .starved now) :
    Meets before (Mutators.choose items) after failed := by
  have positive := List.length_pos_iff.mpr nonempty
  have isBelow :
      Meets before (Mutators.below items.length)
        (fun index now => index < items.length ∧ before now) failed := by
    refine .below ?_ starves
    rintro value now starts (rfl | isBelow)
    · exact ⟨positive, starts⟩
    · exact ⟨isBelow, starts⟩
  refine .bind isBelow fun index => ?_
  refine .unwrap (fun item isItem now starts => ?_) fun isNone now starts => ?_
  · exact returns item (List.mem_of_getElem? isItem) now starts.2
  · exact absurd starts.1 (Nat.not_lt.mpr (List.getElem?_eq_none_iff.mp isNone))

theorem of_fact
    {fact : Prop}
    (meets : fact → Meets before mutation after failed) :
    Meets (fun now => fact ∧ before now) mutation after failed :=
  fun now starts => meets starts.1 now starts.2

theorem of_each
    (each : ∀ start, before start → Meets (· = start) mutation after failed) :
    Meets before mutation after failed :=
  fun now starts => each now.own starts now rfl

section

variable {Result : Type}
variable {start : Own}
variable {after : Result → Own → Prop}

theorem bind_own
    {rest : Own → Mutation Own Result}
    (later : Meets (· = start) (rest start) after failed) :
    Meets (· = start) (Mutators.own >>= rest) after failed := by
  rintro ⟨draws, _⟩ rfl
  exact later _ rfl

theorem bind_change
    {changed : Own → Own}
    {rest : Unit → Mutation Own Result}
    (later : Meets (· = changed start) (rest ()) after failed) :
    Meets (· = start) (Mutators.change changed >>= rest) after failed := by
  rintro ⟨draws, _⟩ rfl
  exact later _ rfl

theorem bind_next
    {rest : Nat → Mutation Own Result}
    (starves : failed .starved start)
    (later : ∀ value, Meets (· = start) (rest value) after failed) :
    Meets (· = start) (Mutators.next >>= rest) after failed :=
  .bind (.next (fun _ _ isStart => isStart) fun _ isStart => isStart ▸ starves)
    later

theorem bind_below
    {bound : Nat}
    {rest : Nat → Mutation Own Result}
    (starves : failed .starved start)
    (later :
      ∀ value, value = 0 ∨ value < bound →
        Meets (· = start) (rest value) after failed) :
    Meets (· = start) (Mutators.below bound >>= rest) after failed := by
  have drawn :
      Meets (· = start) (Mutators.below bound)
        (fun value now => (value = 0 ∨ value < bound) ∧ now = start) failed :=
    .below (fun _ _ isStart isBelow => ⟨isBelow, isStart⟩)
      fun _ isStart => isStart ▸ starves
  exact .bind drawn fun value now starts => later value starts.1 now starts.2

variable {rest : Value → Mutation Own Result}

theorem bind_unwrap
    {optional : Option Value}
    {value : Value}
    (isSome : optional = some value)
    (later : Meets (· = start) (rest value) after failed) :
    Meets (· = start) (Mutators.unwrap optional >>= rest) after failed := by
  subst isSome
  exact later

theorem bind_attempt
    {result : Except Corpus.Error Value}
    {value : Value}
    (isOk : result = .ok value)
    (later : Meets (· = start) (rest value) after failed) :
    Meets (· = start) (Mutators.attempt result >>= rest) after failed := by
  subst isOk
  exact later

theorem bind_attempt_error
    {result : Except Corpus.Error Value}
    {error : Corpus.Error}
    (isError : result = .error error)
    (holds : failed (.error error) start) :
    Meets (· = start) (Mutators.attempt result >>= rest) after failed := by
  subst isError
  rintro ⟨draws, _⟩ rfl
  exact holds

theorem bind_choose
    {items : List Item}
    {rest : Item → Mutation Own Result}
    (nonempty : items ≠ [])
    (starves : failed .starved start)
    (later : ∀ item ∈ items, Meets (· = start) (rest item) after failed) :
    Meets (· = start) (Mutators.choose items >>= rest) after failed := by
  have chosen :
      Meets (· = start) (Mutators.choose items)
        (fun item now => item ∈ items ∧ now = start) failed :=
    .choose nonempty (fun _ isItem _ isStart => ⟨isItem, isStart⟩)
      fun _ isStart => isStart ▸ starves
  exact .bind chosen fun item now starts => later item starts.1 now starts.2

end

end Meets

end

end MeFuzz.Mutators
