import MeFuzz.EncodedMutators
import MeFuzz.TokenMutators

namespace MeFuzz.Mutators

open Procedure

/-!
# Mutators that spare their input

A mutator reports that it skipped.  This module says of a part of a mutator that
it leaves a view of the state where it returns a value of some kind, and of
another part that it never returns such a value.  A mutator that draws, looks at
its input and skips is built from the two, with the rules for sequences.
-/

section

variable {Own Value Result View : Type}

/-- Where a value of the kind is returned, the view of the state is as before. -/
def Spares
    (view : Own → View)
    (kind : Value → Prop)
    (mutation : Mutation Own Value) : Prop :=
  ∀ seen,
    Meets (fun now => view now = seen) mutation
      (fun value now => kind value → view now = seen) (fun _ _ => True)

/-- No value of the kind is returned. -/
def Never
    (kind : Value → Prop)
    (mutation : Mutation Own Value) : Prop :=
  Meets (fun _ => True) mutation (fun value _ => ¬kind value) (fun _ _ => True)

/-- Whatever is returned, the view of the state is as before. -/
abbrev Keeps
    (view : Own → View)
    (mutation : Mutation Own Value) : Prop :=
  Spares view (fun _ => True) mutation

/-- The input is as before where it is skipped. -/
abbrev SkipsUntouched
    (view : Own → View)
    (mutation : Mutation Own MutationResult) : Prop :=
  Spares view (· = .skipped) mutation

theorem meets_trivial
    {before : Own → Prop}
    {mutation : Mutation Own Value} :
    Meets before mutation (fun _ _ => True) (fun _ _ => True) := by
  intro now _
  split <;> trivial

variable {view : Own → View}
variable {kind : Value → Prop}
variable {mutation : Mutation Own Value}

namespace Never

theorem pure
    {value : Value}
    (other : ¬kind value) :
    Never kind (Pure.pure value : Mutation Own Value) :=
  Meets.pure fun _ _ => other

theorem bind
    {first : Mutation Own Result}
    {rest : Result → Mutation Own Value}
    (later : ∀ value, Never kind (rest value)) :
    Never kind (first >>= rest) :=
  Meets.bind meets_trivial later

theorem throw
    {failure : Failure} :
    Never kind (MonadExcept.throw failure : Mutation Own Value) :=
  Meets.throw fun _ _ => trivial

end Never

theorem never_skips :
    Never (· = .skipped) (pure .mutated : Mutation Own MutationResult) :=
  .pure nofun

namespace Spares

theorem of_never
    (never : Never kind mutation) :
    Spares view kind mutation :=
  fun _ =>
    Meets.weaken never (fun _ _ => trivial)
      (fun _ _ other isKind => absurd isKind other) fun _ _ _ => trivial

theorem pure
    {value : Value} :
    Spares view kind (Pure.pure value : Mutation Own Value) :=
  fun _ => .pure fun _ isSeen _ => isSeen

theorem throw
    {failure : Failure} :
    Spares view kind (MonadExcept.throw failure : Mutation Own Value) :=
  fun _ => .throw fun _ _ => trivial

theorem bind_kind
    {firstKind : Result → Prop}
    {first : Mutation Own Result}
    {rest : Result → Mutation Own Value}
    (spares : Spares view firstKind first)
    (later : ∀ value, firstKind value → Spares view kind (rest value))
    (other : ∀ value, ¬firstKind value → Never kind (rest value)) :
    Spares view kind (first >>= rest) := by
  intro seen
  refine Meets.bind (spares seen) fun value => ?_
  by_cases isKind : firstKind value
  · exact (later value isKind seen).weaken (fun _ isSeen => isSeen isKind)
      (fun _ _ reached => reached) fun _ _ _ => trivial
  · exact Meets.weaken (other value isKind) (fun _ _ => trivial)
      (fun _ _ notKind isKind => absurd isKind notKind) fun _ _ _ => trivial

theorem bind
    {first : Mutation Own Result}
    {rest : Result → Mutation Own Value}
    (keeps : Keeps view first)
    (later : ∀ value, Spares view kind (rest value)) :
    Spares view kind (first >>= rest) :=
  bind_kind keeps (fun value _ => later value)
    fun _ notTrue => absurd trivial notTrue

theorem of_returned
    {start next : Drawing Own}
    {value : Value}
    (spares : Spares view kind mutation)
    (returned : outcome mutation start = (.ok value, next))
    (isKind : kind value) :
    view next.own = view start.own :=
  Satisfies.of_ok (spares (view start.own)) rfl returned isKind

end Spares

namespace Keeps

theorem draw
    {drawing : List Nat → Option (Value × List Nat)} :
    Keeps view (Mutators.draw drawing) :=
  fun _ => .draw (fun _ _ _ _ isSeen _ _ => isSeen) fun _ _ => trivial

theorem next :
    Keeps view Mutators.next :=
  draw

theorem below
    {bound : Nat} :
    Keeps view (Mutators.below bound) :=
  draw

theorem own :
    Keeps view Mutators.own :=
  fun _ => .own fun _ isSeen _ => isSeen

theorem unwrap
    {optional : Option Value} :
    Keeps view (Mutators.unwrap optional) := by
  cases optional with
  | none =>
      exact .throw
  | some value =>
      exact .pure

theorem attempt
    {result : Except Corpus.Error Value} :
    Keeps view (Mutators.attempt result) := by
  cases result with
  | error error =>
      exact .throw
  | ok value =>
      exact .pure

theorem choose
    {items : List Value} :
    Keeps view (Mutators.choose items) :=
  .bind below fun _ => unwrap

theorem change
    {changed : Own → Own}
    (same : ∀ now, view (changed now) = view now) :
    Keeps view (Mutators.change changed) :=
  fun _ => .change fun now isSeen _ => (same now).trans isSeen

theorem randRange
    {upper maxLen : Nat} :
    Keeps view (Mutators.randRange upper maxLen) :=
  .bind next fun _ => .bind unwrap fun _ => .bind next fun _ =>
    .bind unwrap fun _ => .bind unwrap fun _ => .pure

end Keeps

end

section

variable {Item Value : Type}
variable {kind : Value → Prop}

theorem keeps_input :
    Keeps Mutating.input (input : Mutation (Mutating Item) (List Item)) :=
  .bind .own fun _ => .pure

theorem keeps_setTmpBuf
    {items : List Item} :
    Keeps Mutating.input (setTmpBuf items) :=
  .change fun _ => rfl

theorem keeps_otherCorpusId
    {context : Context Item} :
    Keeps Mutating.input (otherCorpusId context) :=
  .bind .below fun _ => .bind .unwrap fun _ => .pure

theorem never_skips_changeChosen
    {changed : Item → Mutation (Mutating Item) Item} :
    Never (· = .skipped) (changeChosen changed) :=
  .bind fun _ => .bind fun _ => .bind fun _ => .bind fun _ => .bind fun _ =>
    .bind fun _ => .bind fun _ => never_skips

theorem spares_unlessEmpty
    {mutation : Mutation (Mutating Item) MutationResult}
    (never : Never (· = .skipped) mutation) :
    SkipsUntouched Mutating.input (unlessEmpty mutation) := by
  refine .bind keeps_input fun items => ?_
  split
  · exact .pure
  · exact .of_never never

theorem spares_randRange
    {upper maxLen : Nat}
    {rest : Range → Mutation (Mutating Item) MutationResult}
    (never : ∀ range, Never (· = .skipped) (rest range)) :
    SkipsUntouched Mutating.input
      (do
        let range ← randRange upper maxLen
        if range.isEmpty then pure .skipped
        else rest range) := by
  refine .bind .randRange fun range => ?_
  split
  · exact .pure
  · exact .of_never (never range)

theorem spares_otherInput
    {context : Context Item}
    {rest : List Item → Mutation (Mutating Item) MutationResult}
    (spares : ∀ other, SkipsUntouched Mutating.input (rest other)) :
    SkipsUntouched Mutating.input
      (do
        match ← otherCorpusId context with
        | none => pure .skipped
        | some idx => do
            let other ← attempt (context.loadInput idx)
            rest other) := by
  refine .bind keeps_otherCorpusId fun idx => ?_
  cases idx with
  | none =>
      exact .pure
  | some idx =>
      exact .bind .attempt spares

end

section

variable {context : Context UInt8}
variable {size : Nat}
variable {range : Range}

theorem skips_addMutator :
    SkipsUntouched Mutating.input (addMutator size) := by
  refine .bind keeps_input fun bytes => ?_
  split
  · exact .pure
  · exact .of_never
      (.bind fun _ => .bind fun _ => .bind fun _ => .bind fun _ => .bind fun _ =>
        never_skips)

theorem skips_interestingMutator
    {interesting : List Int} :
    SkipsUntouched Mutating.input (interestingMutator size interesting) := by
  refine .bind keeps_input fun bytes => ?_
  split
  · exact .pure
  · exact .of_never
      (.bind fun _ => .bind fun _ => .bind fun _ => .bind fun _ => .bind fun _ =>
        never_skips)

theorem skips_bytesDelete :
    SkipsUntouched Mutating.input bytesDelete := by
  refine .bind keeps_input fun bytes => ?_
  dsimp only
  split
  · exact .pure
  · exact spares_randRange fun range => .bind fun _ => never_skips

theorem skips_bytesExpand :
    SkipsUntouched Mutating.input (bytesExpand context) := by
  refine .bind keeps_input fun bytes => ?_
  dsimp only
  split
  · exact .pure
  · exact spares_randRange fun range =>
      .bind fun _ => .bind fun _ => .bind fun _ => .bind fun _ => .bind fun _ =>
        never_skips

theorem skips_bytesInsert :
    SkipsUntouched Mutating.input (bytesInsert context) := by
  refine .bind keeps_input fun bytes => ?_
  dsimp only
  split
  · exact .pure
  · exact .of_never
      (.bind fun _ => .bind fun _ => .bind fun _ => .bind fun _ => .bind fun _ =>
        .bind fun _ => never_skips)

theorem skips_bytesRandInsert :
    SkipsUntouched Mutating.input (bytesRandInsert context) := by
  refine .bind keeps_input fun bytes => ?_
  dsimp only
  split
  · exact .pure
  · exact .of_never
      (.bind fun _ => .bind fun _ => .bind fun _ => .bind fun _ => never_skips)

theorem skips_bytesSet :
    SkipsUntouched Mutating.input bytesSet := by
  refine .bind keeps_input fun bytes => ?_
  dsimp only
  split
  · exact .pure
  · exact spares_randRange fun range =>
      .bind fun _ => .bind fun _ => .bind fun _ => never_skips

theorem skips_bytesRandSet :
    SkipsUntouched Mutating.input bytesRandSet := by
  refine .bind keeps_input fun bytes => ?_
  dsimp only
  split
  · exact .pure
  · exact spares_randRange fun range => .bind fun _ => .bind fun _ => never_skips

theorem skips_bytesCopy :
    SkipsUntouched Mutating.input bytesCopy := by
  refine .bind keeps_input fun bytes => ?_
  dsimp only
  split
  · exact .pure
  · exact .of_never
      (.bind fun _ => .bind fun _ => .bind fun _ => .bind fun _ => .bind fun _ =>
        never_skips)

theorem skips_bytesInsertCopy :
    SkipsUntouched Mutating.input (bytesInsertCopy context) := by
  refine .bind keeps_input fun bytes => ?_
  dsimp only
  split
  · exact .pure
  · exact .of_never
      (.bind fun _ => .bind fun _ => .bind fun _ => .bind fun _ => .bind fun _ =>
        .bind fun _ => .bind fun _ => .bind fun _ => .bind fun _ => never_skips)

theorem never_skips_swapWithFront
    {first second : Range} :
    Never (· = .skipped) (swapWithFront first second) :=
  .bind fun _ => .bind fun _ => .bind fun _ => .bind fun _ => .bind fun _ =>
    .bind fun _ => .bind fun _ => .bind fun _ => .bind fun _ => .bind fun _ =>
      .bind fun _ => .bind fun _ => never_skips

theorem never_skips_swapWithBack
    {first second : Range} :
    Never (· = .skipped) (swapWithBack first second) :=
  .bind fun _ => .bind fun _ => .bind fun _ => .bind fun _ => .bind fun _ =>
    .bind fun _ => .bind fun _ => .bind fun _ => .bind fun _ => .bind fun _ =>
      .bind fun _ => .bind fun _ => never_skips

theorem skips_bytesSwap :
    SkipsUntouched Mutating.input bytesSwap := by
  refine .bind keeps_input fun bytes => ?_
  dsimp only
  split
  · exact .pure
  · refine .bind keeps_setTmpBuf fun _ => .bind .randRange fun first => ?_
    refine .bind .next fun value => ?_
    split
    · exact .of_never (.bind fun _ => never_skips_swapWithFront)
    · split
      · exact .of_never (.bind fun _ => never_skips_swapWithBack)
      · exact .pure

theorem skips_crossoverInsert :
    SkipsUntouched Mutating.input (crossoverInsert context) := by
  refine .bind keeps_input fun bytes => ?_
  dsimp only
  split
  · exact .pure
  · refine spares_otherInput fun other => ?_
    split
    · exact .pure
    · exact .of_never
        (.bind fun _ => .bind fun _ => .bind fun _ => .bind fun _ => never_skips)

theorem skips_crossoverReplace :
    SkipsUntouched Mutating.input (crossoverReplace context) := by
  refine .bind keeps_input fun bytes => ?_
  dsimp only
  split
  · exact .pure
  · refine spares_otherInput fun other => ?_
    split
    · exact .pure
    · exact .of_never
        (.bind fun _ => .bind fun _ => .bind fun _ => .bind fun _ => never_skips)

theorem skips_spliceMutator :
    SkipsUntouched Mutating.input (spliceMutator context) := by
  refine spares_otherInput fun other => .bind keeps_input fun bytes => ?_
  split
  · exact .pure
  · exact .of_never
      (.bind fun _ => .bind fun _ => .bind fun _ => .bind fun _ => never_skips)

theorem ByteMutator.skips_untouched
    (mutator : ByteMutator) :
    SkipsUntouched Mutating.input (mutator.mutate context) := by
  cases mutator with
  | bitFlip =>
      exact spares_unlessEmpty (.bind fun _ => never_skips_changeChosen)
  | byteFlip | byteInc | byteDec | byteNeg | byteRand =>
      exact spares_unlessEmpty never_skips_changeChosen
  | byteAdd | wordAdd | dwordAdd | qwordAdd =>
      exact skips_addMutator
  | byteInteresting | wordInteresting | dwordInteresting =>
      exact skips_interestingMutator
  | bytesDelete =>
      exact skips_bytesDelete
  | bytesExpand =>
      exact skips_bytesExpand
  | bytesInsert =>
      exact skips_bytesInsert
  | bytesRandInsert =>
      exact skips_bytesRandInsert
  | bytesSet =>
      exact skips_bytesSet
  | bytesRandSet =>
      exact skips_bytesRandSet
  | bytesCopy =>
      exact skips_bytesCopy
  | bytesInsertCopy =>
      exact skips_bytesInsertCopy
  | bytesSwap =>
      exact skips_bytesSwap
  | crossoverInsert =>
      exact skips_crossoverInsert
  | crossoverReplace =>
      exact skips_crossoverReplace
  | splice =>
      exact skips_spliceMutator

end

section

variable {context : Context UInt32}

theorem skips_encodedDelete :
    SkipsUntouched Mutating.input encodedDelete := by
  refine .bind keeps_input fun codes => ?_
  dsimp only
  split
  · exact .pure
  · exact .of_never (.bind fun _ => .bind fun _ => .bind fun _ => never_skips)

theorem skips_encodedInsertCopy :
    SkipsUntouched Mutating.input (encodedInsertCopy context) := by
  refine .bind keeps_input fun codes => ?_
  dsimp only
  split
  · exact .pure
  · refine .bind .below fun off => .bind .below fun drawn => ?_
    split
    · exact .pure
    · refine .of_never ?_
      split
      all_goals
        exact .bind fun _ => .bind fun _ => .bind fun _ => .bind fun _ =>
          .bind fun _ => .bind fun _ => .bind fun _ => .bind fun _ =>
            .bind fun _ => .bind fun _ => .bind fun _ => .bind fun _ =>
              .bind fun _ => .bind fun _ => never_skips

theorem skips_encodedCopy :
    SkipsUntouched Mutating.input encodedCopy := by
  refine .bind keeps_input fun codes => ?_
  dsimp only
  split
  · exact .pure
  · exact .of_never
      (.bind fun _ => .bind fun _ => .bind fun _ => .bind fun _ => .bind fun _ =>
        never_skips)

theorem skips_encodedCrossoverInsert :
    SkipsUntouched Mutating.input (encodedCrossoverInsert context) := by
  refine .bind keeps_input fun codes => spares_otherInput fun other => ?_
  split
  · exact .pure
  · refine .bind .below fun source => .bind .below fun target => ?_
    refine .bind .below fun drawn => ?_
    dsimp only
    split
    · exact .pure
    · exact .of_never
        (.bind fun _ => .bind fun _ => .bind fun _ => .bind fun _ => .bind fun _ =>
          .bind fun _ => never_skips)

theorem skips_encodedCrossoverReplace :
    SkipsUntouched Mutating.input (encodedCrossoverReplace context) := by
  refine .bind keeps_input fun codes => ?_
  dsimp only
  split
  · exact .pure
  · refine spares_otherInput fun other => ?_
    split
    · exact .pure
    · exact .of_never
        (.bind fun _ => .bind fun _ => .bind fun _ => .bind fun _ => .bind fun _ =>
          never_skips)

theorem EncodedMutator.skips_untouched
    (mutator : EncodedMutator) :
    SkipsUntouched Mutating.input (mutator.mutate context) := by
  cases mutator with
  | rand | inc | dec | add =>
      exact spares_unlessEmpty never_skips_changeChosen
  | delete =>
      exact skips_encodedDelete
  | insertCopy =>
      exact skips_encodedInsertCopy
  | copy =>
      exact skips_encodedCopy
  | crossoverInsert =>
      exact skips_encodedCrossoverInsert
  | crossoverReplace =>
      exact skips_encodedCrossoverReplace

end

section

variable {tokens : Option (List Bytes)}

theorem skips_tokenInsert
    {maxSize : Nat} :
    SkipsUntouched Mutating.input (tokenInsert maxSize tokens) := by
  cases tokens with
  | none =>
      exact .pure
  | some tokens =>
      unfold tokenInsert
      dsimp only
      split
      · exact .pure
      · refine .bind .below fun tokenIdx => .bind keeps_input fun bytes => ?_
        refine .bind .below fun off => .bind .unwrap fun token => ?_
        split
        · exact .pure
        · exact .of_never
            (.bind fun _ => .bind fun _ => .bind fun _ => .bind fun _ =>
              .bind fun _ => .bind fun _ => never_skips)

theorem skips_tokenReplace :
    SkipsUntouched Mutating.input (tokenReplace tokens) := by
  refine .bind keeps_input fun bytes => ?_
  dsimp only
  split
  · exact .pure
  · cases tokens with
    | none =>
        exact .pure
    | some tokens =>
        dsimp only
        split
        · exact .pure
        · exact .of_never
            (.bind fun _ => .bind fun _ => .bind fun _ => .bind fun _ =>
              .bind fun _ => never_skips)

theorem skips_i2sRandReplace
    {cmps : Option (List CmpValues)} :
    SkipsUntouched Mutating.input (i2sRandReplace cmps) := by
  refine .bind keeps_input fun bytes => ?_
  dsimp only
  split
  · exact .pure
  · cases cmps with
    | none =>
        exact .pure
    | some list =>
        dsimp only
        split
        · exact .pure
        · refine .bind .below fun idx => .bind .below fun off => ?_
          refine .bind .unwrap fun cmpValues => .bind keeps_input fun bytes => ?_
          refine .bind .unwrap fun replaced => ?_
          cases replaced with
          | none =>
              exact .pure
          | some replaced =>
              exact .of_never (.bind fun _ => never_skips)

theorem TokenMutator.skips_untouched
    {context : TokenContext}
    (mutator : TokenMutator) :
    SkipsUntouched Mutating.input (mutator.mutate context) := by
  cases mutator with
  | tokenInsert =>
      exact skips_tokenInsert
  | tokenReplace =>
      exact skips_tokenReplace
  | i2sRandReplace =>
      exact skips_i2sRandReplace

end

end MeFuzz.Mutators
