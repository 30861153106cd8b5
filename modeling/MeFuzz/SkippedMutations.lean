import MeFuzz.GramatronWalks
import MeFuzz.GrimoireShape
import MeFuzz.SparingMutations

namespace MeFuzz.Mutators

open Procedure

/-!
# What is skipped is untouched

A caller does not run an input that its mutator has skipped.  It may do so where
the input is as before.  The mutators of bytes, codes and tokens skip before they
change their input, and those of generalized inputs skip where they have found
nothing to replace.  The random mutator for grammars cuts its input before it
asks the automaton for more terminals, and skips where the automaton gives none.
-/

section

open Grimoire

variable {context : Grimoire.Context}
variable {find replacement : Grimoire.Bytes}
variable {stopAtFirst : Bool}

/-- A part of an extension that does not take place leaves the items. -/
abbrev Declines (mutation : Mutation Generalizing Bool) : Prop :=
  Spares Generalizing.generalized (· = false) mutation

theorem keeps_pushGaps
    {items : List GeneralizedItem} :
    Keeps Generalizing.generalized (pushGaps items) :=
  .bind (.change fun _ => rfl) fun _ => .bind .own fun _ => .pure

theorem keeps_clearGaps :
    Keeps Generalizing.generalized clearGaps :=
  .change fun _ => rfl

theorem keeps_randomCorpusId :
    Keeps Generalizing.generalized (randomCorpusId context) :=
  .bind .below fun _ => Keeps.unwrap

theorem never_declines :
    Never (· = false) (pure true : Mutation Generalizing Bool) :=
  .pure nofun

theorem declines_extendWithSlice
    {idx : Corpus.CorpusId} :
    Declines (extendWithSlice context idx) := by
  refine .bind .next fun rand1 => .bind .next fun rand2 => ?_
  refine .bind .attempt fun gen => ?_
  cases gen with
  | none =>
      exact .pure
  | some gen =>
      exact .of_never
        (.bind fun _ => .bind fun _ => .bind fun _ => .bind fun _ => .bind fun _ =>
          .bind fun _ => .bind fun _ => .bind fun _ => never_declines)

theorem declines_extendWithToken :
    Declines (extendWithToken context) := by
  refine .bind .next fun rand1 => ?_
  cases context.tokens with
  | none =>
      exact .pure
  | some tokens =>
      dsimp only
      split
      · exact .pure
      · refine .of_never (.bind fun token => .bind fun now => ?_)
        split
        all_goals
          exact .bind fun _ => .bind fun _ => never_declines

theorem skips_extendWithWhole
    {idx : Corpus.CorpusId} :
    SkipsUntouched Generalizing.generalized (extendWithWhole context idx) := by
  refine .bind .attempt fun gen => ?_
  cases gen with
  | none =>
      exact .pure
  | some gen =>
      refine .of_never (.bind fun now => ?_)
      dsimp only
      split
      all_goals
        exact .bind fun _ => .bind fun _ => never_skips

theorem declines_extendWithSubinput
    {idx : Corpus.CorpusId} :
    Declines (extendWithSubinput context idx) := by
  refine .bind .below fun chance => ?_
  split
  · refine .bind_kind declines_extendWithSlice ?_ ?_
    · rintro _ rfl
      exact declines_extendWithToken
    · intro extended isExtended
      rw [Bool.of_not_eq_false isExtended]
      exact never_declines
  · exact declines_extendWithToken

theorem skips_extendWithRandomGeneralized :
    SkipsUntouched Generalizing.generalized
      (extendWithRandomGeneralized context) := by
  refine .bind keeps_randomCorpusId fun idx => .bind .below fun chance => ?_
  split
  · refine .bind_kind declines_extendWithSubinput ?_ ?_
    · rintro _ rfl
      exact skips_extendWithWhole
    · intro extended isExtended
      rw [Bool.of_not_eq_false isExtended]
      exact never_skips
  · exact skips_extendWithWhole

theorem never_skips_replaceRecursively
    (depth : Nat) :
    Never (· = .skipped) (replaceRecursively context depth .mutated) := by
  induction depth with
  | zero =>
      exact never_skips
  | succ depth ih =>
      refine .bind fun now => ?_
      dsimp only
      split
      · exact never_skips
      · refine .bind fun gapIndices => ?_
        split
        · exact never_skips
        · exact .bind fun _ => .bind fun _ => .bind fun _ => ih

theorem skips_replaceRecursively
    {depth : Nat} :
    SkipsUntouched Generalizing.generalized
      (replaceRecursively context depth .skipped) := by
  cases depth with
  | zero =>
      exact .pure
  | succ depth =>
      refine .bind .own fun now => ?_
      dsimp only
      split
      · exact .pure
      · refine .bind keeps_pushGaps fun gapIndices => ?_
        split
        · exact .pure
        · exact .of_never
            (.bind fun _ => .bind fun _ => .bind fun _ =>
              never_skips_replaceRecursively depth)

theorem replaceToken_skipped
    {fuel i : Nat}
    {bytes after : Grimoire.Bytes}
    {result : MutationResult}
    {stops : Bool}
    (returned :
      replaceToken find replacement stopAtFirst fuel i bytes result =
        some (after, .skipped, stops)) :
    result = .skipped ∧ after = bytes ∧ stops = false := by
  induction fuel generalizing i bytes result with
  | zero =>
      cases returned
  | succ fuel ih =>
      unfold replaceToken at returned
      split at returned
      · split at returned
        · dsimp only at returned
          split at returned
          · cases returned
          · exact absurd (ih returned).1 (by decide)
        · exact ih returned
      · cases returned
        exact ⟨rfl, rfl, rfl⟩

variable {fuel : Nat}

theorem replaceInItems_skipped
    {items after : List GeneralizedItem}
    {result : MutationResult}
    (returned :
      replaceInItems fuel find replacement stopAtFirst items result =
        some (after, .skipped)) :
    result = .skipped ∧ after = items := by
  induction items generalizing after result with
  | nil =>
      cases returned
      exact ⟨rfl, rfl⟩
  | cons item rest ih =>
      cases item with
      | gap =>
          unfold replaceInItems at returned
          obtain ⟨⟨left, last⟩, isLeft, isSome⟩ := Option.bind_eq_some_iff.mp returned
          cases isSome
          obtain ⟨skipped, same⟩ := ih isLeft
          exact ⟨skipped, congrArg _ same⟩
      | bytes bytes =>
          unfold replaceInItems at returned
          obtain ⟨⟨replaced, now, stops⟩, isReplaced, later⟩ :=
            Option.bind_eq_some_iff.mp returned
          dsimp only at later
          split at later
          · rename_i isStop
            cases later
            exact absurd isStop (by rw [(replaceToken_skipped isReplaced).2.2]; decide)
          · obtain ⟨⟨left, last⟩, isLeft, isSome⟩ := Option.bind_eq_some_iff.mp later
            cases isSome
            obtain ⟨skipped, same⟩ := ih isLeft
            subst skipped
            obtain ⟨skipped, sameBytes, -⟩ := replaceToken_skipped isReplaced
            exact ⟨skipped, by rw [same, sameBytes]⟩

theorem skips_replaceTokens
    {fuel randIdx : Nat} :
    SkipsUntouched Generalizing.generalized
      (replaceTokens fuel find replacement stopAtFirst randIdx) := by
  intro seen
  refine .of_each fun start isSeen => .bind_own ?_
  refine bind_finishes (fun _ => trivial) fun (front, result) isFront => ?_
  refine .bind_change ?_
  dsimp only
  split
  · refine bind_finishes (fun _ => trivial) fun (back, last) isBack => ?_
    refine .bind_change (.pure ?_)
    rintro _ rfl rfl
    obtain ⟨rfl, sameBack⟩ := replaceInItems_skipped isBack
    obtain ⟨-, sameFront⟩ := replaceInItems_skipped isFront
    dsimp only
    rw [sameFront, sameBack, List.take_append_drop]
    exact isSeen
  · rename_i goesOn
    refine .pure fun _ _ isSkipped => ?_
    exact absurd (.inl isSkipped) goesOn

theorem skips_replaceStrings
    {tokens : List Grimoire.Bytes} :
    SkipsUntouched Generalizing.generalized (replaceStrings fuel tokens) := by
  have finish :
      ∀ tokenFind tokenReplace : Nat,
        SkipsUntouched Generalizing.generalized
          (do
            let stopAtFirst := 50 < (← below 100)
            let randIdx ← next
            let token1 ← unwrap tokens[tokenFind]?
            let token2 ← unwrap tokens[tokenReplace]?
            let gen := (← own).generalized
            if gen.isEmpty then throw .panicked
            else
              replaceTokens fuel token1 token2 stopAtFirst (randIdx % gen.length)) := by
    intro tokenFind tokenReplace
    refine .bind .below fun chance => .bind .next fun randIdx => ?_
    refine .bind .unwrap fun token1 => .bind .unwrap fun token2 => ?_
    refine .bind .own fun now => ?_
    dsimp only
    split
    · exact .throw
    · exact skips_replaceTokens
  refine .bind .below fun tokenFind => .bind .below fun drawn => ?_
  dsimp only
  split
  · exact .bind .below fun tokenReplace => finish tokenFind tokenReplace
  · exact .bind .pure fun tokenReplace => finish tokenFind tokenReplace

theorem skips_deleteRandomly :
    SkipsUntouched Generalizing.generalized deleteRandomly := by
  refine .bind .own fun now => .bind keeps_pushGaps fun gapIndices => ?_
  refine .bind .below fun idx1 => .bind .unwrap fun first => ?_
  refine .bind .below fun idx2 => .bind .unwrap fun second => ?_
  refine .bind keeps_clearGaps fun _ => ?_
  split
  · exact .pure
  · exact .of_never (.bind fun _ => .bind fun _ => never_skips)

theorem skips_grimoire
    (mutator : GrimoireMutator) :
    SkipsUntouched Generalizing.generalized (Grimoire.mutate context fuel mutator) := by
  cases mutator with
  | extension =>
      exact skips_extendWithRandomGeneralized
  | recursiveReplacement =>
      exact .bind .choose fun depth => skips_replaceRecursively
  | stringReplacement =>
      unfold Grimoire.mutate
      cases context.tokens with
      | none =>
          exact .pure
      | some tokens =>
          dsimp only
          split
          · exact .pure
          · exact skips_replaceStrings
  | randomDelete =>
      exact skips_deleteRandomly

end

section

open Gramatron

variable {automaton : Automaton}
variable {context : Gramatron.Context}

theorem skips_splice :
    SkipsUntouched id (Gramatron.splice context) := by
  refine .bind .own fun terminals => ?_
  dsimp only
  split
  · exact .pure
  · refine .bind .below fun nth => .bind .unwrap fun idx => ?_
    refine .bind .below fun insertAt => .bind .next fun randNum => ?_
    refine .bind .attempt fun other => .bind .unwrap fun terminal => ?_
    split
    · exact .pure
    · exact .of_never (.bind fun _ => .bind fun _ => never_skips)

theorem skips_recur :
    SkipsUntouched id recur := by
  refine .bind .own fun terminals => ?_
  dsimp only
  split
  · exact .pure
  · split
    · exact .pure
    · refine .of_never
        (.bind fun _ => .bind fun _ => .bind fun _ => .bind fun _ => .bind fun _ => ?_)
      split
      · exact .bind fun _ => .bind fun _ => never_skips
      · exact .throw

variable {front : List Terminal}

theorem meets_generateFrom_counter
    (fuel current counter : Nat) :
    Meets (fun now => now = front) (generateFrom automaton fuel current counter)
      (fun value now =>
        counter ≤ value ∧
          (value = counter → now = front ∧ current = automaton.finalState))
      (fun _ _ => True) := by
  induction fuel generalizing front current counter with
  | zero =>
      exact fun _ _ => trivial
  | succ fuel ih =>
      unfold generateFrom
      split
      · rename_i isFinal
        exact .pure fun _ isFront => ⟨le_rfl, fun _ => ⟨isFront, isFinal⟩⟩
      · refine bind_drawTrigger fun triggers idx trigger _ _ => .bind_change ?_
        refine (ih trigger.dest (counter + 1)).weaken
          (fun _ isNext => isNext) ?_ fun _ _ _ => trivial
        rintro value now ⟨isMore, -⟩
        refine ⟨Nat.le_of_succ_le isMore, ?_⟩
        rintro rfl
        exact absurd isMore (Nat.not_succ_le_self _)

/-- A walk behind some terminals is in the final state before its first step. -/
def IsDone
    (automaton : Automaton)
    (front : List Terminal)
    (draws : List Nat) : Prop :=
  match front.getLast? with
  | none => automaton.initState = automaton.finalState
  | some last =>
      ∃ triggers idx trigger left,
        automaton.pda[last.state]? = some triggers ∧
          Rand.below triggers.length draws = some (idx, left) ∧
          triggers[idx]? = some trigger ∧
          trigger.dest = automaton.finalState

/-- Terminals are cut off, and the walk behind the others has no step. -/
def LosesTerminals
    (automaton : Automaton)
    (terminals : List Terminal)
    (draws : List Nat) : Prop :=
  ∃ size left,
    Rand.below (terminals.length + 1) draws = some (size, left) ∧
      size < terminals.length ∧
      IsDone automaton (terminals.take size) left

variable {draws : List Nat}

theorem satisfies_append_counter
    (fuel : Nat) :
    Satisfies (· = ⟨draws, front⟩) (appendGeneratedTerminals automaton fuel)
      (fun counter now =>
        counter = 0 → now.own = front ∧ IsDone automaton front draws)
      (fun _ _ => True) := by
  unfold appendGeneratedTerminals
  refine .bind_ok (rfl : outcome own _ = (.ok front, _)) ?_
  unfold IsDone
  cases isLast : front.getLast? with
  | none =>
      exact satisfies_of_meets (meets_generateFrom_counter fuel _ 0)
        fun _ _ reached => reached.2
  | some last =>
      dsimp only
      unfold drawTrigger
      cases isState : automaton.pda[last.state]? with
      | none =>
          exact fun _ _ => trivial
      | some triggers =>
          simp only [unwrap, bind_assoc, pure_bind]
          refine satisfies_below fun idx left isIdx => ?_
          cases isTrigger : triggers[idx]? with
          | none =>
              exact fun _ _ => trivial
          | some trigger =>
              simp only [pure_bind]
              refine satisfies_of_meets
                (meets_generateFrom_counter fuel trigger.dest 0) ?_
              intro counter now reached isZero
              obtain ⟨same, isFinal⟩ := reached.2 isZero
              exact ⟨same, triggers, idx, trigger, left, rfl, isIdx, isTrigger, isFinal⟩

theorem satisfies_regenerate_skipped
    (fuel : Nat) :
    Satisfies (· = ⟨draws, front⟩) (regenerate automaton fuel)
      (fun result now =>
        result = .skipped → now.own = front ∧ IsDone automaton front draws)
      (fun _ _ => True) := by
  refine .bind (satisfies_append_counter fuel) fun counter => .pure ?_
  intro now reached isSkipped
  refine reached (Nat.eq_zero_of_not_pos fun positive => ?_)
  rw [if_pos positive] at isSkipped
  cases isSkipped

theorem outcome_regenerate
    (isDone : IsDone automaton front draws) :
    ∃ left,
      outcome (regenerate automaton 1) ⟨draws, front⟩ =
        (.ok .skipped, ⟨left, front⟩) := by
  have stops :
      ∀ state left, state = automaton.finalState →
        outcome (generateFrom automaton 1 state 0) ⟨left, front⟩ =
          (.ok 0, ⟨left, front⟩) := by
    intro state left isFinal
    rw [generateFrom, if_pos isFinal, outcome_pure]
  suffices
      ∃ left,
        outcome (appendGeneratedTerminals automaton 1) ⟨draws, front⟩ =
          (.ok 0, ⟨left, front⟩) by
    obtain ⟨left, returned⟩ := this
    exact ⟨left, outcome_bind_ok returned⟩
  unfold IsDone at isDone
  unfold appendGeneratedTerminals
  rw [outcome_bind_ok outcome_own]
  cases isLast : front.getLast? with
  | none =>
      rw [isLast] at isDone
      exact ⟨draws, stops _ draws isDone⟩
  | some last =>
      rw [isLast] at isDone
      obtain ⟨triggers, idx, trigger, left, isState, isIdx, isTrigger, isFinal⟩ :=
        isDone
      refine ⟨left, ?_⟩
      dsimp only
      unfold drawTrigger
      rw [isState, unwrap_some, pure_bind, bind_assoc,
        outcome_bind_ok (outcome_below isIdx), isTrigger, unwrap_some, pure_bind,
        pure_bind]
      exact stops _ left isFinal

/-- What is returned as skipped leaves the view as it was at the start. -/
def LeavesSkipped
    {Own View : Type}
    (view : Own → View)
    (mutation : Mutation Own MutationResult)
    (start : Drawing Own) : Prop :=
  ∀ next, outcome mutation start = (.ok .skipped, next) →
    view next.own = view start.own

theorem LeavesSkipped.of_skips
    {Own View : Type}
    {view : Own → View}
    {mutation : Mutation Own MutationResult}
    {start : Drawing Own}
    (skips : SkipsUntouched view mutation) :
    LeavesSkipped view mutation start :=
  fun _ returned => skips.of_returned returned rfl

theorem leavesSkipped_mutateRandomly_iff
    {start : Drawing (List Terminal)} :
    (∀ fuel, LeavesSkipped id (mutateRandomly automaton fuel) start) ↔
      ¬LosesTerminals automaton start.own start.draws := by
  obtain ⟨draws, terminals⟩ := start
  constructor
  · rintro leaves ⟨size, left, isSize, isShort, isDone⟩
    obtain ⟨rest, returned⟩ := outcome_regenerate isDone
    have nonempty : ¬terminals.isEmpty = true := by
      rw [List.isEmpty_iff]
      rintro rfl
      exact absurd isShort (Nat.not_lt_zero size)
    have skipped :
        outcome (mutateRandomly automaton 1) ⟨draws, terminals⟩ =
          (.ok .skipped, ⟨rest, terminals.take size⟩) := by
      unfold mutateRandomly
      rw [outcome_bind_ok outcome_own, if_neg nonempty,
        outcome_bind_ok (outcome_below isSize)]
      exact returned
    have same : (terminals.take size).length = terminals.length :=
      congrArg List.length (leaves 1 _ skipped)
    rw [List.length_take] at same
    exact absurd same (Nat.ne_of_lt (min_lt_of_left_lt isShort))
  · intro keeps fuel next returned
    have reached :
        Satisfies (· = ⟨draws, terminals⟩) (mutateRandomly automaton fuel)
          (fun result now => result = .skipped → now.own = terminals)
          (fun _ _ => True) := by
      unfold mutateRandomly
      refine .bind_ok (rfl : outcome own _ = (.ok terminals, _)) ?_
      split
      · exact (satisfies_regenerate_skipped fuel).weaken (fun _ isStart => isStart)
          (fun _ _ reached isSkipped => (reached isSkipped).1) fun _ _ _ => trivial
      · refine satisfies_below fun size left isSize => ?_
        have cut :
            outcome (change (·.take size)) ⟨left, terminals⟩ =
              (.ok (), ⟨left, terminals.take size⟩) := rfl
        refine .bind_ok cut ?_
        refine (satisfies_regenerate_skipped fuel).weaken (fun _ isStart => isStart) ?_
          fun _ _ _ => trivial
        intro result now skips isSkipped
        obtain ⟨same, isDone⟩ := skips isSkipped
        have isLong : terminals.length ≤ size := by
          by_contra isShort
          exact keeps ⟨size, left, isSize, Nat.lt_of_not_le isShort, isDone⟩
        rw [same, List.take_of_length_le isLong]
    exact reached.of_ok rfl returned rfl

end

/-- A call of `mutate`, with what the mutator reads and the values it draws. -/
inductive Call where
  | byte
      (context : Context UInt8)
      (mutator : ByteMutator)
      (start : Drawing (Mutating UInt8))
  | encoded
      (context : Context UInt32)
      (mutator : EncodedMutator)
      (start : Drawing (Mutating UInt32))
  | token
      (context : TokenContext)
      (mutator : TokenMutator)
      (start : Drawing (Mutating UInt8))
  | grimoire
      (context : Grimoire.Context)
      (mutator : Grimoire.GrimoireMutator)
      (start : Drawing Grimoire.Generalizing)
  | gramatronRandom
      (automaton : Gramatron.Automaton)
      (start : Drawing (List Gramatron.Terminal))
  | gramatronSplice
      (context : Gramatron.Context)
      (start : Drawing (List Gramatron.Terminal))
  | gramatronRecursion (start : Drawing (List Gramatron.Terminal))

namespace Call

/-- A call that returns that it skipped has left the input as it was. -/
def LeavesSkippedInput : Call → Prop
  | byte context mutator start =>
      LeavesSkipped Mutating.input (mutator.mutate context) start
  | encoded context mutator start =>
      LeavesSkipped Mutating.input (mutator.mutate context) start
  | token context mutator start =>
      LeavesSkipped Mutating.input (mutator.mutate context) start
  | grimoire context mutator start =>
      ∀ fuel,
        LeavesSkipped Grimoire.Generalizing.generalized
          (Grimoire.mutate context fuel mutator) start
  | gramatronRandom automaton start =>
      ∀ fuel, LeavesSkipped id (Gramatron.mutateRandomly automaton fuel) start
  | gramatronSplice context start =>
      LeavesSkipped id (Gramatron.splice context) start
  | gramatronRecursion start =>
      LeavesSkipped id Gramatron.recur start

/-- A call of the random mutator cuts the input, and the automaton is done. -/
def CutsAtFinalState : Call → Prop
  | gramatronRandom automaton start =>
      LosesTerminals automaton start.own start.draws
  | _ => False

/-- What is skipped is untouched, except where terminals are cut off for nothing. -/
theorem leaves_skipped_input_iff
    (call : Call) :
    call.LeavesSkippedInput ↔ ¬call.CutsAtFinalState := by
  cases call with
  | byte context mutator start =>
      exact iff_of_true (.of_skips mutator.skips_untouched) id
  | encoded context mutator start =>
      exact iff_of_true (.of_skips mutator.skips_untouched) id
  | token context mutator start =>
      exact iff_of_true (.of_skips mutator.skips_untouched) id
  | grimoire context mutator start =>
      exact iff_of_true (fun _ => .of_skips (skips_grimoire mutator)) id
  | gramatronRandom automaton start =>
      exact leavesSkipped_mutateRandomly_iff
  | gramatronSplice context start =>
      exact iff_of_true (.of_skips skips_splice) id
  | gramatronRecursion start =>
      exact iff_of_true (.of_skips skips_recur) id

end Call

/-- An automaton for any number of letters in front of another one. -/
def lettersAutomaton : Gramatron.Automaton where
  finalState := 1
  initState := 0
  pda := [[⟨0, "a"⟩, ⟨1, "b"⟩]]

/-- The word `ab` is cut to `a`, and the automaton is done behind it. -/
theorem cut_word_is_skipped :
    ¬(Call.gramatronRandom lettersAutomaton
        ⟨[1, 1], [⟨0, 0, "a"⟩, ⟨0, 1, "b"⟩]⟩).LeavesSkippedInput := by
  intro leaves
  have returned :
      outcome (Gramatron.mutateRandomly lettersAutomaton 1)
          ⟨[1, 1], [⟨0, 0, "a"⟩, ⟨0, 1, "b"⟩]⟩ =
        (.ok .skipped, ⟨[], [⟨0, 0, "a"⟩]⟩) := rfl
  exact absurd (leaves 1 _ returned) (by decide)

end MeFuzz.Mutators
