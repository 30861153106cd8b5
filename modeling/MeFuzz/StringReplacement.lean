import MeFuzz.GrimoireShape
import MeFuzz.LeftmostOccurrences

namespace MeFuzz.Grimoire

open Mutators Occurrences Procedure

/-!
# Replacing a token in the bytes of an input

The loop of the string replacement walks over bytes that it changes.  What is left
of it is compared with the bytes in which each leftmost occurrence is replaced.
-/

section

variable {find replacement : Bytes}
variable {result : MutationResult}
variable {fuel : Nat}

theorem goes_on_iff
    {done rest : Bytes} :
    (find.length ≤ (done ++ rest).length ∧
        done.length < (done ++ rest).length - find.length) ↔
      find.length < rest.length := by
  rw [List.length_append]
  omega

theorem replaceToken_eq
    (some : find ≠ [])
    {done rest : Bytes}
    (enough : rest.length < fuel) :
    ∃ final,
      replaceToken find replacement false fuel done.length (done ++ rest) result =
        Option.some
          (done ++ spellInner find replacement (pieces find rest), final, false) := by
  induction fuel generalizing done rest result with
  | zero =>
      cases enough
  | succ fuel ih =>
      have positive := List.length_pos_iff.mpr some
      rw [replaceToken]
      by_cases long : find.length < rest.length
      · rw [if_pos (goes_on_iff.mpr long), List.drop_left]
        by_cases isPrefix : find <+: rest
        · rw [if_pos (List.isPrefixOf_iff_prefix.mpr isPrefix)]
          obtain ⟨after, rfl⟩ := isPrefix
          rw [List.length_append] at long enough
          have left :
              (done ++ (find ++ after)).take done.length ++ replacement ++
                  (done ++ (find ++ after)).drop (done.length + find.length) =
                (done ++ replacement) ++ after := by
            simp [← List.drop_drop]
          have someAfter : pieces find after ≠ [] :=
            pieces_ne_nil (List.ne_nil_of_length_pos (by omega))
          obtain ⟨final, replaced⟩ :=
            @ih .mutated (done ++ replacement) after (by omega)
          rw [List.length_append] at replaced
          refine ⟨final, ?_⟩
          dsimp only
          rw [left, if_neg Bool.false_ne_true, replaced, pieces_append some,
            spellInner_cons someAfter, List.append_assoc]
          rfl
        · rw [if_neg (mt List.isPrefixOf_iff_prefix.mp isPrefix)]
          obtain ⟨byte, after, rfl⟩ : ∃ byte after, rest = byte :: after :=
            List.exists_cons_of_ne_nil (List.ne_nil_of_length_pos (by omega))
          rw [List.length_cons] at long enough
          have someAfter : pieces find after ≠ [] :=
            pieces_ne_nil (List.ne_nil_of_length_pos (by omega))
          obtain ⟨final, replaced⟩ :=
            @ih result (done ++ [byte]) after (by omega)
          rw [List.length_append, List.length_singleton, List.append_assoc,
            List.singleton_append] at replaced
          refine ⟨final, ?_⟩
          rw [replaced, pieces_cons some isPrefix, spellInner_cons someAfter,
            List.append_assoc]
          rfl
      · rw [if_neg (mt goes_on_iff.mp long),
          spellInner_of_short some (Nat.not_lt.mp long)]
        exact ⟨result, rfl⟩

theorem replaceToken_nil
    {i : Nat}
    {bytes : Bytes}
    (inside : i < bytes.length) :
    replaceToken [] replacement false fuel i bytes result = none := by
  induction fuel generalizing i bytes result with
  | zero =>
      rfl
  | succ fuel ih =>
      have isPrefix : ([] : Bytes).isPrefixOf (bytes.drop i) = true := rfl
      rw [replaceToken, if_pos ⟨Nat.zero_le _, inside⟩, if_pos isPrefix]
      dsimp only
      rw [if_neg Bool.false_ne_true]
      refine ih ?_
      simp only [List.length_append, List.length_take, List.length_drop,
        List.length_nil]
      omega

theorem isSome_replaceToken_first
    {i : Nat}
    {bytes : Bytes}
    (enough : bytes.length - i < fuel) :
    (replaceToken find replacement true fuel i bytes result).isSome := by
  induction fuel generalizing i with
  | zero =>
      cases enough
  | succ fuel ih =>
      rw [replaceToken]
      split
      · split
        · rfl
        · exact ih (by omega)
      · rfl

/-- The bytes of an item, with each leftmost occurrence replaced. -/
def replaceItem (find replacement : Bytes) : GeneralizedItem → GeneralizedItem
  | .bytes content => .bytes (replaceAll find replacement content)
  | .gap => .gap

/-- The bytes of an item, with each but one at the very end replaced. -/
def replaceInner (find replacement : Bytes) : GeneralizedItem → GeneralizedItem
  | .bytes content => .bytes (spellInner find replacement (pieces find content))
  | .gap => .gap

/-- A token that can be looked for: it is not empty, or there are no bytes. -/
def CanBeSought (find : Bytes) (items : List GeneralizedItem) : Prop :=
  find = [] → ∀ content, .bytes content ∈ items → content = []

theorem replaceToken_inner
    {content : Bytes}
    (sought : find = [] → content = [])
    (enough : content.length < fuel) :
    ∃ final,
      replaceToken find replacement false fuel 0 content result =
        some (spellInner find replacement (pieces find content), final, false) := by
  by_cases isEmpty : find = []
  · obtain rfl := isEmpty
    obtain rfl := sought rfl
    cases fuel with
    | zero =>
        cases enough
    | succ fuel =>
        exact ⟨result, rfl⟩
  · exact @replaceToken_eq find replacement result fuel isEmpty [] content enough

theorem replaceInItems_inner
    {items : List GeneralizedItem}
    (sought : CanBeSought find items)
    (enough : ∀ content, .bytes content ∈ items → content.length < fuel) :
    ∃ final,
      replaceInItems fuel find replacement false items result =
        some (items.map (replaceInner find replacement), final) := by
  induction items generalizing result with
  | nil =>
      exact ⟨result, rfl⟩
  | cons item rest ih =>
      have soughtRest : CanBeSought find rest := fun isEmpty content member =>
        sought isEmpty content (List.mem_cons_of_mem _ member)
      have enoughRest : ∀ content, .bytes content ∈ rest → content.length < fuel :=
        fun content member => enough content (List.mem_cons_of_mem _ member)
      cases item with
      | gap =>
          obtain ⟨final, replaced⟩ :=
            @ih result soughtRest enoughRest
          exact ⟨final, by rw [replaceInItems, replaced]; rfl⟩
      | bytes content =>
          obtain ⟨middle, first⟩ :=
            @replaceToken_inner find replacement result fuel content
              (fun isEmpty => sought isEmpty content List.mem_cons_self)
              (enough content List.mem_cons_self)
          obtain ⟨final, replaced⟩ :=
            @ih middle soughtRest enoughRest
          refine ⟨final, ?_⟩
          rw [replaceInItems, first]
          simp only [Option.bind_eq_bind, Option.bind_some, Bool.false_eq_true,
            if_false, replaced]
          rfl

theorem replaceInItems_hangs_of_nil
    {items : List GeneralizedItem}
    {content : Bytes}
    (member : .bytes content ∈ items)
    (some : content ≠ []) :
    replaceInItems fuel [] replacement false items result = none := by
  induction items generalizing result with
  | nil =>
      cases member
  | cons item rest ih =>
      cases item with
      | gap =>
          have later : .bytes content ∈ rest := by simpa using member
          rw [replaceInItems, ih later]
          rfl
      | bytes first =>
          by_cases isEmpty : first = []
          · subst isEmpty
            have later : .bytes content ∈ rest := by simpa [some] using member
            cases fuel with
            | zero =>
                rfl
            | succ fuel =>
                obtain ⟨middle, walked⟩ :=
                  @replaceToken_inner [] replacement result (fuel + 1) []
                    (fun _ => rfl) (Nat.succ_pos fuel)
                rw [replaceInItems, walked]
                simp only [Option.bind_eq_bind, Option.bind_some,
                  Bool.false_eq_true, if_false, ih later,
                  Option.bind_none]
          · rw [replaceInItems,
              replaceToken_nil (List.length_pos_iff.mpr isEmpty)]
            rfl

theorem isSome_replaceInItems_first
    {items : List GeneralizedItem}
    (enough : ∀ content, .bytes content ∈ items → content.length < fuel) :
    (replaceInItems fuel find replacement true items result).isSome := by
  induction items generalizing result with
  | nil =>
      rfl
  | cons item rest ih =>
      have enoughRest : ∀ content, .bytes content ∈ rest → content.length < fuel :=
        fun content member => enough content (List.mem_cons_of_mem _ member)
      cases item with
      | gap =>
          obtain ⟨⟨others, final⟩, replaced⟩ :=
            Option.isSome_iff_exists.mp (@ih result enoughRest)
          rw [replaceInItems, replaced]
          rfl
      | bytes content =>
          obtain ⟨⟨first, middle, stops⟩, walked⟩ :=
            Option.isSome_iff_exists.mp
              (@isSome_replaceToken_first find replacement result fuel 0 content
                (enough content List.mem_cons_self))
          obtain ⟨⟨others, final⟩, replaced⟩ :=
            Option.isSome_iff_exists.mp (@ih middle enoughRest)
          rw [replaceInItems, walked]
          cases stops <;> simp [replaced]

theorem outcome_replaceTokens_first
    {stopAtFirst : Bool}
    {randIdx : Nat}
    {draws : List Nat}
    {start : Generalizing}
    {front : List GeneralizedItem}
    (isFront :
      replaceInItems fuel find replacement stopAtFirst
        (start.generalized.take randIdx) .skipped = some (front, result))
    (enough : ¬(result = .skipped ∨ stopAtFirst = false)) :
    outcome (replaceTokens fuel find replacement stopAtFirst randIdx)
        ⟨draws, start⟩ =
      (.ok result,
        ⟨draws,
          { start with generalized := front ++ start.generalized.drop randIdx }⟩) := by
  unfold replaceTokens
  rw [outcome_bind_ok outcome_own]
  dsimp only
  rw [isFront]
  simp only [finishes, pure_bind, if_neg enough]
  rfl

theorem outcome_replaceTokens_second
    {stopAtFirst : Bool}
    {randIdx : Nat}
    {draws : List Nat}
    {start : Generalizing}
    {front back : List GeneralizedItem}
    {final : MutationResult}
    (isFront :
      replaceInItems fuel find replacement stopAtFirst
        (start.generalized.take randIdx) .skipped = some (front, result))
    (goesOn : result = .skipped ∨ stopAtFirst = false)
    (isBack :
      replaceInItems fuel find replacement stopAtFirst
        (start.generalized.drop randIdx) result = some (back, final)) :
    outcome (replaceTokens fuel find replacement stopAtFirst randIdx)
        ⟨draws, start⟩ =
      (.ok final, ⟨draws, { start with generalized := front ++ back }⟩) := by
  unfold replaceTokens
  rw [outcome_bind_ok outcome_own]
  dsimp only
  rw [isFront]
  simp only [finishes, pure_bind, if_pos goesOn, isBack]
  rfl

theorem outcome_replaceTokens_nil
    {randIdx : Nat}
    {draws : List Nat}
    {start : Generalizing}
    {content : Bytes}
    (member : .bytes content ∈ start.generalized)
    (some : content ≠ []) :
    (outcome (replaceTokens fuel [] replacement false randIdx)
        ⟨draws, start⟩).1 = .error .hangs := by
  unfold replaceTokens
  rw [outcome_bind_ok outcome_own]
  dsimp only
  rw [← List.take_append_drop randIdx start.generalized, List.mem_append] at member
  cases isFront :
      replaceInItems fuel [] replacement false (start.generalized.take randIdx)
        .skipped with
  | none =>
      rfl
  | some walked =>
      rcases member with inFront | inBack
      · rw [replaceInItems_hangs_of_nil inFront some] at isFront
        cases isFront
      · simp only [finishes, pure_bind, or_true, if_true,
          replaceInItems_hangs_of_nil inBack some]
        rfl

theorem outcome_replaceTokens_inner
    {randIdx : Nat}
    {draws : List Nat}
    {start : Generalizing}
    (sought : CanBeSought find start.generalized)
    (enough :
      ∀ content, .bytes content ∈ start.generalized → content.length < fuel) :
    ∃ final,
      outcome (replaceTokens fuel find replacement false randIdx) ⟨draws, start⟩ =
        (.ok final,
          ⟨draws,
            { start with
              generalized :=
                start.generalized.map (replaceInner find replacement) }⟩) := by
  obtain ⟨middle, isFront⟩ :=
    @replaceInItems_inner find replacement .skipped fuel
      (start.generalized.take randIdx)
      (fun isEmpty content member =>
        sought isEmpty content (List.mem_of_mem_take member))
      fun content member => enough content (List.mem_of_mem_take member)
  obtain ⟨final, isBack⟩ :=
    @replaceInItems_inner find replacement middle fuel
      (start.generalized.drop randIdx)
      (fun isEmpty content member =>
        sought isEmpty content (List.mem_of_mem_drop member))
      fun content member => enough content (List.mem_of_mem_drop member)
  refine ⟨final, ?_⟩
  rw [outcome_replaceTokens_second isFront (.inr rfl) isBack, ← List.map_append,
    List.take_append_drop]

theorem outcome_replaceTokens_once
    {randIdx : Nat}
    {draws : List Nat}
    {start : Generalizing}
    (enough :
      ∀ content, .bytes content ∈ start.generalized → content.length < fuel) :
    ∃ final left,
      outcome (replaceTokens fuel find replacement true randIdx) ⟨draws, start⟩ =
        (.ok final, ⟨draws, left⟩) := by
  obtain ⟨⟨front, middle⟩, isFront⟩ :=
    Option.isSome_iff_exists.mp
      (@isSome_replaceInItems_first find replacement .skipped fuel
        (start.generalized.take randIdx) fun content member =>
          enough content (List.mem_of_mem_take member))
  obtain ⟨⟨back, final⟩, isBack⟩ :=
    Option.isSome_iff_exists.mp
      (@isSome_replaceInItems_first find replacement middle fuel
        (start.generalized.drop randIdx) fun content member =>
          enough content (List.mem_of_mem_drop member))
  by_cases goesOn : middle = .skipped ∨ true = false
  · exact ⟨_, _, outcome_replaceTokens_second isFront goesOn isBack⟩
  · exact ⟨_, _, outcome_replaceTokens_first isFront goesOn⟩

/--
The loops end if they have enough steps, and where more than one replacement is
wanted, they replace each leftmost occurrence in the bytes of each item.
-/
def ReplacesAll
    (find replacement : Bytes)
    (stopAtFirst : Bool)
    (randIdx : Nat)
    (start : Generalizing) : Prop :=
  ∃ enough, ∀ fuel ≥ enough, ∀ draws, ∃ final left,
    outcome (replaceTokens fuel find replacement stopAtFirst randIdx)
        ⟨draws, start⟩ = (.ok final, ⟨draws, left⟩) ∧
      (stopAtFirst = false →
        left.generalized = start.generalized.map (replaceItem find replacement))

theorem exists_enough
    (items : List GeneralizedItem) :
    ∃ fuel, ∀ content, .bytes content ∈ items → content.length < fuel := by
  refine ⟨generalizedLen items + 1, fun content member => Nat.lt_succ_of_le ?_⟩
  exact List.le_sum_of_mem (List.mem_map_of_mem member)

theorem map_replaceInner_eq_iff
    {items : List GeneralizedItem} :
    items.map (replaceInner find replacement) =
        items.map (replaceItem find replacement) ↔
      replacement = find ∨
        ∀ content, .bytes content ∈ items → ¬EndsInOccurrence find content := by
  have each (content : Bytes) :
      replaceInner find replacement (.bytes content) =
          replaceItem find replacement (.bytes content) ↔
        replacement = find ∨ ¬EndsInOccurrence find content := by
    rw [replaceInner, replaceItem, GeneralizedItem.bytes.injEq]
    exact spellInner_eq_spell_iff find replacement (pieces find content)
  rw [List.map_inj_left]
  constructor
  · intro same
    by_cases itself : replacement = find
    · exact .inl itself
    · exact .inr fun content member =>
        ((each content).mp (same _ member)).resolve_left itself
  · intro none item member
    cases item with
    | gap =>
        rfl
    | bytes content =>
        exact (each content).mpr (none.imp id fun noEnd => noEnd content member)

/--
The token is replaced everywhere just if one replacement is wanted only, or the
token can be sought and no item has it at its very end, unless it is replaced by
itself.
-/
theorem replacesAll_iff
    (find replacement : Bytes)
    (stopAtFirst : Bool)
    (randIdx : Nat)
    (start : Generalizing) :
    ReplacesAll find replacement stopAtFirst randIdx start ↔
      stopAtFirst = true ∨
        CanBeSought find start.generalized ∧
          (replacement = find ∨
            ∀ content, .bytes content ∈ start.generalized →
              ¬EndsInOccurrence find content) := by
  obtain ⟨size, isEnough⟩ := exists_enough start.generalized
  cases stopAtFirst with
  | true =>
      refine iff_of_true ⟨size, fun fuel long draws => ?_⟩ (.inl rfl)
      obtain ⟨final, left, ends⟩ :=
        @outcome_replaceTokens_once find replacement fuel randIdx draws start
          fun content member => (isEnough content member).trans_le long
      exact ⟨final, left, ends, by simp⟩
  | false =>
      rw [or_iff_right Bool.false_ne_true, ← map_replaceInner_eq_iff]
      constructor
      · rintro ⟨enough, replaces⟩
        obtain ⟨final, left, ends, all⟩ :=
          replaces (max enough size) (le_max_left _ _) []
        have sought : CanBeSought find start.generalized := by
          rintro rfl content member
          by_contra some
          have hangs :=
            @outcome_replaceTokens_nil replacement (max enough size) randIdx []
              start content member some
          rw [ends] at hangs
          cases hangs
        obtain ⟨otherFinal, inner⟩ :=
          @outcome_replaceTokens_inner find replacement (max enough size) randIdx
            [] start sought fun content member =>
              (isEnough content member).trans_le (le_max_right _ _)
        rw [ends] at inner
        obtain rfl := (Drawing.mk.inj (Prod.mk.inj inner).2).2
        exact ⟨sought, all rfl⟩
      · rintro ⟨sought, same⟩
        refine ⟨size, fun fuel long draws => ?_⟩
        obtain ⟨final, inner⟩ :=
          @outcome_replaceTokens_inner find replacement fuel randIdx draws start
            sought fun content member => (isEnough content member).trans_le long
        exact ⟨final, _, inner, fun _ => same⟩

/-- A token that is all there is between two gaps. -/
def tokenBetweenGaps : Generalizing where
  generalized := [.gap, .bytes [97, 98], .gap]
  scratch := []
  gapIndices := []

/-- The token at the very end is not replaced. -/
theorem token_at_end_is_missed :
    ¬ReplacesAll [97, 98] [99] false 0 tokenBetweenGaps := by
  rintro ⟨enough, replaces⟩
  obtain ⟨final, left, ends, all⟩ := replaces (enough + 1) (Nat.le_succ _) []
  have missed :
      outcome (replaceTokens (enough + 1) [97, 98] [99] false 0)
          ⟨[], tokenBetweenGaps⟩ =
        (.ok .skipped, ⟨[], tokenBetweenGaps⟩) :=
    rfl
  obtain rfl := (Drawing.mk.inj (Prod.mk.inj (missed.symm.trans ends)).2).2
  exact absurd (all rfl) (by decide)

end

end MeFuzz.Grimoire
