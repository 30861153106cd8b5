import MeFuzz.TMinStage

namespace MeFuzz.TMin

open Corpus (CorpusId Error InMemoryCorpus)
open Procedure

/-!
# The size limit after a minimization

The loop sets `max_size` to the length of its base.  Only the normal end of the stage
sets it back.
-/

variable {Input Observers Other Value : Type}
variable {parts : Parts Input Observers Other}
variable {baseCorpusIdx : CorpusId}
variable {origHash num limit i : Nat}
variable {original base : Input}
variable {state next : State Input Observers Other}

/-- The limit in a state. -/
def Limited (limit : Nat) (state : State Input Observers Other) : Prop :=
  state.maxSize = limit

theorem limited_executes :
    ExecutionFrame (Limited limit : State Input Observers Other → Prop) where
  execute _ _ limited := limited
  count _ limited := limited

theorem limited_processes :
    ProcessingFrame (Limited limit : State Input Observers Other → Prop) where
  call _ limited := limited
  add _ limited := limited
  solve _ limited := limited

theorem tryShorter_limited
    {input : Input} :
    Satisfies (Limited limit) (tryShorter parts origHash base input i)
      (fun answer state =>
        (answer.2 = (base, i + 1) ∨ answer.2.2 = 0) ∧ Limited limit state)
      fun _ => Limited limit := by
  refine Satisfies.bind (limited_executes.executeInput_keeps input) fun exitKind => ?_
  refine Satisfies.bind Keeps.get fun _ => ?_
  refine Satisfies.bind Keeps.get fun _ => ?_
  refine Satisfies.bind (Keeps.modify fun _ limited => limited) fun _ => ?_
  refine Satisfies.bind (limited_processes.processExecution_keeps input exitKind)
    fun corpusIdx => ?_
  refine Satisfies.bind Keeps.get fun _ => ?_
  refine Satisfies.bind Keeps.get fun _ => ?_
  split
  · have compares : Keeps (Limited limit) (isInteresting parts origHash) :=
      Keeps.get.bind fun _ => .pure
    refine Satisfies.bind compares fun isSame => ?_
    split
    · refine Satisfies.bind (Keeps.modify fun _ limited => limited) fun _ => ?_
      exact .pure fun _ limited => ⟨.inr rfl, limited⟩
    · exact .pure fun _ limited => ⟨.inl rfl, limited⟩
  · exact .pure fun _ limited => ⟨.inl rfl, limited⟩

theorem iteration_limited :
    Satisfies (fun _ => True) (iteration parts origHash base i)
      (fun next state =>
        (next = (base, i + 1) ∨ next.2 = 0) ∧ Limited (parts.length base) state)
      fun _ => Limited (parts.length base) := by
  have sets :
      Satisfies (fun _ : State Input Observers Other => True)
        (modify fun state => { state with maxSize := parts.length base } :
          Stage Input Observers Other Unit)
        (fun _ => Limited (parts.length base))
        fun _ => Limited (parts.length base) :=
    fun _ _ => rfl
  refine sets.bind fun _ => ?_
  refine Satisfies.bind (limited_processes.call_keeps _) fun input => ?_
  have tried :
      Satisfies (Limited (parts.length base)) (tryInput parts origHash base input i)
        (fun answer state =>
          (answer.2 = (base, i + 1) ∨ answer.2.2 = 0) ∧
            Limited (parts.length base) state)
        fun _ => Limited (parts.length base) := by
    unfold tryInput
    split
    · exact tryShorter_limited
    · exact .pure fun _ limited => ⟨.inl rfl, limited⟩
  refine tried.bind ?_
  rintro ⟨corpusIdx, next⟩
  have told :
      Satisfies
        (fun state : State Input Observers Other =>
          (next = (base, i + 1) ∨ next.2 = 0) ∧ Limited (parts.length base) state)
        (call (parts.postExec i corpusIdx))
        (fun _ state =>
          (next = (base, i + 1) ∨ next.2 = 0) ∧ Limited (parts.length base) state)
        fun _ => Limited (parts.length base) :=
    Satisfies.failing (Keeps.of_left fun _ holds => holds) fun _ _ holds => holds.2
  exact told.bind fun _ => .pure fun _ holds => holds

/--
From a base and a state of the loop, a call fails while the loop works on that last base,
or while the entry is replaced by it.
-/
inductive FailsWith
    (parts : Parts Input Observers Other)
    (baseCorpusIdx : CorpusId)
    (original : Input)
    (num origHash : Nat)
    (last : Input) :
    Input → Nat → State Input Observers Other → Prop where
  | iterating
      {i : Nat}
      {state next : State Input Observers Other}
      {error : Error}
      (tries : i < num)
      (fails : (iteration parts origHash last i).outcome state = (.error error, next)) :
      FailsWith parts baseCorpusIdx original num origHash last last i state
  | later
      {base : Input}
      {i : Nat}
      {after : Input × Nat}
      {state next : State Input Observers Other}
      (tries : i < num)
      (goesOn : (iteration parts origHash base i).outcome state = (.ok after, next))
      (fails :
        FailsWith parts baseCorpusIdx original num origHash last after.1 after.2 next) :
      FailsWith parts baseCorpusIdx original num origHash last base i state
  | replacing
      {i : Nat}
      {state next : State Input Observers Other}
      {error : Error}
      (done : num ≤ i)
      (differs : parts.hash original ≠ parts.hash last)
      (fails :
        (replaceEntry parts baseCorpusIdx last).outcome state = (.error error, next)) :
      FailsWith parts baseCorpusIdx original num origHash last last i state

/-- The loop and what comes after it. -/
def shrinkAndFinish
    (parts : Parts Input Observers Other)
    (baseCorpusIdx : CorpusId)
    (original : Input)
    (num origHash limit fuel : Nat)
    (base : Input)
    (i : Nat) : Stage Input Observers Other (Option Unit) := do
  match ← shrink parts num origHash fuel base i with
  | none => pure none
  | some smaller =>
      finish parts baseCorpusIdx original smaller limit
      pure (some ())

section

variable {fuel : Nat}
variable {last : Input}
variable {answer : Except Error (Option Unit)}

theorem shrinkAndFinish_tries
    (tries : i < num) :
    (shrinkAndFinish parts baseCorpusIdx original num origHash limit (fuel + 1) base
        i).outcome state =
      outcome
        (do
          let next ← iteration parts origHash base i
          shrinkAndFinish parts baseCorpusIdx original num origHash limit fuel
            next.1 next.2)
        state := by
  unfold shrinkAndFinish
  rw [shrink, if_neg (Nat.not_le_of_lt tries), bind_assoc]

theorem shrinkAndFinish_done
    (done : num ≤ i) :
    (shrinkAndFinish parts baseCorpusIdx original num origHash limit (fuel + 1) base
        i).outcome state =
      outcome
        (do
          finish parts baseCorpusIdx original base limit
          pure (some ()))
        state := by
  unfold shrinkAndFinish
  rw [shrink, if_pos done, pure_bind]

theorem replaceEntry_limited :
    Keeps (Limited limit) (replaceEntry parts baseCorpusIdx base) := by
  refine (limited_executes.executeInput_keeps base).bind fun exitKind => ?_
  refine (Keeps.modify fun _ limited => ?_).bind fun _ => ?_
  · exact limited
  refine (limited_processes.call_keeps _).bind fun _ => ?_
  refine Keeps.get.bind fun _ => ?_
  refine (limited_processes.call_keeps _).bind fun _ => ?_
  refine Keeps.get.bind fun before => ?_
  refine Keeps.bind (.of_left fun state limited => ?_) fun replaced => ?_
  · rw [outcome_lift]
    exact limited
  · refine (Keeps.modify fun _ limited => ?_).bind fun _ => limited_processes.call_keeps _
    exact limited

theorem finish_limit :
    Satisfies (· = state) (finish parts baseCorpusIdx original base limit)
      (fun _ => Limited limit)
      fun _ next =>
        next.maxSize = state.maxSize ∧
          parts.hash original ≠ parts.hash base ∧
          ∃ error, (replaceEntry parts baseCorpusIdx base).outcome state = (.error error, next) := by
  rintro state rfl
  unfold finish
  by_cases differs : parts.hash original ≠ parts.hash base
  · rw [if_pos differs]
    cases told : (replaceEntry parts baseCorpusIdx base).outcome state with
    | mk answer next =>
        cases answer with
        | error error =>
            rw [outcome_bind_error told]
            exact ⟨replaceEntry_limited.of_error rfl told, differs, error, rfl⟩
        | ok _ =>
            rw [outcome_bind_ok told]
            exact rfl
  · rw [if_neg differs]
    exact rfl

/-- The limit is the length of the base, unless the base is still the entry's own. -/
def LimitedBy
    (parts : Parts Input Observers Other)
    (original base : Input)
    (state : State Input Observers Other) : Prop :=
  base = original ∨ state.maxSize = parts.length base

theorem limitedBy_iteration
    {after : Input × Nat}
    (tries : i < num)
    (goesOn : (iteration parts origHash base i).outcome state = (.ok after, next))
    (done : num ≤ after.2) :
    LimitedBy parts original after.1 next := by
  obtain ⟨rfl | restarts, limited⟩ := iteration_limited.of_ok trivial goesOn
  · exact .inr limited
  · rw [restarts] at done
    exact absurd (Nat.lt_of_lt_of_le tries done) (Nat.not_lt_zero _)

theorem FailsWith.limit_left
    (fails : FailsWith parts baseCorpusIdx original num origHash last base i state)
    (limited : num ≤ i → LimitedBy parts original base state)
    (ended :
      (shrinkAndFinish parts baseCorpusIdx original num origHash limit fuel base i).outcome
        state = (answer, next))
    (exits : answer ≠ .ok none) :
    next.maxSize = parts.length last := by
  induction fails generalizing fuel with
  | iterating tries fails =>
      cases fuel with
      | zero =>
          cases ended
          exact absurd rfl exits
      | succ fuel =>
          rw [shrinkAndFinish_tries tries, outcome_bind_error fails] at ended
          cases ended
          exact iteration_limited.of_error trivial fails
  | later tries goesOn fails ih =>
      cases fuel with
      | zero =>
          cases ended
          exact absurd rfl exits
      | succ fuel =>
          rw [shrinkAndFinish_tries tries, outcome_bind_ok goesOn] at ended
          exact ih (limitedBy_iteration tries goesOn) ended
  | replacing done differs fails =>
      cases fuel with
      | zero =>
          cases ended
          exact absurd rfl exits
      | succ fuel =>
          have replaced := fails
          rw [shrinkAndFinish_done done, finish, if_pos differs, bind_assoc,
            outcome_bind_error fails] at ended
          cases ended
          have kept := replaceEntry_limited.of_error rfl replaced
          exact kept.trans ((limited done).resolve_left fun same => differs (by rw [same]))

theorem failsWith_of_error
    {error : Error}
    (ended :
      (shrinkAndFinish parts baseCorpusIdx original num origHash limit fuel base i).outcome
        state = (.error error, next)) :
    ∃ last, FailsWith parts baseCorpusIdx original num origHash last base i state := by
  induction fuel generalizing base i state with
  | zero =>
      cases ended
  | succ fuel ih =>
      by_cases done : num ≤ i
      · rw [shrinkAndFinish_done done] at ended
        cases told : (finish parts baseCorpusIdx original base limit).outcome state with
        | mk answer after =>
            cases answer with
            | error _ =>
                obtain ⟨-, differs, error, fails⟩ := finish_limit.of_error rfl told
                exact ⟨base, .replacing done differs fails⟩
            | ok _ =>
                rw [outcome_bind_ok told] at ended
                cases ended
      · have tries : i < num := Nat.lt_of_not_le done
        rw [shrinkAndFinish_tries tries] at ended
        cases told : (iteration parts origHash base i).outcome state with
        | mk answer after =>
            cases answer with
            | error _ =>
                exact ⟨base, .iterating tries told⟩
            | ok _ =>
                rw [outcome_bind_ok told] at ended
                obtain ⟨last, fails⟩ := ih ended
                exact ⟨last, .later tries told fails⟩

theorem limited_of_done
    (ended :
      (shrinkAndFinish parts baseCorpusIdx original num origHash limit fuel base i).outcome
        state = (.ok (some ()), next)) :
    next.maxSize = limit := by
  induction fuel generalizing base i state with
  | zero =>
      cases ended
  | succ fuel ih =>
      by_cases done : num ≤ i
      · rw [shrinkAndFinish_done done] at ended
        cases told : (finish parts baseCorpusIdx original base limit).outcome state with
        | mk answer after =>
            cases answer with
            | error _ =>
                rw [outcome_bind_error told] at ended
                cases ended
            | ok _ =>
                rw [outcome_bind_ok told] at ended
                cases ended
                exact finish_limit.of_ok rfl told
      · have tries : i < num := Nat.lt_of_not_le done
        rw [shrinkAndFinish_tries tries] at ended
        cases told : (iteration parts origHash base i).outcome state with
        | mk answer after =>
            cases answer with
            | error _ =>
                rw [outcome_bind_error told] at ended
                cases ended
            | ok _ =>
                rw [outcome_bind_ok told] at ended
                exact ih ended

variable (parts baseCorpusIdx state last) in
/-- The stage comes to its loop, and then fails with this last base. -/
def FailsInLoop : Prop :=
  ∃ num called entry exitKind executed,
    (call (parts.iterations baseCorpusIdx)).outcome { state with found := [] } =
        (.ok num, called) ∧
      called.corpus.get baseCorpusIdx = .ok entry ∧
      (executeInput parts entry.input).outcome called = (.ok exitKind, executed) ∧
      FailsWith parts baseCorpusIdx entry.input num (parts.mapHash executed.observers)
        last entry.input 0 executed

theorem shrinkAndFinish_restores_iff
    (ended :
      (shrinkAndFinish parts baseCorpusIdx original num origHash limit fuel original
        0).outcome state = (answer, next))
    (exits : answer ≠ .ok none) :
    next.maxSize = limit ↔
      ∀ last,
        FailsWith parts baseCorpusIdx original num origHash last original 0 state →
        parts.length last = limit := by
  constructor
  · intro restored last fails
    exact (fails.limit_left (fun _ => .inl rfl) ended exits).symm.trans restored
  · intro sameLength
    rcases answer with error | _ | _
    · obtain ⟨last, fails⟩ := failsWith_of_error ended
      exact (fails.limit_left (fun _ => .inl rfl) ended exits).trans (sameLength last fails)
    · exact absurd rfl exits
    · exact limited_of_done ended

/--
Whenever the stage exits, the limit is what it was on entry, just as long as nothing
fails in the loop; a failure leaves the length of the base that it happened with.
-/
theorem max_size_restored_iff
    (ended :
      (performMinification parts fuel baseCorpusIdx).outcome state = (answer, next))
    (exits : answer ≠ .ok none) :
    next.maxSize = state.maxSize ↔
      ∀ last,
        FailsInLoop parts baseCorpusIdx state last →
        parts.length last = state.maxSize := by
  unfold performMinification at ended
  rw [outcome_bind_ok outcome_get, outcome_bind_ok (outcome_modify _)] at ended
  cases asked : (call (parts.iterations baseCorpusIdx)).outcome { state with found := [] } with
  | mk counted called =>
  have limitedCalled :
      Limited state.maxSize
        ((call (parts.iterations baseCorpusIdx)).outcome { state with found := [] }).2 :=
    (limited_processes.call_keeps _).left rfl
  rw [asked] at limitedCalled
  cases counted with
  | error _ =>
      rw [outcome_bind_error asked] at ended
      cases ended
      refine iff_of_true limitedCalled ?_
      rintro last ⟨num, _, _, _, _, told, -⟩
      cases asked.symm.trans told
  | ok num =>
  rw [outcome_bind_ok asked, outcome_bind_ok outcome_get] at ended
  cases got : called.corpus.get baseCorpusIdx with
  | error _ =>
      rw [got, outcome_bind_error (outcome_lift _)] at ended
      cases ended
      refine iff_of_true limitedCalled ?_
      rintro last ⟨_, _, _, _, _, told, found, -⟩
      cases asked.symm.trans told
      cases got.symm.trans found
  | ok entry =>
  rw [got, outcome_bind_ok (outcome_lift _)] at ended
  have limitedExecuted :
      Limited state.maxSize ((executeInput parts entry.input).outcome called).2 :=
    (limited_executes.executeInput_keeps entry.input).left limitedCalled
  cases executes : (executeInput parts entry.input).outcome called with
  | mk exitKind executed =>
  rw [executes] at limitedExecuted
  cases exitKind with
  | error _ =>
      rw [outcome_bind_error executes] at ended
      cases ended
      refine iff_of_true limitedExecuted ?_
      rintro last ⟨_, _, _, _, _, told, found, ran, -⟩
      cases asked.symm.trans told
      cases got.symm.trans found
      cases executes.symm.trans ran
  | ok exitKind =>
  rw [outcome_bind_ok executes, outcome_bind_ok outcome_get] at ended
  refine (shrinkAndFinish_restores_iff ended exits).trans ?_
  constructor
  · rintro sameLength last ⟨_, _, _, _, _, told, found, ran, fails⟩
    cases asked.symm.trans told
    cases got.symm.trans found
    cases executes.symm.trans ran
    exact sameLength last fails
  · intro sameLength last fails
    exact sameLength last ⟨num, called, entry, exitKind, executed, asked, got, executes, fails⟩

end

/-- A mutator that fails in its first call. -/
def failingParts : Parts (List Nat) Nat Unit :=
  { droppingParts with mutate := fun _ _ state => (.error .file, state.other) }

/-- The entry has four bytes, so the limit sinks from ten to four. -/
theorem failed_mutation_lowers_limit :
    ((performMinification failingParts 20 0).outcome (oneEntry [0, 0, 1, 2])).1 =
        .error .file ∧
      ((performMinification failingParts 20 0).outcome (oneEntry [0, 0, 1, 2])).2.maxSize ≠
        (oneEntry [0, 0, 1, 2]).maxSize := by
  decide +kernel

theorem max_size_restored_iff_dropping :
    ((performMinification droppingParts 20 0).outcome (oneEntry [0, 0, 1, 2])).2.maxSize =
        (oneEntry [0, 0, 1, 2]).maxSize ↔
      ∀ last,
        FailsInLoop droppingParts 0 (oneEntry [0, 0, 1, 2]) last →
        last.length = 10 :=
  max_size_restored_iff (Prod.mk.eta).symm (by decide +kernel)

end MeFuzz.TMin
