import MeFuzz.TransitionRun

namespace MeFuzz

/-!
# Procedures that may fail

A procedure works on a state and either returns or fails.  What it did to the
state before it failed stays.  This module gives the outcome of the ways to
build procedures, and the rules for their pre- and postconditions.
-/

/-- A procedure that works on a state and may fail. -/
abbrev Procedure (Failure State Value : Type) :=
  ExceptT Failure (StateM State) Value

namespace Procedure

variable {Failure State Value Result Item : Type}

/-- What a procedure returns or fails with, and the state it leaves. -/
def outcome
    (procedure : Procedure Failure State Value)
    (state : State) : Except Failure Value × State :=
  procedure.run.run state

section

variable {state : State}

@[simp] theorem outcome_pure
    (value : Value) :
    outcome (pure value : Procedure Failure State Value) state =
      (.ok value, state) :=
  rfl

@[simp] theorem outcome_throw
    (failure : Failure) :
    outcome (throw failure : Procedure Failure State Value) state =
      (.error failure, state) :=
  rfl

@[simp] theorem outcome_get :
    outcome (get : Procedure Failure State State) state = (.ok state, state) :=
  rfl

@[simp] theorem outcome_set
    (next : State) :
    outcome (set next : Procedure Failure State PUnit) state =
      (.ok ⟨⟩, next) :=
  rfl

@[simp] theorem outcome_modify
    (change : State → State) :
    outcome (modify change : Procedure Failure State PUnit) state =
      (.ok ⟨⟩, change state) :=
  rfl

@[simp] theorem outcome_lift
    (result : Except Failure Value) :
    outcome (liftM result : Procedure Failure State Value) state =
      (result, state) :=
  rfl

@[simp] theorem outcome_adapt
    {Other : Type}
    (change : Failure → Other)
    (procedure : Procedure Failure State Value) :
    outcome (ExceptT.adapt change procedure : Procedure Other State Value) state =
      ((outcome procedure state).1.mapError change, (outcome procedure state).2) := by
  rfl

theorem outcome_bind
    (procedure : Procedure Failure State Value)
    (rest : Value → Procedure Failure State Result) :
    outcome (procedure >>= rest) state =
      match outcome procedure state with
      | (.ok value, next) => outcome (rest value) next
      | (.error failure, next) => (.error failure, next) := by
  unfold outcome
  simp only [ExceptT.run_bind, StateT.run_bind]
  cases (ExceptT.run procedure).run state with
  | mk result next =>
      cases result <;> rfl

theorem outcome_bind_ok
    {procedure : Procedure Failure State Value}
    {rest : Value → Procedure Failure State Result}
    {value : Value}
    {next : State}
    (returned : outcome procedure state = (.ok value, next)) :
    outcome (procedure >>= rest) state = outcome (rest value) next := by
  rw [outcome_bind, returned]

theorem outcome_bind_error
    {procedure : Procedure Failure State Value}
    {rest : Value → Procedure Failure State Result}
    {failure : Failure}
    {next : State}
    (failed : outcome procedure state = (.error failure, next)) :
    outcome (procedure >>= rest) state = (.error failure, next) := by
  rw [outcome_bind, failed]

end

/--
From a state with the precondition, a procedure returns with the one
postcondition or fails with the other.
-/
def Satisfies
    (before : State → Prop)
    (procedure : Procedure Failure State Value)
    (after : Value → State → Prop)
    (failed : Failure → State → Prop) : Prop :=
  ∀ state, before state →
    match outcome procedure state with
    | (.ok value, next) => after value next
    | (.error failure, next) => failed failure next

namespace Satisfies

variable {before : State → Prop}
variable {after : Value → State → Prop}
variable {failed : Failure → State → Prop}
variable {procedure : Procedure Failure State Value}

theorem weaken
    {stronger : State → Prop}
    {weaker : Value → State → Prop}
    {weakerFailed : Failure → State → Prop}
    (satisfies : Satisfies before procedure after failed)
    (starts : ∀ state, stronger state → before state)
    (returns : ∀ value state, after value state → weaker value state)
    (fails :
      ∀ failure state, failed failure state → weakerFailed failure state) :
    Satisfies stronger procedure weaker weakerFailed := by
  intro state holds
  have reached := satisfies state (starts state holds)
  generalize outcome procedure state = result at reached ⊢
  obtain ⟨result, next⟩ := result
  cases result with
  | ok value =>
      exact returns value next reached
  | error failure =>
      exact fails failure next reached

theorem starting
    {stronger : State → Prop}
    (satisfies : Satisfies before procedure after failed)
    (starts : ∀ state, stronger state → before state) :
    Satisfies stronger procedure after failed :=
  fun state holds => satisfies state (starts state holds)

theorem failing
    {weakerFailed : Failure → State → Prop}
    (satisfies : Satisfies before procedure after failed)
    (fails :
      ∀ failure state, failed failure state → weakerFailed failure state) :
    Satisfies before procedure after weakerFailed :=
  satisfies.weaken (fun _ holds => holds) (fun _ _ holds => holds) fails

theorem of_outcome
    (known :
      ∀ state, before state →
        (∃ value next,
          outcome procedure state = (.ok value, next) ∧ after value next) ∨
        ∃ failure next,
          outcome procedure state = (.error failure, next) ∧
            failed failure next) :
    Satisfies before procedure after failed := by
  intro state holds
  rcases known state holds with
    ⟨value, next, returned, reached⟩ | ⟨failure, next, hasFailed, reached⟩
  · rwa [returned]
  · rwa [hasFailed]

variable {state next : State}
variable {value : Value}

theorem of_ok
    (satisfies : Satisfies before procedure after failed)
    (holds : before state)
    (returned : outcome procedure state = (.ok value, next)) :
    after value next := by
  have reached := satisfies state holds
  rwa [returned] at reached

theorem of_error
    (satisfies : Satisfies before procedure after failed)
    {failure : Failure}
    (holds : before state)
    (hasFailed : outcome procedure state = (.error failure, next)) :
    failed failure next := by
  have reached := satisfies state holds
  rwa [hasFailed] at reached

theorem pure
    (holds : ∀ state, before state → after value state) :
    Satisfies before (Pure.pure value : Procedure Failure State Value) after
      failed :=
  holds

theorem bind
    {middle : Value → State → Prop}
    {after : Result → State → Prop}
    {rest : Value → Procedure Failure State Result}
    (first : Satisfies before procedure middle failed)
    (second :
      ∀ value, Satisfies (middle value) (rest value) after failed) :
    Satisfies before (procedure >>= rest) after failed := by
  intro state holds
  rw [outcome_bind]
  have reached := first state holds
  generalize outcome procedure state = result at reached ⊢
  obtain ⟨result, next⟩ := result
  cases result with
  | ok value =>
      exact second value next reached
  | error failure =>
      exact reached

variable {after : Result → State → Prop}
variable {rest : Value → Procedure Failure State Result}

theorem through
    (middle : State → Prop)
    (first : Satisfies before procedure (fun _ => middle) failed)
    (second : ∀ value, Satisfies middle (rest value) after failed) :
    Satisfies before (procedure >>= rest) after failed :=
  bind first second

theorem bind_ok
    (returned : outcome procedure state = (.ok value, next))
    (later : Satisfies (· = next) (rest value) after failed) :
    Satisfies (· = state) (procedure >>= rest) after failed := by
  rintro _ rfl
  rw [outcome_bind_ok returned]
  exact later next rfl

theorem bind_error
    {failure : Failure}
    (hasFailed : outcome procedure state = (.error failure, next))
    (reached : failed failure next) :
    Satisfies (· = state) (procedure >>= rest) after failed := by
  rintro _ rfl
  rw [outcome_bind_error hasFailed]
  exact reached

/--
A loop over a list.  The invariant knows the items that are done and what has
been accumulated.
-/
theorem foldlM
    {Invariant : List Item → Value → State → Prop}
    {body : Value → Item → Procedure Failure State Value}
    {items : List Item}
    (each :
      ∀ done item rest value,
        items = done ++ item :: rest →
        Satisfies (Invariant done value) (body value item)
          (Invariant (done ++ [item])) failed)
    (initial : Value) :
    Satisfies (Invariant [] initial) (items.foldlM body initial)
      (Invariant items) failed := by
  suffices
      ∀ rest done value, items = done ++ rest →
        Satisfies (Invariant done value) (rest.foldlM body value)
          (Invariant items) failed from
    this items [] initial rfl
  intro rest
  induction rest with
  | nil =>
      intro done value split
      rw [List.append_nil] at split
      exact split ▸ pure fun _ holds => holds
  | cons item rest ih =>
      intro done value split
      rw [List.foldlM_cons]
      exact bind (each done item rest value split) fun next =>
        ih (done ++ [item]) next (by simp [split])

theorem forM
    (Invariant : List Item → State → Prop)
    {body : Item → Procedure Failure State PUnit}
    {items : List Item}
    (each :
      ∀ done item rest,
        items = done ++ item :: rest →
        Satisfies (Invariant done) (body item)
          (fun _ => Invariant (done ++ [item])) failed) :
    Satisfies (Invariant []) (ForM.forM items body) (fun _ => Invariant items)
      failed := by
  suffices
      ∀ rest done, items = done ++ rest →
        Satisfies (Invariant done) (ForM.forM rest body) (fun _ => Invariant items)
          failed from
    this items [] rfl
  intro rest
  induction rest with
  | nil =>
      intro done split
      rw [List.append_nil] at split
      exact split ▸ pure fun _ holds => holds
  | cons item rest ih =>
      intro done split
      rw [List.forM_cons]
      exact bind (each done item rest split) fun _ =>
        ih (done ++ [item]) (by simp [split])

end Satisfies

/-- A procedure keeps an invariant, with what it returns and fails with. -/
def Preserves
    (Invariant : State → Prop)
    (procedure : Procedure Failure State Value)
    (Returns : Value → Prop)
    (Fails : Failure → Prop) : Prop :=
  Satisfies Invariant procedure
    (fun value state => Returns value ∧ Invariant state)
    (fun failure _ => Fails failure)

namespace Preserves

variable {Invariant : State → Prop}
variable {procedure : Procedure Failure State Value}
variable {Returns : Value → Prop}
variable {Fails : Failure → Prop}

theorem pure
    {value : Value}
    (returns : Returns value) :
    Preserves Invariant (Pure.pure value : Procedure Failure State Value)
      Returns Fails :=
  fun _ holds => ⟨returns, holds⟩

theorem bind
    {After : Result → Prop}
    {rest : Value → Procedure Failure State Result}
    (first : Preserves Invariant procedure Returns Fails)
    (second :
      ∀ value, Returns value → Preserves Invariant (rest value) After Fails) :
    Preserves Invariant (procedure >>= rest) After Fails :=
  Satisfies.bind first fun value state reached =>
    second value reached.1 state reached.2

theorem andThen
    {after : Result → State → Prop}
    {rest : Value → Procedure Failure State Result}
    (first : Preserves Invariant procedure Returns Fails)
    (second :
      ∀ value, Returns value →
        Satisfies Invariant (rest value) after fun failure _ => Fails failure) :
    Satisfies Invariant (procedure >>= rest) after fun failure _ => Fails failure :=
  Satisfies.bind first fun value state reached =>
    second value reached.1 state reached.2

theorem get :
    Preserves Invariant (get : Procedure Failure State State) Invariant
      Fails :=
  fun _ holds => ⟨holds, holds⟩

theorem modify
    {change : State → State}
    (kept : ∀ state, Invariant state → Invariant (change state)) :
    Preserves Invariant (modify change : Procedure Failure State PUnit)
      (fun _ => True) Fails :=
  fun state holds => ⟨trivial, kept state holds⟩

theorem lift
    {result : Except Failure Value}
    (returns : ∀ value, result = .ok value → Returns value)
    (fails : ∀ failure, result = .error failure → Fails failure) :
    Preserves Invariant (liftM result : Procedure Failure State Value) Returns
      Fails := by
  intro state holds
  rw [outcome_lift]
  cases result with
  | ok value =>
      exact ⟨returns value rfl, holds⟩
  | error failure =>
      exact fails failure rfl

theorem forM
    {body : Item → Procedure Failure State PUnit}
    (items : List Item)
    (each :
      ∀ item, Preserves Invariant (body item) (fun _ => True) Fails) :
    Preserves Invariant (ForM.forM items body) (fun _ => True) Fails :=
  (Satisfies.forM (fun _ => Invariant) fun _ item _ _ =>
    (each item).weaken (fun _ holds => holds) (fun _ _ holds => holds.2)
      fun _ _ fails => fails).weaken
    (fun _ holds => holds) (fun _ _ holds => ⟨trivial, holds⟩) fun _ _ fails => fails

theorem weaken
    {Weaker : Value → Prop}
    (preserves : Preserves Invariant procedure Returns Fails)
    (returns : ∀ value, Returns value → Weaker value) :
    Preserves Invariant procedure Weaker Fails :=
  Satisfies.weaken preserves (fun _ holds => holds)
    (fun value _ reached => ⟨returns value reached.1, reached.2⟩)
    (fun _ _ fails => fails)

end Preserves

/-- A procedure keeps an invariant whether it returns or fails. -/
def Keeps
    (Invariant : State → Prop)
    (procedure : Procedure Failure State Value) : Prop :=
  Satisfies Invariant procedure (fun _ => Invariant) fun _ => Invariant

namespace Keeps

variable {Invariant : State → Prop}
variable {procedure : Procedure Failure State Value}

theorem pure
    {value : Value} :
    Keeps Invariant (Pure.pure value : Procedure Failure State Value) :=
  fun _ holds => holds

theorem bind
    {rest : Value → Procedure Failure State Result}
    (first : Keeps Invariant procedure)
    (second : ∀ value, Keeps Invariant (rest value)) :
    Keeps Invariant (procedure >>= rest) :=
  Satisfies.bind first second

theorem get :
    Keeps Invariant (get : Procedure Failure State State) :=
  fun _ holds => holds

theorem modify
    {change : State → State}
    (kept : ∀ state, Invariant state → Invariant (change state)) :
    Keeps Invariant (modify change : Procedure Failure State PUnit) :=
  kept

theorem of_left
    (left : ∀ state, Invariant state → Invariant (outcome procedure state).2) :
    Keeps Invariant procedure := by
  intro state holds
  have reached := left state holds
  generalize outcome procedure state = result at reached ⊢
  obtain ⟨result, next⟩ := result
  cases result <;> exact reached

theorem left
    (keeps : Keeps Invariant procedure)
    {state : State}
    (holds : Invariant state) :
    Invariant (outcome procedure state).2 := by
  have reached := keeps state holds
  generalize outcome procedure state = result at reached ⊢
  obtain ⟨result, next⟩ := result
  cases result <;> exact reached

end Keeps

variable {Label : Type}

/-- The state after a sequence of procedures, if all of them return. -/
def replay
    (perform : Label → Procedure Failure State Unit) :
    State → List Label → Option State
  | state, [] => some state
  | state, label :: rest =>
      match outcome (perform label) state with
      | (.ok _, next) => replay perform next rest
      | (.error _, _) => none

theorem run_of_replay
    {perform : Label → Procedure Failure State Unit}
    {step : StepRelation State Label}
    (taken :
      ∀ {state label next},
        outcome (perform label) state = (.ok (), next) →
        step state label next)
    {start final : State}
    {labels : List Label}
    (replays : replay perform start labels = some final) :
    Run step start labels final := by
  induction labels generalizing start with
  | nil =>
      cases replays
      exact .nil _
  | cons label rest ih =>
      rw [replay] at replays
      split at replays
      · rename_i returned
        exact .cons (taken returned) (ih replays)
      · cases replays

end Procedure

end MeFuzz
