import Mathlib

namespace MeFuzz

/-!
# Runs of labelled transition relations

Every stateful component of this development is a relation between a state, a
label, and a next state.  This module fixes what a finite run of such a
relation is and provides the induction rules used on it: invariants, guarded
runs, exact conditions, and forward simulation.  It also fixes the abstract
first-in-first-out channel that concrete channels are compared with.
-/

/-- A labelled transition relation. -/
abbrev StepRelation (State Label : Type*) :=
  State → Label → State → Prop

/-- The relation computed by a partial step function. -/
def StepRelation.ofFunction
    {State Label : Type*}
    (step? : State → Label → Option State) :
    StepRelation State Label :=
  fun state label next => step? state label = some next

/-- A relation whose steps must also satisfy a guard in their source state. -/
def StepRelation.guarded
    {State Label : Type*}
    (step : StepRelation State Label)
    (guard : State → Label → Prop) :
    StepRelation State Label :=
  fun state label next => guard state label ∧ step state label next

/-- A finite run, with its labels in execution order. -/
inductive Run
    {State Label : Type*}
    (step : StepRelation State Label) :
    State → List Label → State → Prop where
  | nil (state : State) :
      Run step state [] state
  | cons
      {state next final : State}
      {label : Label}
      {rest : List Label} :
      step state label next →
      Run step next rest final →
      Run step state (label :: rest) final

namespace Run

variable {State Label : Type*}
variable {step : StepRelation State Label}

variable {label : Label}

theorem single
    {state next : State}
    (taken : step state label next) :
    Run step state [label] next :=
  .cons taken (.nil next)

theorem append
    {start middle final : State}
    {first second : List Label}
    (firstRun : Run step start first middle)
    (secondRun : Run step middle second final) :
    Run step start (first ++ second) final := by
  induction firstRun with
  | nil _ =>
      exact secondRun
  | cons taken _ ih =>
      exact .cons taken (ih secondRun)

variable {start final : State}

theorem of_append
    {first second : List Label}
    (run : Run step start (first ++ second) final) :
    ∃ middle,
      Run step start first middle ∧ Run step middle second final := by
  induction first generalizing start with
  | nil =>
      exact ⟨start, .nil start, run⟩
  | cons label rest ih =>
      cases run with
      | cons taken restRun =>
          obtain ⟨middle, firstRun, secondRun⟩ :=
            ih restRun
          exact ⟨middle, .cons taken firstRun, secondRun⟩

theorem of_snoc
    {earlier : List Label}
    (run : Run step start (earlier ++ [label]) final) :
    ∃ middle,
      Run step start earlier middle ∧ step middle label final := by
  obtain ⟨middle, earlierRun, lastRun⟩ := run.of_append
  cases lastRun with
  | cons taken restRun =>
      cases restRun
      exact ⟨middle, earlierRun, taken⟩

theorem invariant
    {Invariant : State → Prop}
    (preserved :
      ∀ {state label next},
        Invariant state → step state label next → Invariant next)
    {start final : State}
    {labels : List Label}
    (run : Run step start labels final)
    (initially : Invariant start) :
    Invariant final := by
  induction run with
  | nil _ =>
      exact initially
  | cons taken _ ih =>
      exact ih (preserved initially taken)

/--
A property of the labels so far and the state, preserved by every step of a run,
holds at its end.
-/
theorem history
    {Property : List Label → State → Prop}
    {start final : State}
    {labels : List Label}
    (run : Run step start labels final)
    (initially : Property [] start)
    (preserved :
      ∀ {seen state label next},
        seen ++ [label] <+: labels →
        Run step start seen state →
        Property seen state →
        step state label next →
        Property (seen ++ [label]) next) :
    Property labels final := by
  suffices
      ∀ seen state, seen <+: labels → Run step start seen state →
        Property seen state from
    this labels final (List.prefix_refl labels) run
  intro seen
  induction seen using List.reverseRecOn with
  | nil =>
      intro state _ emptyRun
      cases emptyRun
      exact initially
  | append_singleton front label ih =>
      intro state isPrefix longRun
      obtain ⟨middle, frontRun, taken⟩ := longRun.of_snoc
      exact preserved isPrefix frontRun
        (ih middle
          ((List.prefix_append front [label]).trans isPrefix) frontRun)
        taken

theorem mono
    {other : StepRelation State Label}
    (weaker : ∀ {state label next},
      step state label next → other state label next)
    {start final : State}
    {labels : List Label}
    (run : Run step start labels final) :
    Run other start labels final := by
  induction run with
  | nil state =>
      exact .nil state
  | cons taken _ ih =>
      exact .cons (weaker taken) ih

variable {labels : List Label}

theorem unguarded
    {guard : State → Label → Prop}
    (run : Run (step.guarded guard) start labels final) :
    Run step start labels final :=
  run.mono And.right

theorem unique
    (functional :
      ∀ {state label next other},
        step state label next → step state label other → next = other)
    {start first second : State}
    {labels : List Label}
    (firstRun : Run step start labels first)
    (secondRun : Run step start labels second) :
    first = second := by
  induction firstRun with
  | nil _ =>
      cases secondRun
      rfl
  | cons firstTaken _ ih =>
      cases secondRun with
      | cons secondTaken secondRest =>
          obtain rfl := functional firstTaken secondTaken
          exact ih secondRest

theorem of_foldlM
    {step? : State → Label → Option State}
    (computed : labels.foldlM step? start = some final) :
    Run (StepRelation.ofFunction step?) start labels final := by
  induction labels generalizing start with
  | nil =>
      cases computed
      exact .nil final
  | cons label rest ih =>
      obtain ⟨next, taken, further⟩ :=
        Option.bind_eq_some_iff.mp computed
      exact .cons taken (ih further)

/-- Every state reached along the labels satisfies the property. -/
def Always
    (step : StepRelation State Label)
    (property : State → Prop)
    (start : State)
    (labels : List Label) : Prop :=
  ∀ earlier state,
    earlier <+: labels →
    Run step start earlier state →
    property state

/-- Every step taken along the labels satisfies the guard. -/
def Everywhere
    (step : StepRelation State Label)
    (guard : State → Label → Prop)
    (start : State)
    (labels : List Label) : Prop :=
  ∀ earlier label state next,
    earlier ++ [label] <+: labels →
    Run step start earlier state →
    step state label next →
    guard state label

/-- Every label is met in a state with the property, whether it can be taken or not. -/
def Throughout
    (step : StepRelation State Label)
    (property : State → Label → Prop)
    (start : State)
    (labels : List Label) : Prop :=
  ∀ earlier label state,
    earlier ++ [label] <+: labels →
    Run step start earlier state →
    property state label

theorem throughout_of_invariant
    {guard property : State → Label → Prop}
    {Invariant : State → Prop}
    (implies :
      ∀ {state label}, Invariant state → guard state label →
        property state label)
    (kept :
      ∀ {state label next},
        Invariant state → guard state label → step state label next →
        Invariant next)
    {start : State}
    {labels : List Label}
    (initially : Invariant start)
    (guarded : Throughout step guard start labels) :
    Throughout step property start labels := by
  intro earlier label state isPrefix run
  refine implies ?_ (guarded earlier label state isPrefix run)
  refine
    @history _ _ _ (fun _ state => Invariant state) _ _ _ run initially ?_
  intro seen middle other next isSeen seenRun invariant taken
  have isEarlier := isSeen.trans ((List.prefix_append _ _).trans isPrefix)
  exact kept invariant (guarded seen other middle isEarlier seenRun) taken

variable {property : State → Label → Prop}

theorem throughout_nil
    (start : State) :
    Throughout step property start [] := by
  rintro earlier label state ⟨later, split⟩ _
  simp at split

theorem throughout_cons
    {start : State}
    {rest : List Label}
    (holds : property start label)
    (onwards :
      ∀ {next}, step start label next → Throughout step property next rest) :
    Throughout step property start (label :: rest) := by
  rintro earlier other state ⟨later, split⟩ run
  cases run with
  | nil =>
      obtain rfl := (List.cons.inj split).1
      exact holds
  | @cons _ _ _ _ seen taken restRun =>
      obtain ⟨rfl, splitRest⟩ := List.cons.inj split
      exact onwards taken seen other state ⟨later, splitRest⟩ restRun

theorem throughout_singleton
    {start : State}
    (holds : property start label) :
    Throughout step property start [label] :=
  throughout_cons holds fun _ => throughout_nil _

/--
When a step leaves a property intact exactly under a guard, the property holds
along a whole run exactly if every step of that run meets the guard.
-/
theorem always_iff_everywhere
    {property : State → Prop}
    {guard : State → Label → Prop}
    (exact :
      ∀ {state label next},
        property state →
        step state label next →
        (property next ↔ guard state label))
    {start : State}
    (initially : property start)
    (labels : List Label) :
    Always step property start labels ↔
      Everywhere step guard start labels := by
  constructor
  · intro always earlier label state next isPrefix earlierRun taken
    have before : property state :=
      always earlier state
        ((List.prefix_append earlier [label]).trans isPrefix) earlierRun
    have after : property next :=
      always (earlier ++ [label]) next isPrefix
        (earlierRun.append (.single taken))
    exact (exact before taken).mp after
  · intro everywhere earlier
    induction earlier using List.reverseRecOn with
    | nil =>
        intro state _ emptyRun
        cases emptyRun
        exact initially
    | append_singleton front label ih =>
        intro final isPrefix run
        obtain ⟨state, frontRun, taken⟩ := run.of_snoc
        have before : property state :=
          ih state
            ((List.prefix_append front [label]).trans isPrefix) frontRun
        exact (exact before taken).mpr
          (everywhere front label state final isPrefix frontRun taken)

theorem invariant_of_everywhere
    {Invariant : State → Prop}
    {guard : State → Label → Prop}
    {start : State}
    (everywhere : Everywhere step guard start labels)
    (kept :
      ∀ {state label next},
        Invariant state → guard state label → step state label next →
        Invariant next)
    (initially : Invariant start) :
    Always step Invariant start labels := by
  intro seen state isPrefix run
  refine
    @history _ _ _ (fun _ state => Invariant state) _ _ _ run initially ?_
  intro front middle label next isFront frontRun invariant taken
  exact kept invariant
    (everywhere front label middle next (isFront.trans isPrefix) frontRun taken)
    taken

/--
The same with an invariant: under the guard a step keeps the invariant, and
without it the step loses the property.
-/
theorem always_iff_everywhere_of_invariant
    {property Invariant : State → Prop}
    {guard : State → Label → Prop}
    (implies : ∀ {state}, Invariant state → property state)
    (kept :
      ∀ {state label next},
        Invariant state → guard state label → step state label next →
        Invariant next)
    (needed :
      ∀ {state label next},
        Invariant state → step state label next → property next →
        guard state label)
    {start : State}
    (initially : Invariant start)
    (labels : List Label) :
    Always step property start labels ↔
      Everywhere step guard start labels := by
  constructor
  · intro always
    suffices
        ∀ seen state, seen <+: labels → Run step start seen state →
          Invariant state by
      intro seen label state next isPrefix run taken
      exact needed
        (this seen state ((List.prefix_append _ _).trans isPrefix) run) taken
        (always _ next isPrefix (run.append (.single taken)))
    intro seen state isPrefix run
    refine
      @history _ _ _ (fun _ state => Invariant state) _ _ _ run initially ?_
    intro front middle label next isFront frontRun invariant taken
    refine kept invariant (needed invariant taken ?_) taken
    exact always _ next (isFront.trans isPrefix)
      (frontRun.append (.single taken))
  · intro everywhere seen state isPrefix run
    exact implies
      (invariant_of_everywhere everywhere kept initially seen state isPrefix run)

/--
Two guards of steps that agree under an invariant, which they keep, hold along the
same runs.
-/
theorem everywhere_iff_everywhere
    {Invariant : State → Prop}
    {property guard : State → Label → Prop}
    (exact :
      ∀ {state label next},
        Invariant state → step state label next →
        (property state label ↔ guard state label))
    (kept :
      ∀ {state label next},
        Invariant state → guard state label → step state label next →
        Invariant next)
    {start : State}
    (initially : Invariant start)
    (labels : List Label) :
    Everywhere step property start labels ↔
      Everywhere step guard start labels := by
  constructor
  · intro everywhere earlier label state next isPrefix run taken
    have always :=
      invariant_of_everywhere everywhere
        (fun invariant holds taken =>
          kept invariant ((exact invariant taken).mp holds) taken)
        initially
    have isEarlier := (List.prefix_append earlier [label]).trans isPrefix
    exact (exact (always earlier state isEarlier run) taken).mp
      (everywhere earlier label state next isPrefix run taken)
  · intro everywhere earlier label state next isPrefix run taken
    have always := invariant_of_everywhere everywhere kept initially
    have isEarlier := (List.prefix_append earlier [label]).trans isPrefix
    exact (exact (always earlier state isEarlier run) taken).mpr
      (everywhere earlier label state next isPrefix run taken)

/--
Forward simulation: a relation that every concrete step carries along to an
abstract run carries whole concrete runs along.
-/
theorem simulation
    {AbstractState AbstractLabel : Type*}
    {abstractStep : StepRelation AbstractState AbstractLabel}
    {Related : State → AbstractState → Prop}
    {observe : Label → List AbstractLabel}
    (simulates :
      ∀ {state label next abstractState},
        Related state abstractState →
        step state label next →
        ∃ abstractNext,
          Run abstractStep abstractState (observe label) abstractNext ∧
            Related next abstractNext)
    {start final : State}
    {labels : List Label}
    (run : Run step start labels final)
    {abstractStart : AbstractState}
    (related : Related start abstractStart) :
    ∃ abstractFinal,
      Run abstractStep abstractStart (labels.flatMap observe)
          abstractFinal ∧
        Related final abstractFinal := by
  induction run generalizing abstractStart with
  | nil _ =>
      exact ⟨abstractStart, .nil abstractStart, related⟩
  | cons taken _ ih =>
      obtain ⟨abstractMiddle, headRun, middleRelated⟩ :=
        simulates related taken
      obtain ⟨abstractFinal, restRun, finalRelated⟩ :=
        ih middleRelated
      exact ⟨abstractFinal, by
        simpa using headRun.append restRun, finalRelated⟩

end Run

namespace Fifo

/-- Observable actions of a first-in-first-out channel. -/
inductive Action (Message : Type*) where
  | enqueue : Message → Action Message
  | dequeue : Message → Action Message
  deriving Repr, DecidableEq

/-- The specification: enqueue at the back, dequeue at the front. -/
inductive Step {Message : Type*} :
    StepRelation (List Message) (Action Message) where
  | enqueue (queue : List Message) (message : Message) :
      Step queue (.enqueue message) (queue ++ [message])
  | dequeue (message : Message) (queue : List Message) :
      Step (message :: queue) (.dequeue message) queue

namespace Action

/-- The message put in by an action, if any. -/
def enqueued? : Action Message → Option Message
  | .enqueue message => some message
  | .dequeue _ => none

/-- The message taken out by an action, if any. -/
def dequeued? : Action Message → Option Message
  | .enqueue _ => none
  | .dequeue message => some message

end Action

/-- Messages put into the channel, in order. -/
def enqueued (actions : List (Action Message)) : List Message :=
  actions.filterMap Action.enqueued?

/-- Messages taken out of the channel, in order. -/
def dequeued (actions : List (Action Message)) : List Message :=
  actions.filterMap Action.dequeued?

@[simp] theorem enqueued_append
    (first second : List (Action Message)) :
    enqueued (first ++ second) = enqueued first ++ enqueued second :=
  List.filterMap_append

@[simp] theorem dequeued_append
    (first second : List (Action Message)) :
    dequeued (first ++ second) = dequeued first ++ dequeued second :=
  List.filterMap_append

@[simp] theorem enqueued_enqueues (messages : List Message) :
    enqueued (messages.map .enqueue) = messages := by
  induction messages with
  | nil =>
      rfl
  | cons message rest ih =>
      exact congrArg (message :: ·) ih

@[simp] theorem dequeued_enqueues (messages : List Message) :
    dequeued (messages.map .enqueue) = [] := by
  induction messages with
  | nil =>
      rfl
  | cons _ _ ih =>
      exact ih

/--
Along a channel run, the initial content and the messages put in are the
messages taken out followed by the content left.
-/
theorem run_conserves
    {start final : List Message}
    {actions : List (Action Message)}
    (run : Run Step start actions final) :
    start ++ enqueued actions = dequeued actions ++ final := by
  induction run with
  | nil queue =>
      simp [enqueued, dequeued]
  | cons taken _ ih =>
      cases taken with
      | enqueue queue message =>
          simpa [enqueued, dequeued, List.filterMap_cons,
            Action.enqueued?, Action.dequeued?] using
            ih
      | dequeue message queue =>
          simpa [enqueued, dequeued, List.filterMap_cons,
            Action.enqueued?, Action.dequeued?] using
            ih

theorem run_enqueue
    (queue messages : List Message) :
    Run Step queue (messages.map .enqueue) (queue ++ messages) := by
  induction messages generalizing queue with
  | nil =>
      rw [List.append_nil]
      exact .nil queue
  | cons message rest ih =>
      refine .cons (.enqueue queue message) ?_
      simpa using ih (queue ++ [message])

theorem dequeued_prefix
    {final : List Message}
    {actions : List (Action Message)}
    (run : Run Step [] actions final) :
    dequeued actions <+: enqueued actions :=
  ⟨final, by simpa using (run_conserves run).symm⟩

end Fifo

end MeFuzz
