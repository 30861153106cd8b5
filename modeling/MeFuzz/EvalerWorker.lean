import MeFuzz.TransitionRun
import MeFuzz.Entities

namespace MeFuzz.EvalerWorker

/-!
# The evaler worker

The worker collects testcases in a buffer and flushes it when the buffer is
full or a ticker fires.  Everything it sends to a channel may block, so what a
flush decided and what it has done so far are separate parts of the state.
-/

/-- How a call of `Evaluate` ends. -/
inductive EvaluateResult where
  | success (evalDataList : List EvaluatingData)
  | failure
  | stopElement

/-- What the worker does to its surroundings. -/
inductive Effect where
  | addTestcases
      (tcList : List Testcase) (evalDataList : List EvaluatingData)
  | elementDeleted (element : ElementID)
  | resend (tc : Testcase)
  | needMoreFuzzers

/-- The branch of the select loop that called `flush`. -/
inductive Caller where
  | tick
  | receive
  deriving Repr, DecidableEq

/-- Where the worker's goroutine stands. -/
inductive Phase where
  | selecting
  | evaluating (attempt : Nat) (caller : Caller)
  | acting (effect : Effect) (later : List Effect) (caller : Caller)
  | notifying
  | returned

structure Worker where
  element : ElementID
  tcBuf : List Testcase
  secondChance : Bool
  cancelled : Bool
  phase : Phase

def evalRetryCount : Nat := 1

def bufferMaxSize : Nat := 32

/-- One step of the worker, or a call of `Stop` from outside. -/
inductive Label where
  | tick
  | receive (tc : Testcase)
  | stop
  | done
  | evaluated
      (attempt : Nat) (tcList : List Testcase) (result : EvaluateResult)
  | effect (effect : Effect)

/-- A worker whose `Run` has just started. -/
def newEvaler (element : ElementID) : Worker where
  element := element
  tcBuf := []
  secondChance := true
  cancelled := false
  phase := .selecting

namespace Worker

/-- The rest of the branch that called `flush`. -/
def afterFlush (worker : Worker) : Caller → Worker
  | .receive => { worker with secondChance := true, phase := .selecting }
  | .tick =>
      if worker.secondChance then
        { worker with secondChance := false, phase := .selecting }
      else
        { worker with phase := .notifying }

/-- The start of `flush`. -/
def flush (worker : Worker) (caller : Caller) : Worker :=
  match worker.tcBuf with
  | [] => worker.afterFlush caller
  | _ :: _ => { worker with phase := .evaluating 0 caller }

/-- A testcase taken from `testcaseChan`. -/
def received (worker : Worker) (tc : Testcase) : Worker :=
  let buffered : Worker := { worker with tcBuf := worker.tcBuf ++ [tc] }
  if buffered.tcBuf.length = bufferMaxSize then buffered.flush .receive
  else buffered.afterFlush .receive

/-- What `flush` does with the result of one call of `Evaluate`. -/
def evaluated
    (worker : Worker)
    (attempt : Nat)
    (caller : Caller) : EvaluateResult → Worker
  | .stopElement =>
      -- The buffer is sent back, but it is not emptied.
      { worker with
        cancelled := true
        phase := .acting (.elementDeleted worker.element)
          (worker.tcBuf.map .resend) caller }
  | .failure =>
      if attempt + 1 < evalRetryCount + 1 then
        { worker with phase := .evaluating (attempt + 1) caller }
      else
        ({ worker with tcBuf := [] } : Worker).afterFlush caller
  | .success evalDataList =>
      { worker with
        tcBuf := []
        phase := .acting (.addTestcases worker.tcBuf evalDataList) []
          caller }

end Worker

/-- One step of the worker. -/
inductive Step : StepRelation Worker Label where
  | tick
      {worker : Worker} :
      worker.phase = .selecting →
      Step worker .tick (worker.flush .tick)
  | receive
      {worker : Worker}
      (tc : Testcase) :
      worker.phase = .selecting →
      Step worker (.receive tc) (worker.received tc)
  | stop
      {worker : Worker} :
      Step worker .stop { worker with cancelled := true }
  | done
      {worker : Worker} :
      worker.phase = .selecting →
      worker.cancelled = true →
      Step worker .done { worker with phase := .returned }
  | evaluated
      {worker : Worker}
      {attempt : Nat}
      {caller : Caller}
      (result : EvaluateResult) :
      worker.phase = .evaluating attempt caller →
      Step worker (.evaluated attempt worker.tcBuf result)
        (worker.evaluated attempt caller result)
  | effect
      {worker : Worker}
      {effect next : Effect}
      {later : List Effect}
      {caller : Caller} :
      worker.phase = .acting effect (next :: later) caller →
      Step worker (.effect effect)
        { worker with phase := .acting next later caller }
  | lastEffect
      {worker : Worker}
      {effect : Effect}
      {caller : Caller} :
      worker.phase = .acting effect [] caller →
      Step worker (.effect effect) (worker.afterFlush caller)
  | notified
      {worker : Worker} :
      worker.phase = .notifying →
      Step worker (.effect .needMoreFuzzers)
        { worker with secondChance := true, phase := .selecting }

namespace Effect

/-- The testcases that an effect passes on. -/
def testcases : Effect → List Testcase
  | .addTestcases tcList _ => tcList
  | .resend tc => [tc]
  | .elementDeleted _ => []
  | .needMoreFuzzers => []

/-- Whether the effect announces the end of the element. -/
def isDeletion : Effect → Bool
  | .elementDeleted _ => true
  | .addTestcases _ _ => false
  | .resend _ => false
  | .needMoreFuzzers => false

end Effect

namespace Label

/-- Whether `Evaluate` has reported the end of the element. -/
def isStopElement : Label → Bool
  | .evaluated _ _ .stopElement => true
  | _ => false

/-- Whether the select loop takes a tick or a testcase. -/
def takesWork : Label → Bool
  | .tick => true
  | .receive _ => true
  | _ => false

/-- The testcase taken from `testcaseChan`. -/
def received : Label → List Testcase
  | .receive tc => [tc]
  | _ => []

/-- The testcases passed to `AddTestcases`. -/
def stored : Label → List Testcase
  | .effect (.addTestcases tcList _) => tcList
  | _ => []

/-- The testcase sent back to `testcaseChan`. -/
def handedBack : Label → List Testcase
  | .effect (.resend tc) => [tc]
  | _ => []

/-- The testcases given up after the last ordinary error. -/
def discarded : Label → List Testcase
  | .evaluated attempt tcList .failure =>
      if attempt = evalRetryCount then tcList else []
  | _ => []

/-- How often the label announces the end of the element. -/
def deletions : Label → Nat
  | .effect (.elementDeleted _) => 1
  | _ => 0

end Label

/-- How many labels announced the end of the element. -/
def deletions (labels : List Label) : Nat :=
  (labels.map Label.deletions).sum

@[simp] theorem deletions_snoc
    (labels : List Label)
    (label : Label) :
    deletions (labels ++ [label]) = deletions labels + label.deletions := by
  simp [deletions]

/-- Once `Evaluate` reported the end, the loop takes no more work. -/
def QuietAfterStop (labels : List Label) : Prop :=
  labels.Pairwise fun earlier later =>
    earlier.isStopElement = true → later.takesWork = false

namespace Phase

/-- The effects that the worker is still busy with. -/
def pending : Phase → List Effect
  | .acting effect later _ => effect :: later
  | .notifying => [.needMoreFuzzers]
  | .selecting => []
  | .evaluating _ _ => []
  | .returned => []

end Phase

/--
The testcases that the worker still holds: those it is about to pass on, and
its buffer, unless the buffer is what it sends back.
-/
def Worker.inHand (worker : Worker) (sentBack : Bool) : List Testcase :=
  worker.phase.pending.flatMap Effect.testcases ++
    if sentBack then [] else worker.tcBuf

/-- Every testcase is accounted for, and the end is announced once. -/
structure Accounted (labels : List Label) (worker : Worker) : Prop where
  conserved : ∀ tc : Testcase,
    (labels.flatMap Label.received).count tc =
      (labels.flatMap Label.stored).count tc +
        (labels.flatMap Label.handedBack).count tc +
        (labels.flatMap Label.discarded).count tc +
        (worker.inHand (labels.any Label.isStopElement)).count tc
  announced :
    deletions labels + worker.phase.pending.countP Effect.isDeletion =
      if labels.any Label.isStopElement then 1 else 0
  finished :
    labels.any Label.isStopElement = true →
      ∀ attempt caller, worker.phase ≠ .evaluating attempt caller
  attempts : ∀ attempt caller,
    worker.phase = .evaluating attempt caller → attempt ≤ evalRetryCount
  evaluated : ∀ tcList evalDataList,
    .effect (.addTestcases tcList evalDataList) ∈ labels ∨
        .addTestcases tcList evalDataList ∈ worker.phase.pending →
      ∃ attempt,
        .evaluated attempt tcList (.success evalDataList) ∈ labels

/-- The worker holds what is in this buffer and has nothing to pass on. -/
structure Settled (worker : Worker) (tcBuf : List Testcase) : Prop where
  tcBuf : worker.tcBuf = tcBuf
  pending :
    worker.phase.pending = [] ∨
      worker.phase.pending = [.needMoreFuzzers]

theorem afterFlush_settled
    (worker : Worker)
    (caller : Caller) :
    Settled (worker.afterFlush caller) worker.tcBuf := by
  cases caller with
  | receive =>
      exact ⟨rfl, .inl rfl⟩
  | tick =>
      simp only [Worker.afterFlush]
      split
      · exact ⟨rfl, .inl rfl⟩
      · exact ⟨rfl, .inr rfl⟩

theorem afterFlush_phase
    (worker : Worker)
    (caller : Caller)
    (attempt : Nat)
    (other : Caller) :
    (worker.afterFlush caller).phase ≠ .evaluating attempt other := by
  cases caller with
  | receive =>
      simp [Worker.afterFlush]
  | tick =>
      simp only [Worker.afterFlush]
      split <;> simp

theorem flush_settled
    (worker : Worker)
    (caller : Caller) :
    Settled (worker.flush caller) worker.tcBuf := by
  unfold Worker.flush
  split
  · exact afterFlush_settled worker caller
  · exact ⟨rfl, .inl rfl⟩

theorem flush_attempt
    {worker : Worker}
    {caller other : Caller}
    {attempt : Nat}
    (evaluating : (worker.flush caller).phase = .evaluating attempt other) :
    attempt = 0 := by
  unfold Worker.flush at evaluating
  split at evaluating
  · exact absurd evaluating (afterFlush_phase worker caller attempt other)
  · cases evaluating
    rfl

theorem received_settled
    (worker : Worker)
    (tc : Testcase) :
    Settled (worker.received tc) (worker.tcBuf ++ [tc]) := by
  simp only [Worker.received]
  split
  · exact flush_settled _ _
  · exact afterFlush_settled _ _

theorem received_attempt
    {worker : Worker}
    {tc : Testcase}
    {caller : Caller}
    {attempt : Nat}
    (evaluating : (worker.received tc).phase = .evaluating attempt caller) :
    attempt = 0 := by
  simp only [Worker.received] at evaluating
  split at evaluating
  · exact flush_attempt evaluating
  · exact absurd evaluating (afterFlush_phase _ _ _ _)

namespace Settled

variable {worker : Worker} {tcBuf : List Testcase}

theorem inHand
    (settled : Settled worker tcBuf)
    (sentBack : Bool) :
    worker.inHand sentBack = if sentBack then [] else tcBuf := by
  rw [Worker.inHand, settled.tcBuf]
  rcases settled.pending with nothing | request
  · simp [nothing]
  · simp [request, Effect.testcases]

theorem announces
    (settled : Settled worker tcBuf) :
    worker.phase.pending.countP Effect.isDeletion = 0 := by
  rcases settled.pending with nothing | request
  · simp [nothing]
  · simp [request, Effect.isDeletion]

theorem stores
    (settled : Settled worker tcBuf)
    (tcList : List Testcase)
    (evalDataList : List EvaluatingData) :
    .addTestcases tcList evalDataList ∉ worker.phase.pending := by
  rcases settled.pending with nothing | request
  · simp [nothing]
  · simp [request]

end Settled

theorem accounted_newEvaler (element : ElementID) :
    Accounted [] (newEvaler element) := by
  constructor <;>
    simp [newEvaler, Worker.inHand, Phase.pending, deletions]

theorem Accounted.settle
    {labels : List Label}
    {label : Label}
    {worker next : Worker}
    {tcBuf : List Testcase}
    (accounted : Accounted labels worker)
    (settled : Settled next tcBuf)
    (noStop : label.isStopElement = false)
    (conserved : ∀ tc : Testcase,
      label.received.count tc +
          (worker.inHand (labels.any Label.isStopElement)).count tc =
        label.stored.count tc + label.handedBack.count tc +
          label.discarded.count tc +
          (if labels.any Label.isStopElement then []
            else tcBuf).count tc)
    (announced :
      label.deletions =
        worker.phase.pending.countP Effect.isDeletion)
    (finished : ∀ attempt caller,
      next.phase = .evaluating attempt caller →
        labels.any Label.isStopElement = false ∧
          attempt ≤ evalRetryCount)
    (evaluated : ∀ tcList evalDataList,
      label = .effect (.addTestcases tcList evalDataList) →
        .addTestcases tcList evalDataList ∈ worker.phase.pending) :
    Accounted (labels ++ [label]) next := by
  have sameStop :
      (labels ++ [label]).any Label.isStopElement =
        labels.any Label.isStopElement := by
    simp [noStop]
  constructor
  · intro tc
    have before := accounted.conserved tc
    have now := conserved tc
    rw [sameStop, settled.inHand]
    simp only [List.flatMap_append, List.flatMap_singleton,
      List.count_append]
    omega
  · have before := accounted.announced
    rw [sameStop, settled.announces, deletions_snoc]
    omega
  · intro stopped attempt caller phase
    rw [sameStop, (finished attempt caller phase).1] at stopped
    cases stopped
  · intro attempt caller phase
    exact (finished attempt caller phase).2
  · rintro tcList evalDataList (member | member)
    · rcases List.mem_append.mp member with old | isLabel
      · obtain ⟨attempt, known⟩ :=
          accounted.evaluated tcList evalDataList (.inl old)
        exact ⟨attempt, List.mem_append_left _ known⟩
      · have same := List.mem_singleton.mp isLabel
        obtain ⟨attempt, known⟩ :=
          accounted.evaluated tcList evalDataList
            (.inr (evaluated _ _ same.symm))
        exact ⟨attempt, List.mem_append_left _ known⟩
    · exact absurd member (settled.stores tcList evalDataList)

section Steps

variable {labels : List Label} {worker : Worker}

/-- A call of `Stop` changes nothing about the testcases. -/
theorem Accounted.stop
    (accounted : Accounted labels worker) :
    Accounted (labels ++ [.stop]) { worker with cancelled := true } := by
  constructor
  · simpa [Label.received, Label.stored, Label.handedBack,
      Label.discarded, Label.isStopElement, Worker.inHand] using
      accounted.conserved
  · simpa [Label.deletions, Label.isStopElement] using
      accounted.announced
  · simpa [Label.isStopElement] using accounted.finished
  · exact accounted.attempts
  · simpa using accounted.evaluated

theorem Accounted.success
    {attempt : Nat}
    {caller : Caller}
    (accounted : Accounted labels worker)
    (phase : worker.phase = .evaluating attempt caller)
    (evalDataList : List EvaluatingData) :
    Accounted
      (labels ++ [.evaluated attempt worker.tcBuf (.success evalDataList)])
      (worker.evaluated attempt caller (.success evalDataList)) := by
  have notStopped : labels.any Label.isStopElement = false := by
    cases stopped : labels.any Label.isStopElement with
    | false => rfl
    | true => exact absurd phase (accounted.finished stopped _ _)
  have before := accounted.announced
  constructor
  · intro tc
    have known := accounted.conserved tc
    simp only [Worker.inHand, phase, Phase.pending, notStopped,
      List.flatMap_nil, List.nil_append, Bool.false_eq_true,
      if_false] at known
    simp only [List.flatMap_append, List.flatMap_singleton,
      List.count_append, List.any_append, notStopped, List.any_cons,
      List.any_nil, Worker.evaluated, Worker.inHand, Phase.pending,
      Effect.testcases, Label.received, Label.stored, Label.handedBack,
      Label.discarded, Label.isStopElement, List.count_nil,
      Bool.or_false, Bool.false_eq_true, if_false]
    omega
  · simpa [Worker.evaluated, phase, Phase.pending, Label.deletions,
      Label.isStopElement, Effect.isDeletion] using before
  · intro stopped
    simp [notStopped, Label.isStopElement] at stopped
  · intro other otherCaller evaluating
    simp [Worker.evaluated] at evaluating
  · rintro tcList evalData (member | member)
    · rcases List.mem_append.mp member with old | isLabel
      · obtain ⟨other, known⟩ :=
          accounted.evaluated tcList evalData (.inl old)
        exact ⟨other, List.mem_append_left _ known⟩
      · simp at isLabel
    · simp only [Worker.evaluated, Phase.pending, List.mem_singleton,
        Effect.addTestcases.injEq] at member
      obtain ⟨rfl, rfl⟩ := member
      exact ⟨attempt, by simp⟩

/-- `ErrStopElement` schedules one announcement and the whole buffer. -/
theorem Accounted.stopElement
    {attempt : Nat}
    {caller : Caller}
    (accounted : Accounted labels worker)
    (phase : worker.phase = .evaluating attempt caller) :
    Accounted
      (labels ++ [.evaluated attempt worker.tcBuf .stopElement])
      (worker.evaluated attempt caller .stopElement) := by
  have notStopped : labels.any Label.isStopElement = false := by
    cases stopped : labels.any Label.isStopElement with
    | false => rfl
    | true => exact absurd phase (accounted.finished stopped _ _)
  have before := accounted.announced
  have sentBack :
      (worker.tcBuf.map Effect.resend).flatMap Effect.testcases =
        worker.tcBuf := by
    induction worker.tcBuf with
    | nil => rfl
    | cons tc rest ih =>
        simp [Effect.testcases, ih]
  have noMore :
      (worker.tcBuf.map Effect.resend).countP Effect.isDeletion = 0 := by
    simp [List.countP_eq_zero, Effect.isDeletion]
  constructor
  · intro tc
    have known := accounted.conserved tc
    simp only [Worker.inHand, phase, Phase.pending, notStopped,
      List.flatMap_nil, List.nil_append, Bool.false_eq_true,
      if_false] at known
    simp only [List.flatMap_append, List.flatMap_cons, List.flatMap_nil,
      sentBack, List.count_append, List.any_append, List.any_cons,
      List.any_nil, Worker.evaluated, Worker.inHand, Phase.pending,
      Effect.testcases, Label.received, Label.stored, Label.handedBack,
      Label.discarded, Label.isStopElement, List.count_nil, Bool.or_true,
      Bool.true_or, if_true]
    omega
  · rw [notStopped] at before
    simp only [phase, Phase.pending, List.countP_nil, Nat.add_zero,
      Bool.false_eq_true, if_false] at before
    simp [Worker.evaluated, Phase.pending, Label.deletions,
      Label.isStopElement, Effect.isDeletion, List.countP_cons, noMore,
      before]
  · intro _ other otherCaller
    simp [Worker.evaluated]
  · intro other otherCaller evaluating
    simp [Worker.evaluated] at evaluating
  · rintro tcList evalData (member | member)
    · rcases List.mem_append.mp member with old | isLabel
      · obtain ⟨other, known⟩ :=
          accounted.evaluated tcList evalData (.inl old)
        exact ⟨other, List.mem_append_left _ known⟩
      · simp at isLabel
    · simp [Worker.evaluated, Phase.pending] at member

theorem Accounted.effect
    {effect next : Effect}
    {later : List Effect}
    {caller : Caller}
    (accounted : Accounted labels worker)
    (phase : worker.phase = .acting effect (next :: later) caller) :
    Accounted (labels ++ [.effect effect])
      { worker with phase := .acting next later caller } := by
  have sameStop :
      (labels ++ [Label.effect effect]).any Label.isStopElement =
        labels.any Label.isStopElement := by
    simp [Label.isStopElement]
  have before := accounted.announced
  constructor
  · intro tc
    have known := accounted.conserved tc
    have moved : (Label.effect effect).received.count tc = 0 ∧
        (Label.effect effect).discarded.count tc = 0 ∧
        (Label.effect effect).stored.count tc +
            (Label.effect effect).handedBack.count tc =
          effect.testcases.count tc := by
      cases effect <;>
        simp [Label.received, Label.stored, Label.handedBack,
          Label.discarded, Effect.testcases]
    rw [sameStop]
    simp only [Worker.inHand, phase, Phase.pending, List.flatMap_append,
      List.flatMap_cons, List.flatMap_nil, List.count_append,
      List.count_nil] at known ⊢
    omega
  · have counted :
        (Label.effect effect).deletions =
          if effect.isDeletion then 1 else 0 := by
      cases effect <;> rfl
    rw [sameStop, deletions_snoc, counted]
    simp only [phase, Phase.pending, List.countP_cons] at before ⊢
    omega
  · intro _ attempt otherCaller
    simp
  · intro attempt otherCaller evaluating
    simp at evaluating
  · intro tcList evalDataList member
    have known :
        .effect (.addTestcases tcList evalDataList) ∈ labels ∨
          .addTestcases tcList evalDataList ∈ worker.phase.pending := by
      rw [phase]
      simp only [List.mem_append, Label.effect.injEq, Phase.pending,
        List.mem_cons] at member ⊢
      tauto
    obtain ⟨attempt, evaluated⟩ :=
      accounted.evaluated tcList evalDataList known
    exact ⟨attempt, List.mem_append_left _ evaluated⟩

/-- One step keeps every testcase accounted for. -/
theorem accounted_step
    {label : Label}
    {next : Worker}
    (accounted : Accounted labels worker)
    (quiet : labels.any Label.isStopElement = true →
      label.takesWork = false)
    (taken : Step worker label next) :
    Accounted (labels ++ [label]) next := by
  cases taken with
  | tick phase =>
      have notStopped : labels.any Label.isStopElement = false := by
        simpa [Label.takesWork] using mt quiet
      refine accounted.settle (flush_settled worker .tick) rfl ?_ ?_ ?_ ?_
      · intro tc
        simp [Label.received, Label.stored, Label.handedBack,
          Label.discarded, Worker.inHand, phase, Phase.pending]
      · simp [Label.deletions, phase, Phase.pending]
      · intro attempt caller evaluating
        exact ⟨notStopped, by simp [flush_attempt evaluating]⟩
      · intro tcList evalDataList same
        cases same
  | receive tc phase =>
      have notStopped : labels.any Label.isStopElement = false := by
        simpa [Label.takesWork] using mt quiet
      refine accounted.settle (received_settled worker tc) rfl ?_ ?_ ?_ ?_
      · intro other
        simp [Label.received, Label.stored, Label.handedBack,
          Label.discarded, Worker.inHand, phase, Phase.pending,
          notStopped, Nat.add_comm]
      · simp [Label.deletions, phase, Phase.pending]
      · intro attempt caller evaluating
        exact ⟨notStopped, by simp [received_attempt evaluating]⟩
      · intro tcList evalDataList same
        cases same
  | stop =>
      exact accounted.stop
  | done phase _ =>
      have settled :
          Settled { worker with phase := .returned } worker.tcBuf :=
        ⟨rfl, .inl rfl⟩
      refine accounted.settle settled rfl ?_ ?_ ?_ ?_
      · intro tc
        simp [Label.received, Label.stored, Label.handedBack,
          Label.discarded, Worker.inHand, phase, Phase.pending]
      · simp [Label.deletions, phase, Phase.pending]
      · intro attempt caller evaluating
        cases evaluating
      · intro tcList evalDataList same
        cases same
  | @evaluated _ attempt caller result phase =>
      cases result with
      | success evalDataList =>
          exact accounted.success phase evalDataList
      | stopElement =>
          exact accounted.stopElement phase
      | failure =>
          have notStopped : labels.any Label.isStopElement = false := by
            cases stopped : labels.any Label.isStopElement with
            | false => rfl
            | true => exact absurd phase (accounted.finished stopped _ _)
          have bound := accounted.attempts attempt caller phase
          by_cases again : attempt + 1 < evalRetryCount + 1
          · have settled :
                Settled (worker.evaluated attempt caller .failure)
                  worker.tcBuf := by
              simp only [Worker.evaluated, again, if_true]
              exact ⟨rfl, .inl rfl⟩
            refine accounted.settle settled rfl ?_ ?_ ?_ ?_
            · intro tc
              have notLast : attempt ≠ evalRetryCount := by omega
              simp [Label.received, Label.stored, Label.handedBack,
                Label.discarded, notLast, Worker.inHand, phase,
                Phase.pending]
            · simp [Label.deletions, phase, Phase.pending]
            · intro other otherCaller evaluating
              simp only [Worker.evaluated, again, if_true,
                Phase.evaluating.injEq] at evaluating
              exact ⟨notStopped, by omega⟩
            · intro tcList evalDataList same
              cases same
          · have last : attempt = evalRetryCount := by omega
            have settled :
                Settled (worker.evaluated attempt caller .failure) [] := by
              simp only [Worker.evaluated, again, if_false]
              exact afterFlush_settled _ caller
            refine accounted.settle settled rfl ?_ ?_ ?_ ?_
            · intro tc
              simp [Label.received, Label.stored, Label.handedBack,
                Label.discarded, last, Worker.inHand, phase,
                Phase.pending, notStopped]
            · simp [Label.deletions, phase, Phase.pending]
            · intro other otherCaller evaluating
              simp only [Worker.evaluated, again, if_false] at evaluating
              exact absurd evaluating (afterFlush_phase _ _ _ _)
            · intro tcList evalDataList same
              cases same
  | effect phase =>
      exact accounted.effect phase
  | @lastEffect _ effect caller phase =>
      refine accounted.settle (afterFlush_settled worker caller) rfl
        ?_ ?_ ?_ ?_
      · intro tc
        cases effect <;>
          simp [Label.received, Label.stored, Label.handedBack,
            Label.discarded, Worker.inHand, phase, Phase.pending,
            Effect.testcases, List.count_cons, Nat.add_comm]
      · cases effect <;>
          simp [Label.deletions, phase, Phase.pending, Effect.isDeletion]
      · intro attempt other evaluating
        exact absurd evaluating (afterFlush_phase _ _ _ _)
      · intro tcList evalDataList same
        cases same
        simp [phase, Phase.pending]
  | notified phase =>
      have settled :
          Settled { worker with secondChance := true, phase := .selecting }
            worker.tcBuf :=
        ⟨rfl, .inl rfl⟩
      refine accounted.settle settled rfl ?_ ?_ ?_ ?_
      · intro tc
        simp [Label.received, Label.stored, Label.handedBack,
          Label.discarded, Worker.inHand, phase, Phase.pending,
          Effect.testcases]
      · simp [Label.deletions, phase, Phase.pending, Effect.isDeletion]
      · intro attempt caller evaluating
        cases evaluating
      · intro tcList evalDataList same
        cases same

end Steps

/-- Every testcase stays accounted for along a run. -/
theorem run_accounted
    {element : ElementID}
    {labels : List Label}
    {worker : Worker}
    (run : Run Step (newEvaler element) labels worker)
    (quiet : QuietAfterStop labels) :
    Accounted labels worker := by
  induction labels using List.reverseRecOn generalizing worker with
  | nil =>
      cases run
      exact accounted_newEvaler element
  | append_singleton earlier label ih =>
      obtain ⟨middle, earlierRun, taken⟩ := run.of_snoc
      obtain ⟨earlierQuiet, _, labelQuiet⟩ := List.pairwise_append.mp quiet
      refine accounted_step (ih earlierRun earlierQuiet)
        ?_ taken
      intro stopped
      obtain ⟨report, member, isStop⟩ := List.any_eq_true.mp stopped
      exact labelQuiet report member label (by simp) isStop

/--
A testcase taken by the worker is stored with the data of its own evaluation,
sent back, given up after the last ordinary error, or still held, in exactly
one of these ways and once for each time it was taken; a worker that returned
after `ErrStopElement` holds none; the end is announced at most once.
-/
theorem testcase_has_one_outcome
    {element : ElementID}
    {labels : List Label}
    {worker : Worker}
    (run : Run Step (newEvaler element) labels worker)
    (quiet : QuietAfterStop labels) :
    (∀ tc : Testcase,
        (labels.flatMap Label.received).count tc =
          (labels.flatMap Label.stored).count tc +
            (labels.flatMap Label.handedBack).count tc +
            (labels.flatMap Label.discarded).count tc +
            (worker.inHand (labels.any Label.isStopElement)).count tc) ∧
      (labels.any Label.isStopElement = true →
        worker.phase = .returned → worker.inHand true = []) ∧
      (∀ tcList evalDataList,
        .effect (.addTestcases tcList evalDataList) ∈ labels →
          ∃ attempt,
            .evaluated attempt tcList (.success evalDataList) ∈ labels) ∧
      deletions labels ≤ 1 := by
  have accounted := run_accounted run quiet
  refine ⟨accounted.conserved, ?_, ?_, ?_⟩
  · intro _ phase
    simp [Worker.inHand, phase, Phase.pending]
  · intro tcList evalDataList member
    exact accounted.evaluated tcList evalDataList (.inl member)
  · have announced := accounted.announced
    split at announced <;> omega

/-- A testcase used in the runs below. -/
def sampleTestcase : Testcase where
  id := 1
  fuzzerID := ⟨1, 2⟩
  inputData := [65]
  execs := 10
  corpusSize := 1
  createdAt := ⟨0, 0⟩

/-- An element goes away while its worker holds one testcase. -/
def sentBackLabels : List Label :=
  [.receive sampleTestcase, .tick,
    .evaluated 0 [sampleTestcase] .stopElement,
    .effect (.elementDeleted ⟨1, 3⟩),
    .effect (.resend sampleTestcase), .done]

/-- The testcase of an element that goes away is accounted for. -/
theorem testcase_has_one_outcome_sent_back :
    ∃ worker,
      Run Step (newEvaler ⟨1, 3⟩) sentBackLabels worker ∧
        (∀ tc : Testcase,
          (sentBackLabels.flatMap Label.received).count tc =
            (sentBackLabels.flatMap Label.stored).count tc +
              (sentBackLabels.flatMap Label.handedBack).count tc +
              (sentBackLabels.flatMap Label.discarded).count tc +
              (worker.inHand
                (sentBackLabels.any Label.isStopElement)).count tc) ∧
        (sentBackLabels.any Label.isStopElement = true →
          worker.phase = .returned → worker.inHand true = []) ∧
        (∀ tcList evalDataList,
          .effect (.addTestcases tcList evalDataList) ∈ sentBackLabels →
            ∃ attempt,
              .evaluated attempt tcList (.success evalDataList) ∈
                sentBackLabels) ∧
        deletions sentBackLabels ≤ 1 := by
  have quiet : QuietAfterStop sentBackLabels := by
    simp [QuietAfterStop, sentBackLabels, Label.isStopElement,
      Label.takesWork]
  have run : ∃ worker,
      Run Step (newEvaler ⟨1, 3⟩) sentBackLabels worker :=
    ⟨_, .cons (.receive _ rfl) (.cons (.tick rfl)
      (.cons (.evaluated _ rfl) (.cons (.effect rfl)
        (.cons (.lastEffect rfl) (.cons (.done rfl rfl) (.nil _))))))⟩
  obtain ⟨worker, run⟩ := run
  exact ⟨worker, run, testcase_has_one_outcome run quiet⟩

/-- Both attempts to evaluate one testcase fail, then the worker is stopped. -/
def discardedLabels : List Label :=
  [.receive sampleTestcase, .tick,
    .evaluated 0 [sampleTestcase] .failure,
    .evaluated 1 [sampleTestcase] .failure, .stop, .done]

/--
The worker has returned, and the testcase it received was neither stored nor
sent back.
-/
theorem two_failures_lose_testcase :
    ∃ worker,
      Run Step (newEvaler ⟨1, 3⟩) discardedLabels worker ∧
        worker.phase = .returned ∧
        discardedLabels.flatMap Label.received = [sampleTestcase] ∧
        discardedLabels.flatMap Label.stored = [] ∧
        discardedLabels.flatMap Label.handedBack = [] := by
  refine ⟨_, .cons (.receive _ rfl) (.cons (.tick rfl)
    (.cons (.evaluated _ rfl) (.cons (.evaluated _ rfl)
      (.cons .stop (.cons (.done rfl rfl) (.nil _)))))), ?_⟩
  exact ⟨rfl, rfl, rfl, rfl⟩

end MeFuzz.EvalerWorker
