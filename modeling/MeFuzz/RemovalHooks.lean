import MeFuzz.MinimizerScheduler
import MeFuzz.PowerQueueScheduler
import MeFuzz.WeightedScheduler

namespace MeFuzz.CorpusMinimizer

open Corpus (CorpusId Error)
open Scheduler (Hook Penalty State)
open Procedure

/-!
# Schedulers that are told of removals

A scheduler that is told of a removal changes its own data and that of the testcases.
The hooks of the schedulers here do not change the corpus at all.
-/

variable {Input : Type}

/-- A change of the testcases leaves which there are, and their inputs. -/
def SameInputs (before after : State Input) : Prop :=
  ∀ id,
    (after.corpus.find id).map Scheduler.Testcase.input =
      (before.corpus.find id).map Scheduler.Testcase.input

/--
How a scheduler is told of a removal.  It changes its own data and that of the
testcases; the answer tells whether it ends.
-/
structure RemovalHook (Input : Type) where
  onRemove : CorpusId → Option (Scheduler.Testcase Input) → Hook Input Bool
  leaves :
    ∀ idx testcase state, SameInputs state ((onRemove idx testcase).outcome state).2

/-- A hook leaves the corpus. -/
def LeavesCorpus {Value : Type} (hook : Hook Input Value) : Prop :=
  ∀ state, (hook.outcome state).2.corpus = state.corpus

namespace LeavesCorpus

variable {Value Result Item : Type}

theorem pure (value : Value) : LeavesCorpus (Pure.pure value : Hook Input Value) :=
  fun _ => rfl

theorem get : LeavesCorpus (MonadState.get : Hook Input (State Input)) :=
  fun _ => rfl

theorem lift (result : Except Error Value) : LeavesCorpus (liftM result : Hook Input Value) :=
  fun _ => rfl

theorem throw (error : Error) : LeavesCorpus (MonadExcept.throw error : Hook Input Value) :=
  fun _ => rfl

theorem modify
    {change : State Input → State Input}
    (leaves : ∀ state, (change state).corpus = state.corpus) :
    LeavesCorpus (modifyThe (State Input) change : Hook Input PUnit) :=
  leaves

theorem bind
    {hook : Hook Input Value}
    {rest : Value → Hook Input Result}
    (first : LeavesCorpus hook)
    (second : ∀ value, LeavesCorpus (rest value)) :
    LeavesCorpus (hook >>= rest) := by
  intro state
  have left := first state
  rw [outcome_bind]
  cases isOutcome : hook.outcome state with
  | mk answer next =>
      rw [isOutcome] at left
      cases answer with
      | error error =>
          exact left
      | ok value =>
          exact (second value next).trans left

theorem foldlM
    {body : Value → Item → Hook Input Value}
    (each : ∀ value item, LeavesCorpus (body value item))
    (items : List Item)
    (value : Value) :
    LeavesCorpus (items.foldlM body value) := by
  induction items generalizing value with
  | nil =>
      exact .pure value
  | cons item rest ih =>
      rw [List.foldlM_cons]
      exact (each value item).bind ih

theorem getTestcase (idx : CorpusId) : LeavesCorpus (Scheduler.getTestcase idx : Hook Input _) :=
  get.bind fun _ => lift _

theorem computePenalty
    {Factor : Type}
    (penalty : Penalty Input Factor)
    (testcase : Scheduler.Testcase Input) :
    LeavesCorpus (Scheduler.computePenalty penalty testcase) :=
  get.bind fun _ => lift _

/-- A hook that leaves the corpus. -/
def removalHook
    {onRemove : CorpusId → Option (Scheduler.Testcase Input) → Hook Input Bool}
    (leaves : ∀ idx testcase, LeavesCorpus (onRemove idx testcase)) :
    RemovalHook Input where
  onRemove := onRemove
  leaves idx testcase state id := by
    rw [leaves idx testcase state]

end LeavesCorpus

/-! ### The schedulers -/

/-- The default hook, which does nothing; that of `EcoScheduler` does nothing either. -/
def plainHook : RemovalHook Input :=
  @LeavesCorpus.removalHook Input (fun _ _ => pure true) fun _ _ => .pure _

/-- A hook that ends. -/
def ending (hook : Hook Input Unit) : Hook Input Bool := do
  hook
  pure true

theorem leavesCorpus_takeBack (prevMeta : Scheduler.SchedulerTestcaseMetaData) :
    LeavesCorpus (Scheduler.PowerQueueScheduler.takeBack prevMeta : Hook Input Unit) := by
  have read : LeavesCorpus (Scheduler.getSchedulerMetadata : Hook Input _) :=
    .bind .get fun _ => .lift _
  refine read.bind fun psmeta => ?_
  refine (LeavesCorpus.lift _).bind fun execTime => ?_
  refine (LeavesCorpus.lift _).bind fun cycles => ?_
  refine (LeavesCorpus.lift _).bind fun bitmapSize => ?_
  refine (LeavesCorpus.lift _).bind fun bitmapEntries => ?_
  exact .modify fun _ => rfl

/-- The hook of `PowerQueueScheduler`. -/
def powerHook : RemovalHook Input :=
  @LeavesCorpus.removalHook Input
    (fun _ prev => ending (Scheduler.PowerQueueScheduler.onRemove prev)) fun _ prev => by
      refine LeavesCorpus.bind ?_ fun _ => .pure _
      cases prev with
      | none =>
          exact .throw _
      | some prev =>
          exact (LeavesCorpus.lift _).bind leavesCorpus_takeBack

theorem leavesCorpus_weigh
    (compute : Scheduler.Score Input)
    (ids : List CorpusId)
    (weights : CorpusId → Float)
    (sum : Float) :
    LeavesCorpus (Scheduler.WeightedScheduler.weigh compute ids weights sum) := by
  induction ids generalizing weights sum with
  | nil =>
      exact .pure _
  | cons id rest ih =>
      refine (LeavesCorpus.getTestcase id).bind fun testcase => ?_
      refine LeavesCorpus.get.bind fun state => ?_
      exact (LeavesCorpus.lift _).bind fun weight => ih _ _

/-- The hook of `WeightedScheduler`. -/
def weightedHook (compute : Scheduler.Score Input) : RemovalHook Input :=
  @LeavesCorpus.removalHook Input
    (fun _ _ => ending (Scheduler.WeightedScheduler.onRemove compute)) fun _ _ => by
      refine LeavesCorpus.bind ?_ fun _ => .pure _
      refine LeavesCorpus.get.bind fun state => ?_
      refine (leavesCorpus_weigh compute _ _ _).bind fun weighed => ?_
      have read : LeavesCorpus (Scheduler.WeightedScheduler.getMetadata : Hook Input _) :=
        .bind .get fun _ => .lift _
      exact read.bind fun wsmeta => .modify fun _ => rfl

section

variable {Factor : Type}
variable [LinearOrder Factor]

theorem leavesCorpus_findOthers
    (penalty : Penalty Input Factor)
    (fuel : Nat)
    (entries : List Nat) :
    LeavesCorpus (Scheduler.MinimizerScheduler.findOthers penalty fuel entries) := by
  refine LeavesCorpus.get.bind fun state => ?_
  refine (LeavesCorpus.foldlM ?_ _ _).bind fun found => ?_
  · intro map id
    cases map with
    | none =>
        exact .pure _
    | some map =>
        refine (LeavesCorpus.getTestcase id).bind fun testcase => ?_
        refine (LeavesCorpus.computePenalty penalty testcase).bind fun factor => ?_
        cases testcase.mapIndexes with
        | none =>
            exact .pure _
        | some indexes =>
            exact .pure _
  · cases found with
    | none =>
        exact .pure _
    | some map =>
        exact LeavesCorpus.bind (.modify fun _ => rfl) fun _ => .pure _

/-- The hook of `MinimizerScheduler` over another one that leaves the corpus. -/
def minimizerHook
    {Outside : Type}
    (penalty : Penalty Input Factor)
    (base : Scheduler.Hooks Input Outside)
    (leaves : ∀ outside idx prev, LeavesCorpus (base.onRemove outside idx prev))
    (outside : Outside)
    (fuel : Nat) : RemovalHook Input :=
  @LeavesCorpus.removalHook Input
    (fun idx prev =>
      Scheduler.MinimizerScheduler.onRemove penalty base outside idx fuel prev)
    fun idx prev => by
      refine (leaves outside idx prev).bind fun _ => LeavesCorpus.get.bind fun state => ?_
      cases state.topRateds with
      | none =>
          exact .pure _
      | some topRateds =>
          exact LeavesCorpus.bind (.modify fun _ => rfl) fun _ =>
            leavesCorpus_findOthers penalty fuel _

end

end MeFuzz.CorpusMinimizer
