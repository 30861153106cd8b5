import MeFuzz.TransitionRun
import MeFuzz.SchedulerState

namespace MeFuzz.Scheduler

open Corpus (CorpusId Error InMemoryCorpus)

/-!
# Runs of a scheduler

The fuzzer changes the corpus and tells its scheduler of each change.  Between
the calls, stages and evaluations work on the state as well.
-/

/--
The hooks of a `Scheduler`.  What a call takes from elsewhere, such as the draws of the random
generator, is its first argument.  A hook that is not given does nothing.
-/
structure Hooks (Input Outside : Type) where
  onAdd : Outside → CorpusId → Hook Input Unit :=
    fun _ _ => pure ()
  onReplace : Outside → CorpusId → Testcase Input → Hook Input Unit :=
    fun _ _ _ => pure ()
  onRemove : Outside → CorpusId → Option (Testcase Input) → Hook Input Unit :=
    fun _ _ _ => pure ()
  next : Outside → Hook Input CorpusId

namespace Hooks

/-- What happens to a scheduler and its corpus. -/
inductive Event (Input Outside : Type) where
  | add (outside : Outside) (testcase : Testcase Input)
  | replace (outside : Outside) (idx : CorpusId) (testcase : Testcase Input)
  | remove (outside : Outside) (idx : CorpusId)
  | next (outside : Outside)
  | elsewhere

variable {Input Outside : Type}

/-- The corpus is changed and the scheduler is told, or it is asked. -/
def perform
    (scheduler : Hooks Input Outside) :
    Event Input Outside → Hook Input Unit
  | .add outside testcase => do
      let idx ← addTestcase testcase
      scheduler.onAdd outside idx
  | .replace outside idx testcase => do
      let prev ← replaceTestcase idx testcase
      scheduler.onReplace outside idx prev
  | .remove outside idx => do
      let prev ← removeTestcase idx
      scheduler.onRemove outside idx (some prev)
  | .next outside => do
      let _ ← scheduler.next outside
  | .elsewhere => pure ()

/--
Each call that returns is a step, and so is each of the given changes that are
made elsewhere.
-/
inductive Step
    (scheduler : Hooks Input Outside)
    (Elsewhere : State Input → State Input → Prop) :
    StepRelation (State Input) (Event Input Outside) where
  | done
      {state after : State Input}
      {event : Event Input Outside} :
      (scheduler.perform event).outcome state = (.ok (), after) →
      Step scheduler Elsewhere state event after
  | elsewhere
      {state after : State Input} :
      Elsewhere state after →
      Step scheduler Elsewhere state .elsewhere after

section

open Procedure

variable {scheduler : Hooks Input Outside}
variable {outside : Outside}
variable {state after : State Input}
variable {idx : CorpusId}
variable {testcase prev : Testcase Input}
variable {result : Except Error Unit}

theorem outcome_add :
    (scheduler.perform (.add outside testcase)).outcome state =
      (scheduler.onAdd outside state.corpus.nextId).outcome
        { state with corpus := (state.corpus.add testcase).2 } := by
  rw [perform, outcome_bind_ok outcome_addTestcase]

theorem outcome_replace
    (found : state.corpus.find idx = some prev) :
    (scheduler.perform (.replace outside idx testcase)).outcome state =
      (scheduler.onReplace outside idx prev).outcome
        { state with
          corpus := state.corpus.modify idx fun _ => testcase } := by
  rw [perform, outcome_bind_ok (outcome_replaceTestcase found)]

theorem outcome_replace_missing
    (missing : state.corpus.find idx = none) :
    (scheduler.perform (.replace outside idx testcase)).outcome state =
      (.error (Corpus.indexNotFound idx), state) := by
  rw [perform, outcome_bind_error (outcome_replaceTestcase_missing missing)]

theorem outcome_remove
    (found : state.corpus.find idx = some prev) :
    (scheduler.perform (.remove outside idx)).outcome state =
      (scheduler.onRemove outside idx (some prev)).outcome
        { state with corpus := state.corpus.removed idx } := by
  rw [perform, outcome_bind_ok (outcome_removeTestcase found)]

theorem outcome_remove_missing
    (missing : state.corpus.find idx = none) :
    (scheduler.perform (.remove outside idx)).outcome state =
      (.error (Corpus.indexNotFound idx), state) := by
  rw [perform, outcome_bind_error (outcome_removeTestcase_missing missing)]

end

section

open Procedure

variable {scheduler : Hooks Input Outside}
variable {outside : Outside}
variable {idx : CorpusId}
variable {testcase : Testcase Input}
variable {before after : State Input → Prop}
variable {failed : Error → State Input → Prop}

theorem satisfies_add
    (hook :
      ∀ state, before state →
        Satisfies
          (· = { state with corpus := (state.corpus.add testcase).2 })
          (scheduler.onAdd outside state.corpus.nextId) (fun _ => after)
          failed) :
    Satisfies before (scheduler.perform (.add outside testcase))
      (fun _ => after) failed := by
  intro state holds
  rw [outcome_add]
  exact hook state holds _ rfl

theorem satisfies_replace
    (hook :
      ∀ state prev, before state → state.corpus.find idx = some prev →
        Satisfies
          (· = { state with
            corpus := state.corpus.modify idx fun _ => testcase })
          (scheduler.onReplace outside idx prev) (fun _ => after) failed)
    (missing :
      ∀ state, before state → failed (Corpus.indexNotFound idx) state) :
    Satisfies before (scheduler.perform (.replace outside idx testcase))
      (fun _ => after) failed := by
  intro state holds
  cases found : state.corpus.find idx with
  | some prev =>
      rw [outcome_replace found]
      exact hook state prev holds found _ rfl
  | none =>
      rw [outcome_replace_missing found]
      exact missing state holds

theorem satisfies_remove
    (hook :
      ∀ state prev, before state → state.corpus.find idx = some prev →
        Satisfies
          (· = { state with corpus := state.corpus.removed idx })
          (scheduler.onRemove outside idx (some prev)) (fun _ => after) failed)
    (missing :
      ∀ state, before state → failed (Corpus.indexNotFound idx) state) :
    Satisfies before (scheduler.perform (.remove outside idx))
      (fun _ => after) failed := by
  intro state holds
  cases found : state.corpus.find idx with
  | some prev =>
      rw [outcome_remove found]
      exact hook state prev holds found _ rfl
  | none =>
      rw [outcome_remove_missing found]
      exact missing state holds

theorem satisfies_next
    (hook :
      Satisfies before (scheduler.next outside) (fun _ => after) failed) :
    Satisfies before (scheduler.perform (.next outside)) (fun _ => after)
      failed :=
  hook.bind fun _ => .pure fun _ holds => holds

end

end Hooks

end MeFuzz.Scheduler
