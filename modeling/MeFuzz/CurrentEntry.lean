import MeFuzz.EcoScheduling
import MeFuzz.PowerQueueScheduler
import MeFuzz.QueueScheduler
import MeFuzz.SchedulerRuns
import MeFuzz.WeightedScheduling

namespace MeFuzz.Scheduler

open Corpus (CorpusId Error InMemoryCorpus)
open Procedure

/-!
# The current entry

Schedulers set the current entry of the corpus when they schedule it, and most
of them read it as the parent of an entry that is added.  It is alive until it
is removed, since nothing resets it then.
-/

variable {Input : Type}

namespace QueueScheduler

/-- The hooks of `QueueScheduler`. -/
def hooks : Hooks Input Unit where
  next _ := next

end QueueScheduler

namespace PowerQueueScheduler

/-- The hooks of `PowerQueueScheduler`, which take its `last_hash`. -/
def hooks : Hooks Input Nat where
  onAdd := onAdd
  onReplace _ := onReplace
  onRemove _ _ := onRemove
  next _ := next

/-- `PowerQueueScheduler::new`, as far as it changes the state. -/
def new (state : State Input) : State Input :=
  { state with
    schedulerMetadata := some (state.schedulerMetadata.getD .new) }

end PowerQueueScheduler

namespace WeightedScheduler

/-- The `last_hash` of the scheduler and what the generator draws. -/
structure Outside where
  lastHash : Nat
  nth : Nat
  drawn : Nat
  deriving Repr, DecidableEq

/-- The hooks of `WeightedScheduler`. -/
def hooks (compute : Score Input) : Hooks Input Outside where
  onAdd outside := onAdd compute outside.lastHash
  onReplace outside idx _ := onReplace compute outside.lastHash idx
  onRemove _ _ _ := onRemove compute
  next outside := next outside.nth outside.drawn

end WeightedScheduler

namespace EcoScheduler

/-- The hooks of `EcoScheduler`, which take its `last_hash`. -/
def hooks : Hooks Input Nat where
  onAdd := onAdd
  onReplace lastHash idx _ := onReplace lastHash idx
  onRemove _ _ _ := onRemove
  next _ := next

end EcoScheduler

/-- The current entry is in the corpus. -/
def CurrentAlive (state : State Input) : Prop :=
  ∀ id, state.corpus.current = some id → id ∈ state.corpus.ids

/-- The error is `key_not_found`. -/
def IsKeyNotFound : Error → Prop
  | .keyNotFound _ => True
  | _ => False

/--
What stages and evaluations leave as it is: the entries with the metadata that
they carry, the current one, and the metadata of the state.
-/
structure Undisturbed (state after : State Input) : Prop where
  ids : after.corpus.ids = state.corpus.ids
  current : after.corpus.current = state.corpus.current
  schedulerMetadata :
    state.schedulerMetadata.isSome = true →
      after.schedulerMetadata.isSome = true
  weighted : after.weighted = state.weighted
  eco : state.eco.isSome = true → after.eco.isSome = true
  entries :
    ∀ id testcase, state.corpus.find id = some testcase →
      ∃ changed,
        after.corpus.find id = some changed ∧
          (testcase.schedulerMeta.isSome = true →
            changed.schedulerMeta.isSome = true) ∧
          (testcase.ecoMeta.isSome = true → changed.ecoMeta.isSome = true)

/-- Replacing an entry of the corpus does not fail because a key is not found. -/
def ReplacesWell
    {Outside : Type}
    (hooks : Hooks Input Outside)
    (Excused : Error → Prop)
    (state : State Input) : Hooks.Event Input Outside → Prop
  | .replace outside idx testcase =>
      idx ∈ state.corpus.ids →
        ∀ error after,
          (hooks.perform (.replace outside idx testcase)).outcome state =
              (.error error, after) →
            IsKeyNotFound error → Excused error
  | _ => True

/--
The laws that keep the current entry alive, where a scheduler is ready for its
calls and errors of its score are excused.
-/
structure Lawful
    {Outside : Type}
    (hooks : Hooks Input Outside)
    (Ready : State Input → Prop)
    (Excused : Error → Prop)
    (Replaces : State Input → Hooks.Event Input Outside → Prop) : Prop where
  onAdd :
    ∀ outside testcase,
      Satisfies (fun state => Ready state ∧ CurrentAlive state)
        (hooks.perform (.add outside testcase))
        (fun _ state => Ready state ∧ CurrentAlive state)
        (fun error _ => IsKeyNotFound error → Excused error)
  onReplace :
    ∀ outside idx testcase,
      Satisfies (fun state => Ready state ∧ CurrentAlive state)
        (hooks.perform (.replace outside idx testcase))
        (fun _ state => Ready state ∧ CurrentAlive state)
        (fun _ _ => True)
  onRemove :
    ∀ outside idx ids current,
      Satisfies
        (fun state =>
          Ready state ∧ state.corpus.ids = ids ∧
            state.corpus.current = current)
        (hooks.perform (.remove outside idx))
        (fun _ state =>
          Ready state ∧ (state.corpus.ids = ids.filter fun id => id ≠ idx) ∧
            state.corpus.current = current)
        (fun _ _ => True)
  next :
    ∀ outside,
      Satisfies (fun state => Ready state ∧ CurrentAlive state)
        (hooks.perform (.next outside))
        (fun _ state => Ready state ∧ CurrentAlive state)
        (fun error _ => ¬IsKeyNotFound error)
  replaces :
    ∀ state event, Ready state → CurrentAlive state →
      (ReplacesWell hooks Excused state event ↔ Replaces state event)
  elsewhere :
    ∀ state after, Ready state → Undisturbed state after → Ready after

/--
The current entry is alive, and neither adding an entry nor scheduling one fails
because a key is not found.
-/
structure HoldsCurrent
    {Outside : Type}
    (hooks : Hooks Input Outside)
    (Excused : Error → Prop)
    (state : State Input) : Prop where
  alive : CurrentAlive state
  onAdd :
    ∀ outside testcase error after,
      (hooks.perform (.add outside testcase)).outcome state =
          (.error error, after) →
        IsKeyNotFound error → Excused error
  next :
    ∀ outside error after,
      (hooks.perform (.next outside)).outcome state = (.error error, after) →
        ¬IsKeyNotFound error

/-- The current entry is not removed. -/
def LeavesCurrent
    {Outside : Type}
    (state : State Input) : Hooks.Event Input Outside → Prop
  | .remove _ idx => state.corpus.current ≠ some idx
  | _ => True

/-- The error of `on_add` for a parent without the metadata of the scheduler. -/
def missingMeta : Error :=
  .keyNotFound "SchedulerTestcaseMetaData not found"

/--
The current entry is only replaced by a testcase that brings its metadata along,
unless the error that this gives is excused.
-/
def BringsMeta
    {Outside : Type}
    (Excused : Error → Prop)
    (state : State Input) : Hooks.Event Input Outside → Prop
  | .replace _ idx testcase =>
      state.corpus.current = some idx →
        testcase.schedulerMeta.isSome = true ∨ Excused missingMeta
  | _ => True

namespace Lawful

variable {Outside : Type}
variable {hooks : Hooks Input Outside}
variable {Ready : State Input → Prop}
variable {Excused : Error → Prop}
variable {Replaces : State Input → Hooks.Event Input Outside → Prop}
variable {state after : State Input}
variable {event : Hooks.Event Input Outside}

theorem holdsCurrent
    (lawful : Lawful hooks Ready Excused Replaces)
    (holds : Ready state ∧ CurrentAlive state) :
    HoldsCurrent hooks Excused state where
  alive := holds.2
  onAdd outside testcase _ _ fails :=
    (lawful.onAdd outside testcase).of_error holds fails
  next outside _ _ fails := (lawful.next outside).of_error holds fails

theorem kept
    (lawful : Lawful hooks Ready Excused Replaces)
    (holds : Ready state ∧ CurrentAlive state)
    (leaves : LeavesCurrent state event)
    (taken : hooks.Step Undisturbed state event after) :
    Ready after ∧ CurrentAlive after := by
  obtain ⟨ready, alive⟩ := holds
  cases taken with
  | done returned =>
      cases event with
      | add outside testcase =>
          exact (lawful.onAdd outside testcase).of_ok ⟨ready, alive⟩ returned
      | replace outside idx testcase =>
          exact
            (lawful.onReplace outside idx testcase).of_ok ⟨ready, alive⟩
              returned
      | remove outside idx =>
          obtain ⟨isReady, ids, current⟩ :=
            (lawful.onRemove outside idx _ _).of_ok ⟨ready, rfl, rfl⟩ returned
          refine ⟨isReady, ?_⟩
          intro id isCurrent
          rw [current] at isCurrent
          rw [ids, List.mem_filter, decide_eq_true_eq]
          refine ⟨alive id isCurrent, ?_⟩
          rintro rfl
          exact leaves isCurrent
      | next outside =>
          exact (lawful.next outside).of_ok ⟨ready, alive⟩ returned
      | elsewhere =>
          cases returned
          exact ⟨ready, alive⟩
  | elsewhere undisturbed =>
      refine ⟨lawful.elsewhere state after ready undisturbed, ?_⟩
      intro id isCurrent
      rw [undisturbed.current] at isCurrent
      rw [undisturbed.ids]
      exact alive id isCurrent

theorem needed
    (lawful : Lawful hooks Ready Excused Replaces)
    (ready : Ready state)
    (taken : hooks.Step Undisturbed state event after)
    (alive : CurrentAlive after) :
    LeavesCurrent state event := by
  cases taken with
  | done returned =>
      cases event with
      | remove outside idx =>
          intro isCurrent
          obtain ⟨_, ids, current⟩ :=
            (lawful.onRemove outside idx _ _).of_ok ⟨ready, rfl, rfl⟩ returned
          have isLive := alive idx (current.trans isCurrent)
          rw [ids, List.mem_filter, decide_eq_true_eq] at isLive
          exact isLive.2 rfl
      | _ =>
          exact trivial
  | elsewhere _ =>
      exact trivial

theorem alive_iff
    (lawful : Lawful hooks Ready Excused Replaces)
    (holds : Ready state ∧ CurrentAlive state)
    (events : List (Hooks.Event Input Outside)) :
    Run.Always (hooks.Step Undisturbed) (HoldsCurrent hooks Excused) state
        events ↔
      Run.Everywhere (hooks.Step Undisturbed) LeavesCurrent state events :=
  @Run.always_iff_everywhere_of_invariant _ _ _ _
    (fun state => Ready state ∧ CurrentAlive state) _
    (fun holds => lawful.holdsCurrent holds)
    (fun holds leaves taken => lawful.kept holds leaves taken)
    (fun holds taken after => lawful.needed holds.1 taken after.alive) _ holds
    events

/--
The current entry is alive in every state of a run, and read without an error, if and
only if the run never removes it and replaces it as the scheduler can bear.
-/
theorem always_iff
    (lawful : Lawful hooks Ready Excused Replaces)
    (holds : Ready state ∧ CurrentAlive state)
    (events : List (Hooks.Event Input Outside)) :
    (Run.Always (hooks.Step Undisturbed) (HoldsCurrent hooks Excused) state
          events ∧
        Run.Throughout (hooks.Step Undisturbed) (ReplacesWell hooks Excused)
          state events) ↔
      Run.Everywhere (hooks.Step Undisturbed) LeavesCurrent state events ∧
        Run.Throughout (hooks.Step Undisturbed) Replaces state events := by
  rw [lawful.alive_iff holds]
  refine and_congr_right fun leaves => ?_
  have invariant :=
    Run.invariant_of_everywhere leaves
      (fun holds leaves taken => lawful.kept holds leaves taken) holds
  refine forall₃_congr fun earlier event state => ?_
  refine imp_congr_right fun isPrefix => imp_congr_right fun run => ?_
  obtain ⟨ready, alive⟩ :=
    invariant earlier state ((List.prefix_append _ _).trans isPrefix) run
  exact lawful.replaces state event ready alive

end Lawful

end MeFuzz.Scheduler
