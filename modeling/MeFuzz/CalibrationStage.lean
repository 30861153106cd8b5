import MeFuzz.TargetRuns

namespace MeFuzz.CalibrationStage

open Corpus (Error)
open Procedure

/-!
# The runs of a calibration

The stage runs an entry a few times, and more often when a run has errored or the map
is not stable.  A run that errored is not counted in `i`.
-/

/-- `CAL_STAGE_START`. -/
def calStageStart : Nat :=
  4

/-- `CAL_STAGE_MAX`. -/
def calStageMax : Nat :=
  8

/-- `ExitKind`. -/
inductive ExitKind where
  | ok
  | crash
  | oom
  | timeout
  | diff
  deriving Repr, DecidableEq

variable {Entry : Type}

/--
What a run comes to: loading the input and `pre_exec_all`, `run_target` with the time in
nanoseconds, the log, `post_exec_all`, and the map of the observer, if it is found.
-/
structure TargetRun (Entry : Type) where
  pre : Except Error Unit
  target : Except Error (ExitKind × Nat)
  log : Except Error Unit
  post : Except Error Unit
  map : Option (List Entry)

/-- The variables of `perform`; `runs` counts how often the target was run. -/
structure Calibration (Entry : Type) where
  i : Nat
  iter : Nat
  hasErrors : Bool
  totalTime : Nat
  unstableEntries : List Nat
  historyMap : List Entry
  runs : Nat
  deriving DecidableEq

abbrev Stage (Entry Value : Type) :=
  Procedure Error (Calibration Entry) Value

/-- `iter += 2`, below the maximum. -/
def raise (iter : Nat) : Nat :=
  if iter < calStageMax then iter + 2 else iter

def mapNotFound : Error :=
  .keyNotFound "MapObserver not found"

section

variable [DecidableEq Entry]
variable (default maxValue : Entry)

/-- `history_map.resize`, if it is shorter than the map. -/
def resize (mapLen : Nat) (history : List Entry) : List Entry :=
  history ++ List.replicate (mapLen - history.length) default

/-- The histories after a run, and the indexes that have turned out to be unstable. -/
def compareMaps : Nat → List Entry → List Entry → List Entry → List Entry × List Nat
  | idx, first :: firsts, cur :: curs, history :: histories =>
      let rest := compareMaps (idx + 1) firsts curs histories
      if first ≠ cur ∧ history ≠ maxValue then (maxValue :: rest.1, idx :: rest.2)
      else (history :: rest.1, rest.2)
  | _, _, _, histories => (histories, [])

/-- A run that ended well is compared with the first one. -/
def trackStability (mapFirst map : List Entry) (now : Calibration Entry) : Calibration Entry :=
  let compared := compareMaps maxValue 0 mapFirst map (resize default mapFirst.length now.historyMap)
  let unstableEntries := now.unstableEntries ++ compared.2
  { now with
    historyMap := compared.1
    unstableEntries := unstableEntries
    iter := if unstableEntries ≠ [] then raise now.iter else now.iter }

/-- The body of the loop, from `run_target` on. -/
def runTarget (tracks : Bool) (mapFirst : List Entry) (run : TargetRun Entry) :
    Stage Entry Unit := do
  let (exitKind, time) ← run.target
  if exitKind ≠ .ok then
    if ¬(← get).hasErrors then
      run.log
      modify fun now => { now with hasErrors := true, iter := raise now.iter }
  else
    modify fun now => { now with totalTime := now.totalTime + time }
    run.post
    if tracks then
      match run.map with
      | some map => modify (trackStability default maxValue mapFirst map)
      | none => throw mapNotFound
    modify fun now => { now with i := now.i + 1 }

/-- The body of the loop. -/
def runAgain (tracks : Bool) (mapFirst : List Entry) (run : TargetRun Entry) :
    Stage Entry Unit := do
  run.pre
  modify fun now => { now with runs := now.runs + 1 }
  runTarget default maxValue tracks mapFirst run

/-- The loop, whose runs come to what is given; without fuel there is no answer. -/
def runLoop (tracks : Bool) (mapFirst : List Entry) (later : Nat → TargetRun Entry) :
    Nat → Nat → Stage Entry (Option Unit)
  | 0, _ => pure none
  | fuel + 1, index => do
      let now ← get
      if now.i < now.iter then
        runAgain default maxValue tracks mapFirst (later index)
        runLoop tracks mapFirst later fuel (index + 1)
      else pure (some ())

/-- `CalibrationStage::perform` up to its loop, with the map of the first run. -/
def runFirst (run : TargetRun Entry) : Stage Entry (List Entry) := do
  run.pre
  modify fun now => { now with runs := now.runs + 1 }
  let (exitKind, time) ← run.target
  if exitKind = .ok then
    modify fun now => { now with totalTime := time }
  else
    run.log
    modify fun now => { now with totalTime := 1000000000 }
  run.post
  match run.map with
  | some map => pure map
  | none => throw mapNotFound

/-- The runs of `CalibrationStage::perform`; after them the target is not run again. -/
def perform
    (tracks : Bool)
    (first : TargetRun Entry)
    (later : Nat → TargetRun Entry)
    (fuel : Nat) : Stage Entry (Option Unit) := do
  let mapFirst ← runFirst first
  runLoop default maxValue tracks mapFirst later fuel 0

/-- The variables before the first run; `stage_max` is where `iter` starts. -/
def start (history : List Entry) : Calibration Entry where
  i := 1
  iter := calStageStart
  hasErrors := false
  totalTime := 0
  unstableEntries := []
  historyMap := history
  runs := 0

/-- What a run that does not fail means for the loop. -/
inductive Verdict where
  | calm
  | unstable
  | bad
  deriving Repr, DecidableEq

/-- Some index differs from the first run and has not been known as unstable. -/
def ShowsUnstable (mapFirst map history : List Entry) : Prop :=
  (compareMaps maxValue 0 mapFirst map (resize default mapFirst.length history)).2 ≠ []

instance {mapFirst map history : List Entry} :
    Decidable (ShowsUnstable default maxValue mapFirst map history) :=
  inferInstanceAs (Decidable (_ ≠ _))

/-- The verdict on a run, and none if it fails; a bad run also fails if its log is needed. -/
def verdict (tracks : Bool) (mapFirst history : List Entry) (run : TargetRun Entry) :
    Option Verdict :=
  match run.pre, run.target, run.post, run.map with
  | .error _, _, _, _ => none
  | .ok _, .error _, _, _ => none
  | .ok _, .ok (exitKind, _), post, map =>
      if exitKind ≠ .ok then some .bad
      else
        match post, map with
        | .error _, _ => none
        | .ok _, none => if tracks then none else some .calm
        | .ok _, some map =>
            if tracks ∧ ShowsUnstable default maxValue mapFirst map history then
              some .unstable
            else some .calm

end

/-- What the length of the loop depends on. -/
structure Counters where
  i : Nat
  iter : Nat
  hasErrors : Bool
  unstable : Bool
  deriving Repr, DecidableEq

/-- The counters after a run. -/
def Counters.after (counters : Counters) : Verdict → Counters
  | .bad =>
      if counters.hasErrors then counters
      else { counters with hasErrors := true, iter := raise counters.iter }
  | .calm =>
      { counters with
        i := counters.i + 1
        iter := if counters.unstable then raise counters.iter else counters.iter }
  | .unstable =>
      { counters with
        i := counters.i + 1
        unstable := true
        iter := raise counters.iter }

/-- The loop ends along these verdicts. -/
def Counters.ends : Counters → List Verdict → Bool
  | counters, [] => counters.iter ≤ counters.i
  | counters, verdict :: verdicts =>
      counters.iter ≤ counters.i || (counters.after verdict).ends verdicts

/-- The counters before the loop. -/
def Counters.start : Counters where
  i := 1
  iter := calStageStart
  hasErrors := false
  unstable := false

/--
Seven more runs are enough: if the first three are calm, if none of them is bad, or if at
most two are bad and the other five are calm.
-/
def SevenSuffice (verdicts : List Verdict) : Prop :=
  (∀ verdict ∈ verdicts.take 3, verdict = .calm) ∨
    .bad ∉ verdicts ∨
    (verdicts.count .bad ≤ 2 ∧
      ∀ verdict ∈ (verdicts.filter fun verdict => verdict ≠ .bad).take 5, verdict = .calm)

instance {verdicts : List Verdict} : Decidable (SevenSuffice verdicts) :=
  inferInstanceAs (Decidable (_ ∨ _ ∨ _))

end MeFuzz.CalibrationStage
