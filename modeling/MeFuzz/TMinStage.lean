import MeFuzz.TargetRuns

namespace MeFuzz.TMin

open Corpus (CorpusId Error InMemoryCorpus)
open Execution (ExitKind)
open Procedure

/-!
# The minimization of testcases

The stage mutates an entry until a shorter input shows the same map, and goes on
from there.  Mutators, feedbacks, schedulers and executors are parameters; they read
the whole state and write what is theirs.
-/

/-- A `Testcase`; its metadata belong to whoever wrote them. -/
structure Testcase (Input : Type) where
  input : Input
  executions : Nat
  parentId : Option CorpusId
  deriving Repr, DecidableEq

/-- The state of the fuzzer; `found` lists the bases that the loop has found. -/
structure State (Input Observers Other : Type) where
  corpus : InMemoryCorpus (Testcase Input)
  solutions : InMemoryCorpus (Testcase Input)
  executions : Nat
  maxSize : Nat
  fuzzedCorpusId : Option CorpusId
  observers : Observers
  other : Other
  found : List Input

variable {Input Observers Other Value : Type}

abbrev Stage (Input Observers Other Value : Type) :=
  Procedure Error (State Input Observers Other) Value

/-- A call that reads the state and writes the observers and what is not in the state. -/
abbrev Execution (Input Observers Other Value : Type) :=
  State Input Observers Other → Except Error Value × Observers × Other

/-- A call that reads the state and leaves the observers alone. -/
abbrev Call (Input Observers Other Value : Type) :=
  State Input Observers Other → Except Error Value × Other

/-- What the stage is given: executor, fuzzer, mutator and map observer. -/
structure Parts (Input Observers Other : Type) where
  length : Input → Nat
  hash : Input → Nat
  mapHash : Observers → Nat
  preExecAll : Input → Execution Input Observers Other Unit
  runTarget : Input → Execution Input Observers Other ExitKind
  postExecAll : Input → ExitKind → Execution Input Observers Other Unit
  objectiveIsInteresting : Input → ExitKind → Call Input Observers Other Bool
  feedbackIsInteresting : Input → ExitKind → Call Input Observers Other Bool
  objectiveDiscardMetadata : Input → Call Input Observers Other Unit
  feedbackDiscardMetadata : Input → Call Input Observers Other Unit
  objectiveAppendMetadata : Testcase Input → Call Input Observers Other Unit
  feedbackAppendMetadata : Testcase Input → Call Input Observers Other Unit
  onAdd : CorpusId → Call Input Observers Other Unit
  onReplace : CorpusId → Testcase Input → Call Input Observers Other Unit
  iterations : CorpusId → Call Input Observers Other Nat
  mutate : Input → Nat → Call Input Observers Other Input
  postExec : Nat → Option CorpusId → Call Input Observers Other Unit

/-- Run a part that writes the observers. -/
def execute (part : Execution Input Observers Other Value) :
    Stage Input Observers Other Value :=
  ExceptT.mk fun state =>
    ((part state).1,
      { state with observers := (part state).2.1, other := (part state).2.2 })

/-- Call a part that does not. -/
def call (part : Call Input Observers Other Value) :
    Stage Input Observers Other Value :=
  ExceptT.mk fun state => ((part state).1, { state with other := (part state).2 })

section

variable (parts : Parts Input Observers Other)

/-- `execute_input`. -/
def executeInput (input : Input) : Stage Input Observers Other ExitKind := do
  execute (parts.preExecAll input)
  modify fun state => { state with executions := state.executions + 1 }
  let exitKind ← execute (parts.runTarget input)
  execute (parts.postExecAll input exitKind)
  pure exitKind

/-- `Testcase::with_executions`, with the parent of the state. -/
def newTestcase (state : State Input Observers Other) (input : Input) : Testcase Input where
  input := input
  executions := state.executions
  parentId := state.fuzzedCorpusId

/-- `ExecuteInputResult::Corpus` in `process_execution`. -/
def addToCorpus (input : Input) : Stage Input Observers Other (Option CorpusId) := do
  call (parts.objectiveDiscardMetadata input)
  let testcase := newTestcase (← get) input
  call (parts.feedbackAppendMetadata testcase)
  let added := (← get).corpus.add testcase
  modify fun state => { state with corpus := added.2 }
  call (parts.onAdd added.1)
  pure (some added.1)

/-- `ExecuteInputResult::Solution` in `process_execution`. -/
def addToSolutions (input : Input) : Stage Input Observers Other (Option CorpusId) := do
  call (parts.feedbackDiscardMetadata input)
  let testcase := newTestcase (← get) input
  call (parts.objectiveAppendMetadata testcase)
  modify fun state => { state with solutions := (state.solutions.add testcase).2 }
  pure none

/-- `process_execution`, which sends no events here. -/
def processExecution (input : Input) (exitKind : ExitKind) :
    Stage Input Observers Other (Option CorpusId) := do
  if ← call (parts.objectiveIsInteresting input exitKind) then
    addToSolutions parts input
  else if ← call (parts.feedbackIsInteresting input exitKind) then
    addToCorpus parts input
  else
    call (parts.feedbackDiscardMetadata input)
    call (parts.objectiveDiscardMetadata input)
    pure none

/-- `MapEqualityFeedback::is_interesting`. -/
def isInteresting (origHash : Nat) : Stage Input Observers Other Bool := do
  pure (decide (parts.mapHash (← get).observers = origHash))

/-- Run a shorter input; it is the next base if it shows the map and nothing else is new. -/
def tryShorter (origHash : Nat) (base input : Input) (i : Nat) :
    Stage Input Observers Other (Option CorpusId × Input × Nat) := do
  let exitKind ← executeInput parts input
  let solutionCount := (← get).solutions.count
  let corpusCount := (← get).corpus.count
  modify fun state => { state with executions := state.executions + 1 }
  let corpusIdx ← processExecution parts input exitKind
  if (← get).corpus.count = corpusCount ∧ (← get).solutions.count = solutionCount then
    if ← isInteresting parts origHash then
      modify fun state => { state with found := state.found ++ [input] }
      pure (corpusIdx, input, 0)
    else
      pure (corpusIdx, base, i + 1)
  else
    pure (corpusIdx, base, i + 1)

/-- An input that is not shorter is not run. -/
def tryInput (origHash : Nat) (base input : Input) (i : Nat) :
    Stage Input Observers Other (Option CorpusId × Input × Nat) :=
  if parts.length input < parts.length base then
    tryShorter parts origHash base input i
  else
    pure (none, base, i + 1)

/-- The body of the loop, with the next base and the next `i`. -/
def iteration (origHash : Nat) (base : Input) (i : Nat) :
    Stage Input Observers Other (Input × Nat) := do
  modify fun state => { state with maxSize := parts.length base }
  let input ← call (parts.mutate base i)
  let (corpusIdx, next) ← tryInput parts origHash base input i
  call (parts.postExec i corpusIdx)
  pure next

/-- The loop; without fuel there is no answer. -/
def shrink (num origHash : Nat) :
    Nat → Input → Nat → Stage Input Observers Other (Option Input)
  | 0, _, _ => pure none
  | fuel + 1, base, i =>
      if num ≤ i then pure (some base)
      else do
        let (base, i) ← iteration parts origHash base i
        shrink num origHash fuel base i

/-- Put the input that was found in the place of the entry. -/
def replaceEntry (baseCorpusIdx : CorpusId) (base : Input) :
    Stage Input Observers Other Unit := do
  let exitKind ← executeInput parts base
  modify fun state => { state with executions := state.executions + 1 }
  let _ ← call (parts.feedbackIsInteresting base exitKind)
  let testcase : Testcase Input := ⟨base, (← get).executions, none⟩
  call (parts.feedbackAppendMetadata testcase)
  let (prev, corpus) ← liftM ((← get).corpus.replace baseCorpusIdx testcase)
  modify fun state => { state with corpus := corpus }
  call (parts.onReplace baseCorpusIdx prev)

/-- The end of `perform_minification`. -/
def finish (baseCorpusIdx : CorpusId) (input base : Input) (origMaxSize : Nat) :
    Stage Input Observers Other Unit := do
  if parts.hash input ≠ parts.hash base then
    replaceEntry parts baseCorpusIdx base
  modify fun state => { state with maxSize := origMaxSize }

/-- `perform_minification`. -/
def performMinification (fuel : Nat) (baseCorpusIdx : CorpusId) :
    Stage Input Observers Other (Option Unit) := do
  let origMaxSize := (← get).maxSize
  modify fun state => { state with found := [] }
  let num ← call (parts.iterations baseCorpusIdx)
  let entry ← liftM ((← get).corpus.get baseCorpusIdx)
  let _ ← executeInput parts entry.input
  let origHash := parts.mapHash (← get).observers
  match ← shrink parts num origHash fuel entry.input 0 with
  | none => pure none
  | some base =>
      finish parts baseCorpusIdx entry.input base origMaxSize
      pure (some ())

/-- A deterministic target: the map after an execution only depends on the input. -/
def Deterministic (observe : Input → Nat) : Prop :=
  ∀ input state exitKind next,
    (executeInput parts input).outcome state = (.ok exitKind, next) →
    parts.mapHash next.observers = observe input

/-- The entry has not been touched, and these bases have been found. -/
structure Tracks
    (baseCorpusIdx : CorpusId)
    (entry : Testcase Input)
    (found : List Input)
    (state : State Input Observers Other) : Prop where
  held : state.corpus.find baseCorpusIdx = some entry
  found : state.found = found

/-- So it is, and the map has this hash. -/
structure Shows
    (baseCorpusIdx : CorpusId)
    (entry : Testcase Input)
    (found : List Input)
    (seen : Nat)
    (state : State Input Observers Other) : Prop
    extends Tracks baseCorpusIdx entry found state where
  map : parts.mapHash state.observers = seen

variable {parts}
variable {baseCorpusIdx : CorpusId}
variable {entry : Testcase Input}
variable {found : List Input}
variable {observe : Input → Nat}
variable {seen : Nat}

/-- What an execution leaves intact, whatever its parts do. -/
structure ExecutionFrame (Invariant : State Input Observers Other → Prop) : Prop where
  execute :
    ∀ {state} observers other,
      Invariant state →
      Invariant { state with observers := observers, other := other }
  count :
    ∀ {state} executions,
      Invariant state →
      Invariant { state with executions := executions }

/-- What the fuzzer leaves intact when it processes an execution. -/
structure ProcessingFrame (Invariant : State Input Observers Other → Prop) : Prop where
  call : ∀ {state} other, Invariant state → Invariant { state with other := other }
  add :
    ∀ {state} testcase,
      Invariant state →
      Invariant { state with corpus := (state.corpus.add testcase).2 }
  solve :
    ∀ {state} testcase,
      Invariant state →
      Invariant { state with solutions := (state.solutions.add testcase).2 }

section

variable {Invariant : State Input Observers Other → Prop}

theorem ExecutionFrame.execute_keeps
    (frame : ExecutionFrame Invariant)
    (part : Execution Input Observers Other Value) :
    Keeps Invariant (TMin.execute part) :=
  .of_left fun _ holds => frame.execute _ _ holds

theorem ExecutionFrame.executeInput_keeps
    (frame : ExecutionFrame Invariant)
    (input : Input) :
    Keeps Invariant (executeInput parts input) := by
  refine (frame.execute_keeps _).bind fun _ => ?_
  refine (Keeps.modify fun _ holds => frame.count _ holds).bind fun _ => ?_
  refine (frame.execute_keeps _).bind fun _ => ?_
  exact (frame.execute_keeps _).bind fun _ => .pure

namespace ProcessingFrame

variable (frame : ProcessingFrame Invariant)

include frame

theorem call_keeps (part : Call Input Observers Other Value) :
    Keeps Invariant (TMin.call part) :=
  .of_left fun _ holds => frame.call _ holds

theorem addToCorpus_keeps (input : Input) :
    Keeps Invariant (addToCorpus parts input) := by
  refine (frame.call_keeps _).bind fun _ => ?_
  refine Keeps.get.bind fun _ => ?_
  refine (frame.call_keeps _).bind fun _ => ?_
  intro state holds
  rw [outcome_bind_ok outcome_get, outcome_bind_ok (outcome_modify _)]
  exact ((frame.call_keeps _).bind fun _ => .pure) _ (frame.add _ holds)

theorem addToSolutions_keeps (input : Input) :
    Keeps Invariant (addToSolutions parts input) := by
  refine (frame.call_keeps _).bind fun _ => ?_
  refine Keeps.get.bind fun _ => ?_
  refine (frame.call_keeps _).bind fun _ => ?_
  exact (Keeps.modify fun _ holds => frame.solve _ holds).bind fun _ => .pure

theorem processExecution_keeps (input : Input) (exitKind : ExitKind) :
    Keeps Invariant (processExecution parts input exitKind) := by
  refine (frame.call_keeps _).bind fun isSolution => ?_
  split
  · exact frame.addToSolutions_keeps input
  · refine (frame.call_keeps _).bind fun isCorpus => ?_
    split
    · exact frame.addToCorpus_keeps input
    · exact (frame.call_keeps _).bind fun _ => (frame.call_keeps _).bind fun _ => .pure

end ProcessingFrame

end

theorem tracks_frame :
    ExecutionFrame
      (Tracks baseCorpusIdx entry found : State Input Observers Other → Prop) where
  execute _ _ tracks := ⟨tracks.held, tracks.found⟩
  count _ tracks := ⟨tracks.held, tracks.found⟩

theorem call_keeps (part : Call Input Observers Other Value) :
    Keeps (Tracks baseCorpusIdx entry found) (call part) :=
  .of_left fun _ tracks => ⟨tracks.held, tracks.found⟩

theorem executeInput_shows
    (deterministic : Deterministic parts observe)
    (input : Input) :
    Satisfies (Tracks baseCorpusIdx entry found) (executeInput parts input)
      (fun _ => Shows parts baseCorpusIdx entry found (observe input))
      fun _ => Tracks baseCorpusIdx entry found := by
  intro state tracks
  have left : Tracks baseCorpusIdx entry found ((executeInput parts input).outcome state).2 :=
    (tracks_frame.executeInput_keeps input).left tracks
  cases told : (executeInput parts input).outcome state with
  | mk answer next =>
      rw [told] at left
      cases answer with
      | error _ =>
          exact left
      | ok exitKind =>
          exact ⟨left, deterministic input state exitKind next told⟩

theorem find_add_of_held
    {corpus : InMemoryCorpus (Testcase Input)}
    (held : corpus.find baseCorpusIdx = some entry)
    (testcase : Testcase Input) :
    (corpus.add testcase).2.find baseCorpusIdx = some entry := by
  have isId : baseCorpusIdx ∈ corpus.ids :=
    InMemoryCorpus.mem_ids.mpr ⟨entry, held⟩
  rw [InMemoryCorpus.find_add, if_neg (Nat.ne_of_lt (InMemoryCorpus.lt_nextId isId)), held]

theorem shows_frame :
    ProcessingFrame (Shows parts baseCorpusIdx entry found seen) where
  call _ shows := ⟨⟨shows.held, shows.found⟩, shows.map⟩
  add testcase shows := ⟨⟨find_add_of_held shows.held testcase, shows.found⟩, shows.map⟩
  solve _ shows := ⟨⟨shows.held, shows.found⟩, shows.map⟩

/-- What an iteration has done with its input. -/
inductive Outcome
    (parts : Parts Input Observers Other)
    (baseCorpusIdx : CorpusId)
    (entry : Testcase Input)
    (found : List Input)
    (origHash : Nat)
    (observe : Input → Nat)
    (base : Input)
    (i : Nat)
    (next : Input × Nat)
    (state : State Input Observers Other) : Prop where
  | discarded
      (stays : next = (base, i + 1))
      (tracks : Tracks baseCorpusIdx entry found state)
  | taken
      (input : Input)
      (restarts : next = (input, 0))
      (shorter : parts.length input < parts.length base)
      (same : observe input = origHash)
      (tracks : Tracks baseCorpusIdx entry (found ++ [input]) state)

variable {origHash : Nat}
variable {base : Input}
variable {i : Nat}

theorem tryShorter_outcome
    (deterministic : Deterministic parts observe)
    {input : Input}
    (shorter : parts.length input < parts.length base) :
    Satisfies (Tracks baseCorpusIdx entry found)
      (tryShorter parts origHash base input i)
      (fun answer =>
        Outcome parts baseCorpusIdx entry found origHash observe base i answer.2)
      fun _ => Tracks baseCorpusIdx entry found := by
  refine (executeInput_shows deterministic input).bind fun exitKind => ?_
  have untilCompared
      {Value : Type}
      {stage : Stage Input Observers Other Value}
      (keeps : Keeps (Shows parts baseCorpusIdx entry found (observe input)) stage) :=
    Satisfies.failing keeps fun _ _ shows => shows.toTracks
  refine (untilCompared Keeps.get).bind fun _ => ?_
  refine (untilCompared Keeps.get).bind fun _ => ?_
  refine (untilCompared (Keeps.modify fun _ shows => ?_)).bind fun _ => ?_
  · exact ⟨⟨shows.held, shows.found⟩, shows.map⟩
  refine (untilCompared (shows_frame.processExecution_keeps input exitKind)).bind fun corpusIdx => ?_
  refine (untilCompared Keeps.get).bind fun _ => ?_
  refine (untilCompared Keeps.get).bind fun _ => ?_
  split
  · intro state shows
    have compared :
        (isInteresting parts origHash).outcome state =
          (.ok (decide (parts.mapHash state.observers = origHash)), state) :=
      rfl
    rw [outcome_bind_ok compared, shows.map]
    by_cases same : observe input = origHash
    · rw [if_pos (decide_eq_true same), outcome_bind_ok (outcome_modify _)]
      refine .taken input rfl shorter same ⟨shows.held, ?_⟩
      exact congrArg (· ++ [input]) shows.found
    · rw [if_neg (by simpa using same)]
      exact .discarded rfl shows.toTracks
  · exact .pure fun _ shows => .discarded rfl shows.toTracks

theorem tryInput_outcome
    (deterministic : Deterministic parts observe)
    (input : Input) :
    Satisfies (Tracks baseCorpusIdx entry found)
      (tryInput parts origHash base input i)
      (fun answer =>
        Outcome parts baseCorpusIdx entry found origHash observe base i answer.2)
      fun _ => Tracks baseCorpusIdx entry found := by
  unfold tryInput
  split
  · next shorter => exact tryShorter_outcome deterministic shorter
  · exact .pure fun _ tracks => .discarded rfl tracks

theorem call_keeps_outcome
    {next : Input × Nat}
    (part : Call Input Observers Other Value) :
    Keeps (Outcome parts baseCorpusIdx entry found origHash observe base i next)
      (call part) := by
  refine .of_left fun state outcome => ?_
  cases outcome with
  | discarded stays tracks =>
      exact .discarded stays ⟨tracks.held, tracks.found⟩
  | taken input restarts shorter same tracks =>
      exact .taken input restarts shorter same ⟨tracks.held, tracks.found⟩

theorem iteration_outcome
    (deterministic : Deterministic parts observe) :
    Satisfies (Tracks baseCorpusIdx entry found) (iteration parts origHash base i)
      (Outcome parts baseCorpusIdx entry found origHash observe base i)
      fun _ state =>
        ∃ next, Outcome parts baseCorpusIdx entry found origHash observe base i next state := by
  have untouched :
      ∀ (_ : Error) (state : State Input Observers Other),
        Tracks baseCorpusIdx entry found state →
        ∃ next,
          Outcome parts baseCorpusIdx entry found origHash observe base i next state :=
    fun _ _ tracks => ⟨_, .discarded rfl tracks⟩
  refine Satisfies.bind (Satisfies.failing (Keeps.modify fun _ tracks => ?_) untouched)
    fun _ => ?_
  · exact ⟨tracks.held, tracks.found⟩
  refine (Satisfies.failing (call_keeps _) untouched).bind fun input => ?_
  refine ((tryInput_outcome deterministic input).failing untouched).bind ?_
  rintro ⟨corpusIdx, next⟩
  refine Satisfies.bind
    (Satisfies.failing (call_keeps_outcome _) fun _ _ outcome => ⟨next, outcome⟩)
    fun _ => ?_
  exact .pure fun _ outcome => outcome

variable (parts) in
/-- An upper bound for the iterations that are still to come. -/
def remaining (num : Nat) (base : Input) (i : Nat) : Nat :=
  parts.length base * num + (num - i)

variable (parts) in
/-- The entry is in its place, and all that was found is shorter and shows the same map. -/
structure Sound
    (observe : Input → Nat)
    (baseCorpusIdx : CorpusId)
    (entry : Testcase Input)
    (state : State Input Observers Other) : Prop where
  held : state.corpus.find baseCorpusIdx = some entry
  found :
    ∀ smaller ∈ state.found,
      parts.length smaller < parts.length entry.input ∧
        observe smaller = observe entry.input

/-- The input of the entry, or one that was found. -/
def IsBase
    (entry : Testcase Input)
    (base : Input)
    (state : State Input Observers Other) : Prop :=
  base = entry.input ∨ base ∈ state.found

theorem Sound.length_base_le
    {state : State Input Observers Other}
    (sound : Sound parts observe baseCorpusIdx entry state)
    (isBase : IsBase entry base state) :
    parts.length base ≤ parts.length entry.input := by
  rcases isBase with rfl | isFound
  · exact Nat.le_refl _
  · exact Nat.le_of_lt (sound.found base isFound).1

namespace Outcome

variable {next : Input × Nat}
variable {state later : State Input Observers Other}

theorem sound
    (sound : Sound parts observe baseCorpusIdx entry state)
    (isBase : IsBase entry base state)
    (outcome :
      Outcome parts baseCorpusIdx entry state.found (observe entry.input) observe base i
        next later) :
    Sound parts observe baseCorpusIdx entry later := by
  cases outcome with
  | discarded _ tracks =>
      exact ⟨tracks.held, tracks.found ▸ sound.found⟩
  | taken input _ shorter same tracks =>
      refine ⟨tracks.held, fun smaller isFound => ?_⟩
      rw [tracks.found, List.mem_append, List.mem_singleton] at isFound
      rcases isFound with isFound | rfl
      · exact sound.found smaller isFound
      · exact ⟨Nat.lt_of_lt_of_le shorter (sound.length_base_le isBase), same⟩

theorem isBase
    (isBase : IsBase entry base state)
    (outcome :
      Outcome parts baseCorpusIdx entry state.found origHash observe base i next later) :
    IsBase entry next.1 later := by
  cases outcome with
  | discarded stays tracks =>
      rw [stays]
      exact isBase.imp_right fun isFound => tracks.found ▸ isFound
  | taken input restarts _ _ tracks =>
      rw [restarts]
      exact .inr (tracks.found ▸ List.mem_append_right _ (List.mem_singleton_self _))

theorem remaining_lt
    {num : Nat}
    (tries : i < num)
    (outcome : Outcome parts baseCorpusIdx entry found origHash observe base i next state) :
    remaining parts num next.1 next.2 < remaining parts num base i := by
  unfold remaining
  cases outcome with
  | discarded stays _ =>
      rw [stays]
      exact Nat.add_lt_add_left (by omega) _
  | taken input restarts shorter _ _ =>
      rw [restarts]
      calc
        parts.length input * num + (num - 0) = (parts.length input + 1) * num := by
          rw [Nat.sub_zero, Nat.succ_mul]
        _ ≤ parts.length base * num := Nat.mul_le_mul_right num shorter
        _ < parts.length base * num + (num - i) :=
          Nat.lt_add_of_pos_right (Nat.sub_pos_of_lt tries)

end Outcome

theorem iteration_sound
    (deterministic : Deterministic parts observe)
    {num : Nat}
    (tries : i < num) :
    Satisfies
      (fun state =>
        Sound parts observe baseCorpusIdx entry state ∧ IsBase entry base state)
      (iteration parts (observe entry.input) base i)
      (fun next state =>
        (Sound parts observe baseCorpusIdx entry state ∧ IsBase entry next.1 state) ∧
          remaining parts num next.1 next.2 < remaining parts num base i)
      fun _ => Sound parts observe baseCorpusIdx entry := by
  intro state holds
  obtain ⟨sound, isBase⟩ := holds
  have fromHere :
      Satisfies (Tracks baseCorpusIdx entry state.found)
        (iteration parts (observe entry.input) base i)
        (fun next state =>
          (Sound parts observe baseCorpusIdx entry state ∧ IsBase entry next.1 state) ∧
            remaining parts num next.1 next.2 < remaining parts num base i)
        fun _ => Sound parts observe baseCorpusIdx entry := by
    refine (iteration_outcome deterministic).weaken (fun _ tracks => tracks) ?_ ?_
    · intro next later outcome
      exact ⟨⟨outcome.sound sound isBase, outcome.isBase isBase⟩, outcome.remaining_lt tries⟩
    · rintro _ later ⟨next, outcome⟩
      exact outcome.sound sound isBase
  exact fromHere state ⟨sound.held, rfl⟩

theorem shrink_sound
    (deterministic : Deterministic parts observe)
    (num fuel : Nat)
    (base : Input)
    (i : Nat) :
    Satisfies
      (fun state =>
        Sound parts observe baseCorpusIdx entry state ∧ IsBase entry base state)
      (shrink parts num (observe entry.input) fuel base i)
      (fun answer state =>
        Sound parts observe baseCorpusIdx entry state ∧
          (∀ smaller, answer = some smaller → IsBase entry smaller state) ∧
          (remaining parts num base i < fuel → answer ≠ none))
      fun _ => Sound parts observe baseCorpusIdx entry := by
  induction fuel generalizing base i with
  | zero =>
      refine .pure fun state ⟨sound, _⟩ => ⟨sound, ?_, ?_⟩
      · exact fun _ impossible => nomatch impossible
      · exact fun impossible => absurd impossible (Nat.not_lt_zero _)
  | succ fuel ih =>
      unfold shrink
      split
      · refine .pure fun state ⟨sound, isBase⟩ => ⟨sound, ?_, ?_⟩
        · rintro smaller ⟨⟩
          exact isBase
        · exact fun _ impossible => nomatch impossible
      · next notDone =>
          have tries : i < num := Nat.lt_of_not_le notDone
          refine (iteration_sound deterministic tries).bind fun next => ?_
          intro state reached
          obtain ⟨holds, fewer⟩ := reached
          refine (ih next.1 next.2).weaken (fun _ holds => holds)
            (fun answer later reached => ⟨reached.1, reached.2.1, fun enough => ?_⟩)
            (fun _ _ sound => sound) state holds
          exact reached.2.2 (Nat.lt_of_lt_of_le fewer (Nat.le_of_lt_succ enough))

variable (parts) in
/-- The entry is as it was, or it holds an input that was found. -/
structure Minimized
    (observe : Input → Nat)
    (baseCorpusIdx : CorpusId)
    (entry : Testcase Input)
    (state : State Input Observers Other) : Prop where
  found :
    ∀ smaller ∈ state.found,
      parts.length smaller < parts.length entry.input ∧
        observe smaller = observe entry.input
  held :
    state.corpus.find baseCorpusIdx = some entry ∨
      ∃ smaller ∈ state.found, ∃ executions,
        state.corpus.find baseCorpusIdx = some ⟨smaller, executions, none⟩

theorem Sound.minimized
    {state : State Input Observers Other}
    (sound : Sound parts observe baseCorpusIdx entry state) :
    Minimized parts observe baseCorpusIdx entry state :=
  ⟨sound.found, .inl sound.held⟩

theorem keeps_sound
    {stage : Stage Input Observers Other Value}
    (keeps : ∀ found, Keeps (Tracks baseCorpusIdx entry found) stage)
    {smaller : Input} :
    Satisfies
      (fun state => Sound parts observe baseCorpusIdx entry state ∧ smaller ∈ state.found)
      stage
      (fun _ state =>
        Sound parts observe baseCorpusIdx entry state ∧ smaller ∈ state.found)
      fun _ => Minimized parts observe baseCorpusIdx entry := by
  have kept :
      Keeps
        (fun state =>
          Sound parts observe baseCorpusIdx entry state ∧ smaller ∈ state.found)
        stage := by
    refine .of_left fun state holds => ?_
    obtain ⟨sound, isFound⟩ := holds
    have tracks : Tracks baseCorpusIdx entry state.found (stage.outcome state).2 :=
      (keeps state.found).left ⟨sound.held, rfl⟩
    exact ⟨⟨tracks.held, tracks.found ▸ sound.found⟩, tracks.found ▸ isFound⟩
  exact Satisfies.failing kept fun _ _ holds => holds.1.minimized

theorem replaceEntry_minimized
    {smaller : Input} :
    Satisfies
      (fun state => Sound parts observe baseCorpusIdx entry state ∧ smaller ∈ state.found)
      (replaceEntry parts baseCorpusIdx smaller)
      (fun _ => Minimized parts observe baseCorpusIdx entry)
      fun _ => Minimized parts observe baseCorpusIdx entry := by
  refine (keeps_sound fun _ => tracks_frame.executeInput_keeps smaller).bind fun exitKind => ?_
  refine (keeps_sound fun _ => Keeps.modify fun _ tracks => ?_).bind fun _ => ?_
  · exact ⟨tracks.held, tracks.found⟩
  refine (keeps_sound fun _ => call_keeps _).bind fun _ => ?_
  refine (keeps_sound fun _ => Keeps.get).bind fun before => ?_
  refine (keeps_sound fun _ => call_keeps _).bind fun _ => ?_
  intro state holds
  obtain ⟨sound, isFound⟩ := holds
  rw [outcome_bind_ok outcome_get, InMemoryCorpus.replace_eq, sound.held,
    outcome_bind_ok (outcome_lift _), outcome_bind_ok (outcome_modify _)]
  refine Keeps.of_left (fun later minimized => ?_) _ ?_
  · exact ⟨minimized.found, minimized.held⟩
  · refine ⟨sound.found, .inr ⟨smaller, isFound, before.executions, ?_⟩⟩
    simp only [InMemoryCorpus.find_modify, sound.held, if_true, Option.map_some]

theorem finish_minimized
    (origMaxSize : Nat) :
    Satisfies
      (fun state => Sound parts observe baseCorpusIdx entry state ∧ IsBase entry base state)
      (finish parts baseCorpusIdx entry.input base origMaxSize)
      (fun _ => Minimized parts observe baseCorpusIdx entry)
      fun _ => Minimized parts observe baseCorpusIdx entry := by
  have restores :
      Keeps (Minimized parts observe baseCorpusIdx entry)
        (modify fun state => { state with maxSize := origMaxSize } :
          Stage Input Observers Other Unit) :=
    Keeps.modify fun _ minimized => ⟨minimized.found, minimized.held⟩
  unfold finish
  split
  · next differs =>
      refine Satisfies.bind (replaceEntry_minimized.starting ?_) fun _ => restores
      rintro state ⟨sound, rfl | isFound⟩
      · exact absurd rfl differs
      · exact ⟨sound, isFound⟩
  · exact fun state holds => restores state holds.1.minimized

theorem shrink_minimized
    (deterministic : Deterministic parts observe)
    (num fuel origMaxSize : Nat) :
    Satisfies (Shows parts baseCorpusIdx entry [] (observe entry.input))
      (do
        match ← shrink parts num (observe entry.input) fuel entry.input 0 with
        | none => pure none
        | some base =>
            finish parts baseCorpusIdx entry.input base origMaxSize
            pure (some ()))
      (fun answer state =>
        Minimized parts observe baseCorpusIdx entry state ∧
          (remaining parts num entry.input 0 < fuel → answer ≠ none))
      fun _ => Minimized parts observe baseCorpusIdx entry := by
  have shrunk :
      Satisfies (Shows parts baseCorpusIdx entry [] (observe entry.input))
        (shrink parts num (observe entry.input) fuel entry.input 0)
        (fun answer state =>
          Sound parts observe baseCorpusIdx entry state ∧
            (∀ smaller, answer = some smaller → IsBase entry smaller state) ∧
            (remaining parts num entry.input 0 < fuel → answer ≠ none))
        fun _ => Minimized parts observe baseCorpusIdx entry := by
    refine (shrink_sound deterministic num fuel entry.input 0).weaken ?_
      (fun _ _ reached => reached) fun _ _ sound => sound.minimized
    intro state shows
    refine ⟨⟨shows.held, ?_⟩, .inl rfl⟩
    rw [shows.found]
    exact fun _ impossible => nomatch impossible
  refine shrunk.bind fun answer => ?_
  cases answer with
  | none =>
      refine .pure fun _ reached => ⟨reached.1.minimized, fun enough => ?_⟩
      exact absurd rfl (reached.2.2 enough)
  | some base =>
      refine Satisfies.bind ((finish_minimized origMaxSize).starting ?_) fun _ => .pure ?_
      · exact fun state reached => ⟨reached.1, reached.2.1 base rfl⟩
      · exact fun _ minimized => ⟨minimized, fun _ => Option.some_ne_none _⟩

theorem performMinification_minimized
    (deterministic : Deterministic parts observe)
    {state : State Input Observers Other}
    (held : state.corpus.find baseCorpusIdx = some entry)
    (fuel : Nat) :
    Satisfies (· = state) (performMinification parts fuel baseCorpusIdx)
      (fun answer next =>
        Minimized parts observe baseCorpusIdx entry next ∧
          (answer = none →
            ∃ num,
              (parts.iterations baseCorpusIdx { state with found := [] }).1 = .ok num ∧
                fuel ≤ remaining parts num entry.input 0))
      fun _ => Minimized parts observe baseCorpusIdx entry := by
  rintro state rfl
  unfold performMinification
  rw [outcome_bind_ok outcome_get, outcome_bind_ok (outcome_modify _)]
  have untouched : Tracks baseCorpusIdx entry [] { state with found := [] } :=
    ⟨held, rfl⟩
  cases asked : parts.iterations baseCorpusIdx { state with found := [] } with
  | mk answer other =>
  have called :
      outcome (call (parts.iterations baseCorpusIdx)) { state with found := [] } =
        (answer, { state with other := other, found := [] }) := by
    change ((parts.iterations baseCorpusIdx { state with found := [] }).1, _) = _
    rw [asked]
  cases answer with
  | error error =>
      rw [outcome_bind_error called]
      exact Sound.minimized ⟨held, fun _ impossible => nomatch impossible⟩
  | ok num =>
      have got : state.corpus.get baseCorpusIdx = .ok entry :=
        InMemoryCorpus.get_eq_ok.mpr held
      rw [outcome_bind_ok called, outcome_bind_ok outcome_get]
      simp only
      rw [got, outcome_bind_ok (outcome_lift _)]
      refine Satisfies.bind
        ((executeInput_shows deterministic entry.input).failing fun _ _ tracks => ?_)
        (fun _ => ?_) _ ⟨held, rfl⟩
      · exact Sound.minimized ⟨tracks.held, tracks.found ▸ fun _ impossible => nomatch impossible⟩
      · intro later shows
        rw [outcome_bind_ok outcome_get, shows.map]
        refine (shrink_minimized deterministic num fuel state.maxSize).weaken
          (fun _ shows => shows) (fun answer next reached => ⟨reached.1, ?_⟩)
          (fun _ _ minimized => minimized) later shows
        rintro rfl
        exact ⟨num, rfl, Nat.le_of_not_lt fun enough => reached.2 enough rfl⟩

variable (parts) in
/--
Whatever the mutators do, the stage comes to an end.  All inputs that it finds are
shorter than the one of the entry and show the same map; the entry is replaced by one
of them, or it is left as it was.
-/
theorem minimization_is_sound
    (deterministic : Deterministic parts observe)
    (state : State Input Observers Other)
    (held : state.corpus.find baseCorpusIdx = some entry) :
    (∃ enough, ∀ fuel ≥ enough, ∀ next,
      (performMinification parts fuel baseCorpusIdx).outcome state ≠ (.ok none, next)) ∧
    ∀ fuel answer next,
      (performMinification parts fuel baseCorpusIdx).outcome state = (answer, next) →
      (∀ smaller ∈ next.found,
        parts.length smaller < parts.length entry.input ∧
          observe smaller = observe entry.input) ∧
      (next.corpus.find baseCorpusIdx = some entry ∨
        ∃ smaller ∈ next.found, ∃ executions,
          next.corpus.find baseCorpusIdx = some ⟨smaller, executions, none⟩) ∧
      (next.found = [] → next.corpus.find baseCorpusIdx = some entry) := by
  have reached := performMinification_minimized deterministic held
  refine ⟨?_, fun fuel answer next ended => ?_⟩
  · cases asked : (parts.iterations baseCorpusIdx { state with found := [] }).1 with
    | error error =>
        refine ⟨0, fun fuel _ next stuck => ?_⟩
        obtain ⟨num, told, -⟩ := ((reached fuel).of_ok rfl stuck).2 rfl
        cases asked.symm.trans told
    | ok num =>
        refine ⟨remaining parts num entry.input 0 + 1, fun fuel enough next stuck => ?_⟩
        obtain ⟨other, told, tooFew⟩ := ((reached fuel).of_ok rfl stuck).2 rfl
        cases asked.symm.trans told
        exact absurd tooFew (Nat.not_le_of_lt enough)
  · have minimized : Minimized parts observe baseCorpusIdx entry next := by
      cases answer with
      | error _ => exact (reached fuel).of_error rfl ended
      | ok _ => exact ((reached fuel).of_ok rfl ended).1
    refine ⟨minimized.found, minimized.held, fun nothing => ?_⟩
    refine minimized.held.resolve_right ?_
    rintro ⟨smaller, isFound, -⟩
    rw [nothing] at isFound
    exact nomatch isFound

end

/-- The observer has counted the zeros; the mutator drops the last byte. -/
def droppingParts : Parts (List Nat) Nat Unit where
  length := List.length
  hash := List.length
  mapHash := fun zeros => zeros
  preExecAll := fun _ state => (.ok (), 0, state.other)
  runTarget := fun input state => (.ok .ok, input.count 0, state.other)
  postExecAll := fun _ _ state => (.ok (), state.observers, state.other)
  objectiveIsInteresting := fun _ _ state => (.ok false, state.other)
  feedbackIsInteresting := fun _ _ state => (.ok false, state.other)
  objectiveDiscardMetadata := fun _ state => (.ok (), state.other)
  feedbackDiscardMetadata := fun _ state => (.ok (), state.other)
  objectiveAppendMetadata := fun _ state => (.ok (), state.other)
  feedbackAppendMetadata := fun _ state => (.ok (), state.other)
  onAdd := fun _ state => (.ok (), state.other)
  onReplace := fun _ _ state => (.ok (), state.other)
  iterations := fun _ state => (.ok 2, state.other)
  mutate := fun input _ state => (.ok input.dropLast, state.other)
  postExec := fun _ _ state => (.ok (), state.other)

theorem droppingParts_deterministic :
    Deterministic droppingParts (List.count 0) := by
  intro input state exitKind next executed
  cases executed
  rfl

/-- A fuzzer with one entry. -/
def oneEntry (input : List Nat) : State (List Nat) Nat Unit where
  corpus := (InMemoryCorpus.new.add ⟨input, 1, none⟩).2
  solutions := .new
  executions := 1
  maxSize := 10
  fuzzedCorpusId := none
  observers := 0
  other := ()
  found := []

theorem minimization_is_sound_dropping :
    ((performMinification droppingParts 20 0).outcome (oneEntry [0, 0, 1, 2])).2.found =
        [[0, 0, 1], [0, 0]] ∧
      ∀ fuel answer next,
        (performMinification droppingParts fuel 0).outcome (oneEntry [0, 0, 1, 2]) =
          (answer, next) →
        ∀ smaller ∈ next.found, smaller.length < 4 ∧ smaller.count 0 = 2 := by
  refine ⟨by decide +kernel, fun fuel answer next ended => ?_⟩
  exact
    ((minimization_is_sound droppingParts droppingParts_deterministic
      (oneEntry [0, 0, 1, 2]) rfl).2 fuel answer next ended).1

end MeFuzz.TMin
