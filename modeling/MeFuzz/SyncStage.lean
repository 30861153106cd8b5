import MeFuzz.TransitionRun
import MeFuzz.InMemoryCorpus

namespace MeFuzz.Sync

open Corpus (CorpusId InMemoryCorpus)

/-!
# Sending the corpus to the broker

`SyncFromBrokerStage::perform` sends the entries behind the one it sent last and
remembers the last entry of the corpus.  Loading, converting, and sending an
entry, and what the broker sent meanwhile, are answers given to one `perform`.
The log of what was sent is kept beside the state of the fuzzer.
-/

/-- `ExitKind`, without the differential executors' kind. -/
inductive ExitKind where
  | ok
  | crash
  | oom
  | timeout
  deriving Repr, DecidableEq

/-- `EventConfig`. -/
inductive EventConfig where
  | alwaysUnique
  | fromName (nameHash : UInt64)
  | buildId (id : List UInt8)
  deriving Repr, DecidableEq

/-- `Event::NewTestcase`. -/
structure NewTestcase (Input : Type) where
  input : Input
  observersBuf : Option (List UInt8)
  exitKind : ExitKind
  corpusSize : Nat
  clientConfig : EventConfig
  time : Nat
  executions : Nat
  deriving Repr, DecidableEq

/-- The call that made a `perform` fail. -/
inductive Error where
  | corpus (error : Corpus.Error)
  | loadInput
  | convert
  | sendBuf
  | process
  deriving Repr, DecidableEq

/-- The answers to the calls of one `perform`; those for an entry go by its id. -/
structure Calls (Testcase Input Converted : Type) where
  loadInput : CorpusId → Testcase → Option Input
  currentTime : CorpusId → Nat
  convert : CorpusId → Input → Option Converted
  sendBuf : CorpusId → NewTestcase Converted → Bool
  /-- The testcases that `process` adds to the corpus. -/
  received : List Testcase
  /-- Whether `process` returns without an error. -/
  processed : Bool

/-- `SyncFromBrokerMetadata`. -/
structure SyncFromBrokerMetadata where
  lastId : Option CorpusId
  deriving Repr, DecidableEq

/-- What the stage works on, with everything it has sent. -/
structure State (Testcase Converted : Type) where
  corpus : InMemoryCorpus Testcase
  metadata : Option SyncFromBrokerMetadata
  sent : List (CorpusId × NewTestcase Converted)

variable {Testcase Input Converted : Type}

/-- Nothing was sent yet. -/
def State.start (corpus : InMemoryCorpus Testcase) : State Testcase Converted where
  corpus := corpus
  metadata := none
  sent := []

section

variable (canConvert : Bool)
variable (calls : Calls Testcase Input Converted)

/-- `LlmpEventConverter::fire` of a `NewTestcase`, with what goes to the broker. -/
def fire
    (id : CorpusId)
    (event : NewTestcase Input) :
    Except Error (Option (NewTestcase Converted)) :=
  if ¬ canConvert then .ok none
  else
    match calls.convert id event.input with
    | none => .error .convert
    | some input =>
        let converted : NewTestcase Converted :=
          { input := input
            observersBuf := event.observersBuf
            exitKind := event.exitKind
            corpusSize := event.corpusSize
            clientConfig := event.clientConfig
            time := event.time
            executions := event.executions }
        if calls.sendBuf id converted then .ok (some converted)
        else .error .sendBuf

/-- The body of the loop in `perform`. -/
def sendEntry
    (corpus : InMemoryCorpus Testcase)
    (id : CorpusId) : Except Error (Option (NewTestcase Converted)) :=
  match corpus.get id with
  | .error error => .error (.corpus error)
  | .ok testcase =>
      match calls.loadInput id testcase with
      | none => .error .loadInput
      | some input =>
          fire canConvert calls id
            { input := input
              observersBuf := none
              exitKind := .ok
              corpusSize := 0
              clientConfig := .alwaysUnique
              time := calls.currentTime id
              executions := 0 }

/-- The loop in `perform`; no result where the fuel does not suffice. -/
def sendFrom (corpus : InMemoryCorpus Testcase) :
    Nat → Option CorpusId →
      List (CorpusId × NewTestcase Converted) × Option (Except Error Unit)
  | _, none => ([], some (.ok ()))
  | 0, some _ => ([], none)
  | fuel + 1, some id =>
      match sendEntry canConvert calls corpus id with
      | .error error => ([], some (.error error))
      | .ok event =>
          let rest := sendFrom corpus fuel (corpus.next id)
          (event.toList.map (fun event => (id, event)) ++ rest.1, rest.2)

namespace State

variable (state : State Testcase Converted)

/-- The entry sent last, as far as the metadata knows. -/
def lastId : Option CorpusId :=
  state.metadata.bind SyncFromBrokerMetadata.lastId

/-- The entry the loop starts with. -/
def curId : Option CorpusId :=
  match state.lastId with
  | none => state.corpus.first
  | some id => state.corpus.next id

/-- The metadata after the loop. -/
def rememberLast : Option SyncFromBrokerMetadata :=
  match state.lastId with
  | none => some ⟨state.corpus.last⟩
  | some _ =>
      state.metadata.map fun metadata =>
        { metadata with lastId := state.corpus.last }

/-- `LlmpEventConverter::process`. -/
def process : Option (Except Error Unit) × State Testcase Converted :=
  (some (if calls.processed then .ok () else .error .process),
    { state with
      corpus :=
        calls.received.foldl
          (fun corpus testcase => (corpus.add testcase).2) state.corpus })

/-- `SyncFromBrokerStage::perform`. -/
def perform : Option (Except Error Unit) × State Testcase Converted :=
  if canConvert then
    match
        sendFrom canConvert calls state.corpus state.corpus.count
          state.curId with
    | (sent, some (.ok ())) =>
        process calls
          { state with
            metadata := state.rememberLast
            sent := state.sent ++ sent }
    | (sent, result) => (result, { state with sent := state.sent ++ sent })
  else process calls state

/-- `Corpus::remove`, which changes nothing for an id that is not there. -/
def remove (idx : CorpusId) : State Testcase Converted :=
  match state.corpus.remove idx with
  | .ok (_, corpus) => { state with corpus := corpus }
  | .error _ => state

end State

end

/-- What happens to the corpus between and during the runs of the stage. -/
inductive Action (Testcase Input Converted : Type) where
  | add (testcase : Testcase)
  | remove (idx : CorpusId)
  | perform (calls : Calls Testcase Input Converted)

/-- One action; a stage has a converter or has none. -/
def State.act
    (canConvert : Bool)
    (state : State Testcase Converted) :
    Action Testcase Input Converted → State Testcase Converted
  | .add testcase => { state with corpus := (state.corpus.add testcase).2 }
  | .remove idx => state.remove idx
  | .perform calls => (state.perform canConvert calls).2

/-- The runs of one stage. -/
def Step (canConvert : Bool) :
    StepRelation (State Testcase Converted) (Action Testcase Input Converted) :=
  .ofFunction fun state action => some (state.act canConvert action)

/-- The ids of the entries sent, once for each time. -/
def State.sentIds (state : State Testcase Converted) : List CorpusId :=
  state.sent.map Prod.fst

/-- A `perform` that succeeds leaves every entry it found sent exactly once. -/
def SentExactlyOnce
    (canConvert : Bool)
    (state : State Testcase Converted) :
    Action Testcase Input Converted → Prop
  | .perform calls =>
      (state.perform canConvert calls).1 = some (.ok ()) →
        ∀ id ∈ state.corpus.ids,
          (state.perform canConvert calls).2.sentIds.count id = 1
  | _ => True

end MeFuzz.Sync
