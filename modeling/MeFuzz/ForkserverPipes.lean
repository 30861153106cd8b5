import MeFuzz.TransitionRun

namespace MeFuzz.Forkserver

/-!
# The fuzzer and its forkserver

The fuzzer and the forkserver exchange words of four bytes over two pipes, which
carry each of them whole.  The fuzzer asks for a run and reads two words, the process
id of the child and its wait status.  The forkserver starts one child at a time and
waits for it.  Either side can be held up between any two of its system calls, each of
which may fail.
-/

/-- How a run has ended. -/
inductive ExitKind where
  | ok
  | crash
  | timeout
  deriving Repr, DecidableEq

/-- `WIFSIGNALED`. -/
def wifsignaled (status : Int) : Bool :=
  decide (0 < status % 128 ∧ status % 128 < 127)

/-- `WIFSTOPPED`. -/
def wifstopped (status : Int) : Bool :=
  decide (status % 256 = 127)

/-- `Forkserver`, without its pipes. -/
structure Executor where
  childPid : Int
  status : Int
  lastRunTimedOut : Int
  deriving Repr, DecidableEq

/-- Where `run_target` is: before it is called or before one of its system calls. -/
inductive Place where
  | returned
  | requested
  | started
  | killed
  deriving Repr, DecidableEq

namespace Executor

/-- `Forkserver::new`. -/
def new : Executor where
  childPid := 0
  status := 0
  lastRunTimedOut := 0

/-- A run has been asked for. -/
def request (executor : Executor) : Executor :=
  { executor with lastRunTimedOut := 0 }

/-- The process id is refused if it is not positive. -/
def receivePid (executor : Executor) (pid : Int) : Option Executor :=
  if pid ≤ 0 then none else some { executor with childPid := pid }

/-- The wait status of a child that was in time. -/
def receiveStatus (executor : Executor) (status : Int) : ExitKind × Executor :=
  (if wifsignaled status then .crash else .ok,
    { executor with
      status
      childPid := 0 })

/-- The child is killed as it was not in time. -/
def expire (executor : Executor) : Executor :=
  { executor with lastRunTimedOut := 1 }

/-- A child that was killed has been waited for. -/
def receiveKilled (executor : Executor) : ExitKind × Executor :=
  (.timeout, { executor with childPid := 0 })

end Executor

/-- A process that was forked, until it is waited for. -/
inductive Condition where
  | running
  | stopped (status : Int)
  | ended (status : Int)
  deriving Repr, DecidableEq

/-- A child process. -/
structure Process where
  pid : Int
  condition : Condition
  deriving Repr, DecidableEq

/-- Where the loop of the forkserver is. -/
inductive Phase where
  | reading
  | requested (wasKilled : Int)
  | running
  | waiting
  | relaying (status : Int)
  | exited
  deriving Repr, DecidableEq

/-- The forkserver, its child, the children before it, and how many runs it began. -/
structure Server where
  phase : Phase
  childStopped : Bool
  child : Option Process
  earlier : List Process
  run : Nat

/-- Before the first run. -/
def Server.new : Server where
  phase := .reading
  childStopped := false
  child := none
  earlier := []
  run := 0

/-- A word of the status pipe, with the run that it is about. -/
structure Word where
  value : Int
  run : Nat
  isStatus : Bool
  deriving Repr, DecidableEq

/-- A word that a call has read, as a process id or as a status. -/
structure Reading where
  call : Nat
  word : Word
  asStatus : Bool

/-- What a call has returned, the status that it had read, and if it has killed. -/
structure Result where
  call : Nat
  exitKind : ExitKind
  status : Word
  killed : Bool

/-- A word that was sent to ask for a run, and if the child before was killed. -/
structure Request where
  timedOut : Int
  killed : Bool

/--
The calls that have asked for a run, what they have sent, read and returned, if the
last of them has killed its child, and if one has failed after it had asked.
-/
structure History where
  calls : Nat
  requests : List Request
  readings : List Reading
  results : List Result
  killed : Bool
  cutShort : Bool

/-- Nothing has happened. -/
def History.new : History where
  calls := 0
  requests := []
  readings := []
  results := []
  killed := false
  cutShort := false

/-- Both sides and the pipes between them. -/
structure System where
  executor : Executor
  place : Place
  server : Server
  ctl : List Int
  st : List Word
  history : History

/-- The forkserver has just been set up. -/
def System.new : System where
  executor := Executor.new
  place := .returned
  server := Server.new
  ctl := []
  st := []
  history := History.new

/-- What the fuzzer, the forkserver and the child do. -/
inductive Action where
  | request
  | requestFails
  | readPid
  | readPidFails
  | readStatus
  | selectFails
  | expire
  | readKilled
  | readKilledFails
  | serverReads
  | serverReaps
  | serverForks (pid : Int)
  | serverResumes
  | serverWritesPid
  | serverWaits
  | serverWritesStatus
  | serverExits
  | childStops (status : Int)
  | childEnds (status : Int)
  deriving Repr, DecidableEq

namespace History

/-- A call asks for a run. -/
def request (history : History) (timedOut : Int) : History :=
  { history with
    calls := history.calls + 1
    requests := history.requests ++ [{ timedOut, killed := history.killed }]
    killed := false }

/-- The call reads a word. -/
def read (history : History) (word : Word) (asStatus : Bool) : History :=
  { history with
    readings :=
      history.readings ++ [{ call := history.calls, word, asStatus }] }

/-- The call returns after it has read a status. -/
def returned
    (history : History)
    (exitKind : ExitKind)
    (status : Word) : History :=
  { history with
    results :=
      history.results ++
        [{ call := history.calls, exitKind, status, killed := history.killed }] }

/-- The call returns an error after it has asked for a run. -/
def fail (history : History) : History :=
  { history with cutShort := true }

/-- The call kills its child. -/
def kill (history : History) : History :=
  { history with killed := true }

end History

namespace System

/-- The word has been sent. -/
def requested (system : System) : System :=
  { system with
    executor := system.executor.request
    place := .requested
    ctl := system.ctl ++ [system.executor.lastRunTimedOut]
    history := system.history.request system.executor.lastRunTimedOut }

/-- The call returns an error. -/
def failed (system : System) : System :=
  { system with
    place := .returned
    history := system.history.fail }

/-- The first word of the status pipe is read as a process id. -/
def pidRead (system : System) (word : Word) (rest : List Word) : System :=
  let read :=
    { system with
      st := rest
      history := system.history.read word false }
  match system.executor.receivePid word.value with
  | none => read.failed
  | some executor =>
      { read with
        executor
        place := .started }

/-- The first word of the status pipe is read as a status in time. -/
def statusRead (system : System) (word : Word) (rest : List Word) : System :=
  let (exitKind, executor) := system.executor.receiveStatus word.value
  { system with
    executor
    place := .returned
    st := rest
    history := (system.history.read word true).returned exitKind word }

/-- The call kills its child. -/
def expired (system : System) : System :=
  { system with
    executor := system.executor.expire
    place := .killed
    history := system.history.kill }

/-- The first word of the status pipe is read after the child was killed. -/
def killedRead (system : System) (word : Word) (rest : List Word) : System :=
  let (exitKind, executor) := system.executor.receiveKilled
  { system with
    executor
    place := .returned
    st := rest
    history := (system.history.read word true).returned exitKind word }

/-- The forkserver is in another state. -/
def serves (system : System) (server : Server) : System :=
  { system with server }

end System

namespace Server

/-- A child is forked. -/
def fork (server : Server) (pid : Int) : Server :=
  { server with
    phase := .running
    child :=
      some
        { pid
          condition := .running }
    earlier := server.earlier ++ server.child.toList
    run := server.run + 1 }

/-- A stopped child goes on; one that is dead already does not. -/
def resume (server : Server) (process : Process) : Server :=
  { server with
    phase := .running
    childStopped := false
    child :=
      some
        { process with
          condition :=
            match process.condition with
            | .ended status => .ended status
            | _ => .running }
    run := server.run + 1 }

/-- `waitpid` gives this status, in persistent mode also for a child that has stopped. -/
def WaitGives
    (persistent : Bool)
    (process : Process)
    (status : Int) : Prop :=
  (process.condition = .ended status ∧ wifstopped status = false) ∨
    (persistent = true ∧ process.condition = .stopped status ∧
      wifstopped status = true)

/-- The child has been waited for. -/
def wait (server : Server) (status : Int) : Server :=
  { server with
    phase := .relaying status
    childStopped := server.childStopped || wifstopped status }

end Server

/-- One system call of the fuzzer or the forkserver, or something the child does. -/
inductive Step (persistent : Bool) : StepRelation System Action where
  | request
      {system : System}
      (place : system.place = .returned) :
      Step persistent system .request system.requested
  | requestFails
      {system : System}
      (place : system.place = .returned) :
      Step persistent system .requestFails system
  | readPid
      {system : System}
      {word : Word}
      {rest : List Word}
      (place : system.place = .requested)
      (st : system.st = word :: rest) :
      Step persistent system .readPid (system.pidRead word rest)
  | readPidFails
      {system : System}
      (place : system.place = .requested) :
      Step persistent system .readPidFails system.failed
  | readStatus
      {system : System}
      {word : Word}
      {rest : List Word}
      (place : system.place = .started)
      (st : system.st = word :: rest) :
      Step persistent system .readStatus (system.statusRead word rest)
  | selectFails
      {system : System}
      (place : system.place = .started) :
      Step persistent system .selectFails system.failed
  | expire
      {system : System}
      (place : system.place = .started)
      (st : system.st = []) :
      Step persistent system .expire system.expired
  | readKilled
      {system : System}
      {word : Word}
      {rest : List Word}
      (place : system.place = .killed)
      (st : system.st = word :: rest) :
      Step persistent system .readKilled (system.killedRead word rest)
  | readKilledFails
      {system : System}
      (place : system.place = .killed) :
      Step persistent system .readKilledFails system.failed
  | serverReads
      {system : System}
      {wasKilled : Int}
      {rest : List Int}
      (phase : system.server.phase = .reading)
      (ctl : system.ctl = wasKilled :: rest) :
      Step persistent system .serverReads
        { system with
          server := { system.server with phase := .requested wasKilled }
          ctl := rest }
  | serverReaps
      {system : System}
      {wasKilled status : Int}
      {process : Process}
      (phase : system.server.phase = .requested wasKilled)
      (stopped : system.server.childStopped = true)
      (killed : wasKilled ≠ 0)
      (child : system.server.child = some process)
      (ended : process.condition = .ended status) :
      Step persistent system .serverReaps
        (system.serves { system.server with childStopped := false })
  | serverForks
      {system : System}
      {wasKilled pid : Int}
      (phase : system.server.phase = .requested wasKilled)
      (stopped : system.server.childStopped = false)
      (positive : 0 < pid) :
      Step persistent system (.serverForks pid)
        (system.serves (system.server.fork pid))
  | serverResumes
      {system : System}
      {process : Process}
      (phase : system.server.phase = .requested 0)
      (stopped : system.server.childStopped = true)
      (child : system.server.child = some process) :
      Step persistent system .serverResumes
        (system.serves (system.server.resume process))
  | serverWritesPid
      {system : System}
      {process : Process}
      (phase : system.server.phase = .running)
      (child : system.server.child = some process) :
      Step persistent system .serverWritesPid
        { system with
          server := { system.server with phase := .waiting }
          st :=
            system.st ++
              [{ value := process.pid
                 run := system.server.run
                 isStatus := false }] }
  | serverWaits
      {system : System}
      {process : Process}
      {status : Int}
      (phase : system.server.phase = .waiting)
      (child : system.server.child = some process)
      (gives : Server.WaitGives persistent process status) :
      Step persistent system .serverWaits
        (system.serves (system.server.wait status))
  | serverWritesStatus
      {system : System}
      {status : Int}
      (phase : system.server.phase = .relaying status) :
      Step persistent system .serverWritesStatus
        { system with
          server := { system.server with phase := .reading }
          st :=
            system.st ++
              [{ value := status
                 run := system.server.run
                 isStatus := true }] }
  | serverExits
      {system : System} :
      Step persistent system .serverExits
        (system.serves { system.server with phase := .exited })
  | childStops
      {system : System}
      {process : Process}
      {status : Int}
      (child : system.server.child = some process)
      (running : process.condition = .running)
      (isStop : wifstopped status = true) :
      Step persistent system (.childStops status)
        (system.serves
          { system.server with
            child := some { process with condition := .stopped status } })
  | childEnds
      {system : System}
      {process : Process}
      {status : Int}
      (child : system.server.child = some process)
      (alive : ∀ before, process.condition ≠ .ended before)
      (isEnd : wifstopped status = false) :
      Step persistent system (.childEnds status)
        (system.serves
          { system.server with
            child := some { process with condition := .ended status } })

end MeFuzz.Forkserver
