import MeFuzz.ForkserverBuilder
import MeFuzz.ForkserverPipes

namespace MeFuzz.ShmemTestcases

open ByteStream Forkserver Procedure
open ForkserverBuilder (Failure)

/-!
# Testcases in shared memory

An executor writes the testcase into a map that it shares with the target, after a
header that tells its length, and asks for a run then.  The map was made for the
longest testcase.  The executor without a timeout cuts a longer one, as far as its
header goes.
-/

variable {Value Next : Type}

def shmemFuzzHdrSize : Nat := 4

def maxFile : Nat := 1024 * 1024

/-- The map that `build_helper` has made. -/
structure TestcaseMap where
  bytes : Bytes
  length_bytes : bytes.length = maxFile + shmemFuzzHdrSize

namespace TestcaseMap

/-- `copy_from_slice` into a range of the map; `none` when it panics. -/
def copyFromSlice
    (map : TestcaseMap)
    (start stop : Nat)
    (source : Bytes) : Option TestcaseMap :=
  if fits :
      start ≤ stop ∧ stop ≤ map.bytes.length ∧
        source.length = stop - start then
    some
      { bytes := map.bytes.take start ++ source ++ map.bytes.drop stop
        length_bytes := by
          have size := map.length_bytes
          simp only [List.length_append, List.length_take, List.length_drop]
          omega }
  else none

theorem isSome_copyFromSlice
    {map : TestcaseMap}
    {start stop : Nat}
    {source : Bytes} :
    (map.copyFromSlice start stop source).isSome ↔
      start ≤ stop ∧ stop ≤ maxFile + shmemFuzzHdrSize ∧
        source.length = stop - start := by
  rw [← map.length_bytes]
  unfold copyFromSlice
  split <;> simp_all

theorem bytes_of_copyFromSlice
    {map after : TestcaseMap}
    {start stop : Nat}
    {source : Bytes}
    (copied : map.copyFromSlice start stop source = some after) :
    after.bytes = map.bytes.take start ++ source ++ map.bytes.drop stop := by
  unfold copyFromSlice at copied
  split at copied
  · cases copied
    rfl
  · cases copied

end TestcaseMap

/-- `usize::to_ne_bytes`, least significant byte first. -/
def toNeBytes (size : Nat) : Bytes :=
  (BigEndian.encode 8 size).reverse

/-- `ForkserverExecutor`, with the maps that the target has found at its runs. -/
structure ForkserverExecutor where
  usesShmemTestcase : Bool
  map : Option TestcaseMap
  provided : usesShmemTestcase = true → map.isSome
  inputFile : Bytes
  forkserver : Executor
  found : List (Option TestcaseMap)

/-- The executor with another content of its map. -/
def ForkserverExecutor.withMap
    (executor : ForkserverExecutor)
    (map : TestcaseMap) : ForkserverExecutor :=
  { executor with
    map := some map
    provided := fun _ => rfl }

/-- How the wait for a status has ended. -/
inductive TimedRead where
  | failed
  | cutShort
  | expired
  | status (value : Int)

/-- What the system answers while a target is run; `none` is an error of the system. -/
structure System where
  writeBuf : Bool
  writeCtl : Option Nat
  readPid : Option (Nat × Int)
  readStatus : Option (Nat × Int)
  readStatusTimed : TimedRead
  readKilled : Option (Nat × Int)

abbrev Running (Value : Type) :=
  Procedure Failure ForkserverExecutor Value

/-- The answer to a system call. -/
def answer (found : Option Value) : Running Value :=
  match found with
  | none => throw .os
  | some value => pure value

/-- Work on what the executor knows of its forkserver. -/
def onForkserver (change : Executor → Executor) : Running Unit :=
  modify fun executor =>
    { executor with forkserver := change executor.forkserver }

/-- Copy into the map, which is taken without a look whether there is one. -/
def writeMap (start stop : Nat) (source : Bytes) : Running Unit := do
  let executor ← get
  match executor.map with
  | none => throw .panicked
  | some map =>
      match map.copyFromSlice start stop source with
      | none => throw .panicked
      | some map =>
          set (executor.withMap map)

/-- `write_buf` of the input file. -/
def writeBuf (system : System) (buf : Bytes) : Running Unit := do
  if system.writeBuf then
    modify fun executor => { executor with inputFile := buf }
  else throw .os

/-- Hand over a testcase, of which the header says a size. -/
def writeTestcase
    (system : System)
    (size : Nat)
    (targetBytes : Bytes) : Running Unit := do
  if (← get).usesShmemTestcase then
    writeMap 0 shmemFuzzHdrSize ((toNeBytes size).take shmemFuzzHdrSize)
    writeMap shmemFuzzHdrSize (shmemFuzzHdrSize + size) targetBytes
  else writeBuf system targetBytes

/-- `write_ctl`; the target finds the map as it is now. -/
def writeCtl (system : System) : Running Nat := do
  let sendLen ← answer system.writeCtl
  modify fun executor =>
    { executor with found := executor.found ++ [executor.map] }
  pure sendLen

/-- `read_st_timed`. -/
def readStTimed (system : System) : Running (Option Int) :=
  match system.readStatusTimed with
  | .failed => throw .os
  | .cutShort =>
      throw (.unknown "Unable to communicate with fork server (OOM?)")
  | .expired => pure none
  | .status value => pure (some value)

/-- `set_child_pid`. -/
def setChildPid (childPid : Int) : Running Unit :=
  onForkserver fun forkserver => { forkserver with childPid }

/-- `set_status`. -/
def setStatus (status : Int) : Running Unit :=
  onForkserver fun forkserver => { forkserver with status }

/-- `set_last_run_timed_out`. -/
def setLastRunTimedOut (lastRunTimedOut : Int) : Running Unit :=
  onForkserver fun forkserver => { forkserver with lastRunTimedOut }

def oom : String :=
  "Unable to request new process from fork server (OOM?)"

namespace ForkserverExecutor

/-- What `run_target` does after it has written the testcase. -/
def runRequested (system : System) : Running ExitKind := do
  let sendLen ← writeCtl system
  if sendLen ≠ 4 then throw (.illegalState oom)
  let (recvPidLen, pid) ← answer system.readPid
  if recvPidLen ≠ 4 then throw (.illegalState oom)
  if pid ≤ 0 then throw (.unknown "Fork server is misbehaving (OOM?)")
  setChildPid pid
  let (recvStatusLen, status) ← answer system.readStatus
  if recvStatusLen ≠ 4 then
    throw (.unknown "Unable to communicate with fork server (OOM?)")
  setStatus status
  setChildPid 0
  pure (if wifsignaled status then .crash else .ok)

/-- `run_target` of `ForkserverExecutor`. -/
def runTarget (system : System) (targetBytes : Bytes) : Running ExitKind := do
  let size := targetBytes.length
  let size := if maxFile < size then maxFile else size
  writeTestcase system size targetBytes
  runRequested system

end ForkserverExecutor

namespace TimeoutForkserverExecutor

/-- What happens after the testcase has been written. -/
def runRequested (system : System) : Running ExitKind := do
  let sendLen ← writeCtl system
  setLastRunTimedOut 0
  if sendLen ≠ 4 then throw (.unknown oom)
  let (recvPidLen, pid) ← answer system.readPid
  if recvPidLen ≠ 4 then throw (.unknown oom)
  if pid ≤ 0 then throw (.unknown "Fork server is misbehaving (OOM?)")
  setChildPid pid
  match ← readStTimed system with
  | some status => do
      setStatus status
      setChildPid 0
      pure (if wifsignaled status then .crash else .ok)
  | none => do
      setLastRunTimedOut 1
      let (recvStatusLen, _) ← answer system.readKilled
      if recvStatusLen ≠ 4 then
        throw (.unknown "Could not kill timed-out child")
      setChildPid 0
      pure .timeout

/-- `run_target_once`. -/
def runTargetOnce (system : System) (input : Bytes) : Running ExitKind := do
  writeTestcase system input.length input
  runRequested system

/-- `run_target` of `TimeoutForkserverExecutor`. -/
def runTarget (system : System) (targetBytes : Bytes) : Running ExitKind := do
  writeTestcase system targetBytes.length targetBytes
  runRequested system

end TimeoutForkserverExecutor

/-- The map is as it was, and runs that began since have found it so. -/
def Handed
    (map : Option TestcaseMap)
    (found : List (Option TestcaseMap))
    (executor : ForkserverExecutor) : Prop :=
  executor.map = map ∧
    ∃ later, executor.found = found ++ later ∧ ∀ other ∈ later, other = map

/-- A procedure that leaves the map alone and does not panic. -/
def Quiet (procedure : Running Value) : Prop :=
  ∀ map found,
    Satisfies (Handed map found) procedure (fun _ => Handed map found)
      fun failure executor => failure ≠ .panicked ∧ Handed map found executor

namespace Quiet

theorem pure
    {value : Value} :
    Quiet (Pure.pure value : Running Value) :=
  fun _ _ _ handed => handed

theorem throw
    {failure : Failure}
    (real : failure ≠ .panicked) :
    Quiet (throw failure : Running Value) :=
  fun _ _ _ handed => ⟨real, handed⟩

theorem bind
    {procedure : Running Value}
    {rest : Value → Running Next}
    (first : Quiet procedure)
    (second : ∀ value, Quiet (rest value)) :
    Quiet (procedure >>= rest) :=
  fun map found => (first map found).bind fun value => second value map found

theorem check
    {failed : Prop}
    [Decidable failed]
    {failure : Failure}
    {never : Unit → Running Value}
    {rest : Running Value}
    (real : failure ≠ .panicked)
    (quiet : Quiet rest) :
    Quiet (if failed then MonadExcept.throw failure >>= never else rest) := by
  split
  · intro map found executor handed
    exact ⟨real, handed⟩
  · exact quiet

theorem answer
    {given : Option Value} :
    Quiet (answer given) := by
  cases given with
  | none =>
      exact throw (by decide)
  | some value =>
      exact pure

theorem onForkserver
    {change : Executor → Executor} :
    Quiet (onForkserver change) :=
  fun _ _ _ handed => handed

theorem writeCtl
    {system : System} :
    Quiet (writeCtl system) := by
  unfold ShmemTestcases.writeCtl
  refine answer.bind fun sendLen => bind ?_ fun _ => pure
  rintro map found executor ⟨mapped, later, grown, same⟩
  refine ⟨mapped, later ++ [executor.map], ?_, ?_⟩
  · simp [grown]
  · intro other member
    rcases List.mem_append.mp member with earlier | last
    · exact same other earlier
    · rw [List.mem_singleton.mp last, mapped]

theorem readStTimed
    {system : System} :
    Quiet (readStTimed system) := by
  unfold ShmemTestcases.readStTimed
  split
  · exact throw (by decide)
  · exact throw (by decide)
  · exact pure
  · exact pure

end Quiet

theorem ForkserverExecutor.quiet_runRequested
    {system : System} :
    Quiet (runRequested system) := by
  unfold runRequested
  refine Quiet.writeCtl.bind fun sendLen => ?_
  refine Quiet.check (by decide) (Quiet.answer.bind fun pid => ?_)
  refine Quiet.check (by decide) (Quiet.check (by decide) ?_)
  refine Quiet.onForkserver.bind fun _ => Quiet.answer.bind fun status => ?_
  refine Quiet.check (by decide) ?_
  exact Quiet.onForkserver.bind fun _ => Quiet.onForkserver.bind fun _ =>
    Quiet.pure

theorem TimeoutForkserverExecutor.quiet_runRequested
    {system : System} :
    Quiet (runRequested system) := by
  unfold runRequested
  refine Quiet.writeCtl.bind fun sendLen => Quiet.onForkserver.bind fun _ => ?_
  refine Quiet.check (by decide) (Quiet.answer.bind fun pid => ?_)
  refine Quiet.check (by decide) (Quiet.check (by decide) ?_)
  refine Quiet.onForkserver.bind fun _ => Quiet.readStTimed.bind fun read => ?_
  cases read with
  | some status =>
      exact Quiet.onForkserver.bind fun _ => Quiet.onForkserver.bind fun _ =>
        Quiet.pure
  | none =>
      refine Quiet.onForkserver.bind fun _ => Quiet.answer.bind fun killed => ?_
      exact Quiet.check (by decide) (Quiet.onForkserver.bind fun _ => Quiet.pure)

/-- The map has the header and the testcase up to a size, and is else as before. -/
structure Delivered
    (before after : TestcaseMap)
    (input : Bytes)
    (size : Nat) : Prop where
  header :
    BigEndian.decode (after.bytes.take shmemFuzzHdrSize).reverse = size
  testcase : (after.bytes.drop shmemFuzzHdrSize).take size = input.take size
  rest :
    after.bytes.drop (shmemFuzzHdrSize + size) =
      before.bytes.drop (shmemFuzzHdrSize + size)

theorem header_toNeBytes
    (size : Nat) :
    (toNeBytes size).take shmemFuzzHdrSize =
      (BigEndian.encode 4 size).reverse := by
  simp [toNeBytes, BigEndian.encode, shmemFuzzHdrSize]

theorem bytes_of_copies
    {before headed after : TestcaseMap}
    {header input : Bytes}
    {size : Nat}
    (long : header.length = shmemFuzzHdrSize)
    (copied : before.copyFromSlice 0 shmemFuzzHdrSize header = some headed)
    (again :
      headed.copyFromSlice shmemFuzzHdrSize (shmemFuzzHdrSize + size) input =
        some after) :
    after.bytes =
      header ++ (input ++ before.bytes.drop (shmemFuzzHdrSize + size)) := by
  have headed : headed.bytes = header ++ before.bytes.drop shmemFuzzHdrSize := by
    simpa using TestcaseMap.bytes_of_copyFromSlice copied
  rw [TestcaseMap.bytes_of_copyFromSlice again, headed, ← long, List.take_left,
    List.drop_append, List.drop_drop, List.append_assoc]
  simp

variable {input : Bytes}

theorem delivered_of_copies
    {before headed after : TestcaseMap}
    (short : input.length ≤ maxFile)
    (copied :
      before.copyFromSlice 0 shmemFuzzHdrSize
        ((toNeBytes input.length).take shmemFuzzHdrSize) = some headed)
    (again :
      headed.copyFromSlice shmemFuzzHdrSize (shmemFuzzHdrSize + input.length)
        input = some after) :
    Delivered before after input input.length := by
  rw [header_toNeBytes] at copied
  have long :
      (BigEndian.encode 4 input.length).reverse.length = shmemFuzzHdrSize := by
    simp [shmemFuzzHdrSize]
  have bytes := bytes_of_copies long copied again
  have room : input.length < 256 ^ 4 := by
    unfold maxFile at short
    omega
  refine ⟨?_, ?_, ?_⟩
  · rw [bytes, ← long, List.take_left, List.reverse_reverse,
      BigEndian.decode_encode_of_lt room]
  · rw [bytes, ← long, List.drop_left, List.take_left, List.take_length]
  · rw [bytes, ← List.drop_drop, ← long, List.drop_left, List.drop_left]

variable {executor : ForkserverExecutor}

theorem writeTestcase_of_short
    (system : System)
    {before : TestcaseMap}
    (uses : executor.usesShmemTestcase = true)
    (mapped : executor.map = some before)
    (short : input.length ≤ maxFile) :
    ∃ after,
      outcome (writeTestcase system input.length input) executor =
        (.ok (), executor.withMap after) ∧
      Delivered before after input input.length := by
  obtain ⟨headed, copied⟩ :
      ∃ headed, before.copyFromSlice 0 shmemFuzzHdrSize
        ((toNeBytes input.length).take shmemFuzzHdrSize) = some headed := by
    apply Option.isSome_iff_exists.mp
    rw [TestcaseMap.isSome_copyFromSlice, header_toNeBytes]
    simp [shmemFuzzHdrSize]
  obtain ⟨after, again⟩ :
      ∃ after, headed.copyFromSlice shmemFuzzHdrSize
        (shmemFuzzHdrSize + input.length) input = some after := by
    apply Option.isSome_iff_exists.mp
    rw [TestcaseMap.isSome_copyFromSlice]
    omega
  refine ⟨after, ?_, delivered_of_copies short copied again⟩
  simp [writeTestcase, outcome_bind, writeMap, uses, mapped, copied, again,
    ForkserverExecutor.withMap]

theorem writeTestcase_of_long
    (system : System)
    (size : Nat)
    (uses : executor.usesShmemTestcase = true)
    (long : maxFile < input.length) :
    (outcome (writeTestcase system size input) executor).1 =
      .error .panicked := by
  obtain ⟨before, mapped⟩ :=
    Option.isSome_iff_exists.mp (executor.provided uses)
  simp only [writeTestcase, outcome_bind, writeMap, uses, mapped, outcome_get,
    if_true]
  cases copied :
      before.copyFromSlice 0 shmemFuzzHdrSize
        ((toNeBytes size).take shmemFuzzHdrSize) with
  | none =>
      simp
  | some headed =>
      have again :
          headed.copyFromSlice shmemFuzzHdrSize (shmemFuzzHdrSize + size) input =
            none := by
        rw [← Option.not_isSome_iff_eq_none, TestcaseMap.isSome_copyFromSlice]
        omega
      simp [ForkserverExecutor.withMap, again]

/-- The functions that hand a testcase to the forkserver. -/
inductive Method where
  | runTarget
  | timeoutRunTarget
  | timeoutRunTargetOnce
  deriving Repr, DecidableEq

/-- A call of the function. -/
def Method.run
    (method : Method)
    (system : System)
    (input : Bytes) : Running ExitKind :=
  match method with
  | .runTarget => ForkserverExecutor.runTarget system input
  | .timeoutRunTarget => TimeoutForkserverExecutor.runTarget system input
  | .timeoutRunTargetOnce => TimeoutForkserverExecutor.runTargetOnce system input

/--
The call does not panic, leaves the testcase in the map up to the most that the
map can hold, and has asked for no run before that.
-/
def Delivers
    (method : Method)
    (system : System)
    (executor : ForkserverExecutor)
    (input : Bytes) : Prop :=
  let (result, left) := outcome (method.run system input) executor
  result ≠ .error .panicked ∧
    ∃ before after,
      executor.map = some before ∧ left.map = some after ∧
        Delivered before after input (min input.length maxFile) ∧
        ∃ later, left.found = executor.found ++ later ∧
          ∀ map ∈ later, map = some after

theorem delivers_of_quiet
    {method : Method}
    {system : System}
    {requested : Running ExitKind}
    (uses : executor.usesShmemTestcase = true)
    (short : input.length ≤ maxFile)
    (run :
      method.run system input =
        (do
          writeTestcase system input.length input
          requested))
    (quiet : Quiet requested) :
    Delivers method system executor input := by
  obtain ⟨before, mapped⟩ :=
    Option.isSome_iff_exists.mp (executor.provided uses)
  obtain ⟨after, written, delivered⟩ :=
    writeTestcase_of_short system uses mapped short
  have handed :
      Handed (some after) executor.found (executor.withMap after) :=
    ⟨rfl, [], by simp [ForkserverExecutor.withMap], by simp⟩
  have reached := quiet (some after) executor.found _ handed
  unfold Delivers
  rw [run, outcome_bind_ok written, Nat.min_eq_left short]
  generalize outcome requested (executor.withMap after) = result at reached ⊢
  obtain ⟨result, left⟩ := result
  cases result with
  | ok exitKind =>
      obtain ⟨kept, found⟩ := reached
      exact ⟨by simp, before, after, mapped, kept, delivered, found⟩
  | error failure =>
      obtain ⟨real, kept, found⟩ := reached
      exact ⟨by simpa using real, before, after, mapped, kept, delivered, found⟩

theorem panics_of_long
    (method : Method)
    (system : System)
    (uses : executor.usesShmemTestcase = true)
    (long : maxFile < input.length) :
    (outcome (method.run system input) executor).1 = .error .panicked := by
  have panics (size : Nat) (requested : Running ExitKind) :
      (outcome
        (do
          writeTestcase system size input
          requested)
        executor).1 = .error .panicked := by
    have written := writeTestcase_of_long system size uses long
    rw [outcome_bind]
    generalize outcome (writeTestcase system size input) executor = result
      at written ⊢
    obtain ⟨result, left⟩ := result
    cases written
    rfl
  cases method with
  | runTarget =>
      exact panics _ _
  | timeoutRunTarget =>
      exact panics _ _
  | timeoutRunTargetOnce =>
      exact panics _ _

/-- An executor as it was built, with shared memory. -/
def ForkserverExecutor.shared : ForkserverExecutor where
  usesShmemTestcase := true
  map :=
    some
      { bytes := List.replicate (maxFile + shmemFuzzHdrSize) 0
        length_bytes := List.length_replicate }
  provided := fun _ => rfl
  inputFile := []
  forkserver := Executor.new
  found := []

/-- A system in which all goes well. -/
def System.running : System where
  writeBuf := true
  writeCtl := some 4
  readPid := some (4, 1000)
  readStatus := some (4, 0)
  readStatusTimed := .status 0
  readKilled := some (4, 9)

/--
A testcase is delivered just if it is not longer than what the map was made for.
One that is longer, which the executor without a timeout means to cut, panics.
-/
theorem delivers_iff
    (method : Method)
    (system : System)
    (executor : ForkserverExecutor)
    (input : Bytes)
    (uses : executor.usesShmemTestcase = true) :
    Delivers method system executor input ↔ input.length ≤ maxFile := by
  constructor
  · intro delivers
    by_contra long
    exact delivers.1 (panics_of_long method system uses (by omega))
  · intro short
    cases method with
    | runTarget =>
        have quiet : Quiet (ForkserverExecutor.runRequested system) :=
          ForkserverExecutor.quiet_runRequested
        refine delivers_of_quiet uses short ?_ quiet
        simp only [Method.run, ForkserverExecutor.runTarget,
          if_neg (Nat.not_lt.mpr short)]
    | timeoutRunTarget =>
        exact delivers_of_quiet uses short rfl
          TimeoutForkserverExecutor.quiet_runRequested
    | timeoutRunTargetOnce =>
        exact delivers_of_quiet uses short rfl
          TimeoutForkserverExecutor.quiet_runRequested

/-- A testcase of three bytes is delivered. -/
theorem delivers_three_bytes :
    ∃ input : Bytes, input = [1, 2, 3] ∧
      ∀ method, Delivers method System.running ForkserverExecutor.shared input :=
  ⟨[1, 2, 3], rfl, fun method =>
    (delivers_iff method System.running ForkserverExecutor.shared [1, 2, 3]
      rfl).mpr (by decide)⟩

/-- A testcase that is one byte too long panics instead of being cut. -/
theorem one_byte_too_long_panics :
    ∃ input : Bytes, input = List.replicate (maxFile + 1) 0 ∧
      ∀ method,
        (outcome (method.run System.running input) ForkserverExecutor.shared).1 =
            .error .panicked ∧
          ¬Delivers method System.running ForkserverExecutor.shared input := by
  refine ⟨_, rfl, fun method => ?_⟩
  have panics :
      (outcome
          (method.run System.running (List.replicate (maxFile + 1) 0))
          ForkserverExecutor.shared).1 = .error .panicked := by
    refine panics_of_long method System.running rfl ?_
    rw [List.length_replicate]
    omega
  exact ⟨panics, fun delivers => delivers.1 panics⟩

end MeFuzz.ShmemTestcases
