import MeFuzz.ForkserverPipes

namespace MeFuzz.Forkserver

/-!
# Lockstep of fuzzer and forkserver

The status pipe carries two words for every run, in order, and each call reads two.
A call that fails after it has asked for a run leaves words in the pipe, and the next
call reads them as if they were its own.
-/

/-- How a call is to end. -/
def Result.expected (result : Result) : ExitKind :=
  if result.killed then .timeout
  else if wifsignaled result.status.value then .crash
  else .ok

/-- Every call is about its own child, and no child outlives its call. -/
structure Conforms (system : System) : Prop where
  readings :
    ∀ reading ∈ system.history.readings,
      reading.word.run = reading.call ∧
        reading.word.isStatus = reading.asStatus
  requests :
    ∀ request ∈ system.history.requests,
      request.timedOut = if request.killed then 1 else 0
  results :
    ∀ result ∈ system.history.results,
      result.status.run = result.call ∧ result.status.isStatus = true ∧
        result.exitKind = result.expected
  children :
    ∀ process ∈ system.server.earlier,
      ∃ status, process.condition = .ended status

/-- A process id is not read after a call has failed that had asked for a run. -/
def InStep (system : System) : Action → Prop
  | .readPid => system.history.cutShort = false
  | _ => True

/-- All words written to the status pipe. -/
def System.words (system : System) : List Word :=
  system.history.readings.map Reading.word ++ system.st

/-- The words of each run follow those of the run before. -/
def InOrder (words : List Word) : Prop :=
  ∀ position word,
    words[position]? = some word →
      word.run = position / 2 + 1 ∧
        word.isStatus = decide (position % 2 = 1)

variable {system next : System}
variable {words : List Word}
variable {word : Word}
variable {rest : List Word}

theorem InOrder.append
    (inOrder : InOrder words)
    (run : word.run = words.length / 2 + 1)
    (isStatus : word.isStatus = decide (words.length % 2 = 1)) :
    InOrder (words ++ [word]) := by
  intro position other isThere
  rcases Nat.lt_trichotomy position words.length with before | rfl | after
  · rw [List.getElem?_append_left before] at isThere
    exact inOrder position other isThere
  · rw [List.getElem?_concat_length] at isThere
    cases isThere
    exact ⟨run, isStatus⟩
  · rw [List.getElem?_eq_none (by simp; omega)] at isThere
    cases isThere

theorem InOrder.head
    (inOrder : InOrder system.words)
    (st : system.st = word :: rest) :
    word.run = system.history.readings.length / 2 + 1 ∧
      word.isStatus =
        decide (system.history.readings.length % 2 = 1) := by
  apply inOrder
  unfold System.words
  rw [st, List.getElem?_append_right (by simp)]
  simp

/-- How many words the forkserver has written, by where it is. -/
def Phase.Written (phase : Phase) (run written : Nat) : Prop :=
  match phase with
  | .reading => written = 2 * run
  | .requested _ => written = 2 * run
  | .running => written + 2 = 2 * run
  | .waiting => written + 1 = 2 * run
  | .relaying _ => written + 1 = 2 * run
  | .exited => True

/-- The child runs, or may run. -/
def Phase.Busy : Phase → Prop
  | .running => True
  | .waiting => True
  | _ => False

/-- A child that is not stopped has ended before the next one starts. -/
structure ServerSound (server : Server) (written : Nat) : Prop where
  written : server.phase.Written server.run written
  unstopped : server.phase.Busy → server.childStopped = false
  quiet :
    server.phase ≠ .exited →
      ¬server.phase.Busy →
        server.childStopped = false →
          ∀ process,
            server.child = some process →
              ∃ status, process.condition = .ended status
  positive :
    ∀ process, server.child = some process → 0 < process.pid
  earlier :
    ∀ process ∈ server.earlier, ∃ status, process.condition = .ended status

/-- How many words the calls have read, by where the last of them is. -/
def Place.Read (place : Place) (history : History) : Prop :=
  match place with
  | .returned =>
      if history.cutShort then
        history.readings.length < 2 * history.calls
      else history.readings.length = 2 * history.calls
  | .requested =>
      if history.cutShort then
        history.readings.length + 2 < 2 * history.calls
      else history.readings.length + 2 = 2 * history.calls
  | .started =>
      history.cutShort = false ∧
        history.readings.length + 1 = 2 * history.calls
  | .killed =>
      history.cutShort = false ∧
        history.readings.length + 1 = 2 * history.calls

/-- What the next call is going to say about the child of the last. -/
def Place.Announces (place : Place) (lastRunTimedOut : Int) (killed : Bool) : Prop :=
  match place with
  | .returned => lastRunTimedOut = if killed then 1 else 0
  | .requested => lastRunTimedOut = 0 ∧ killed = false
  | .started => lastRunTimedOut = 0 ∧ killed = false
  | .killed => lastRunTimedOut = 1 ∧ killed = true

/-- Both sides are in step. -/
structure Lockstep (system : System) : Prop where
  conforms : Conforms system
  inOrder : InOrder system.words
  server : ServerSound system.server system.words.length
  read : system.place.Read system.history
  announces :
    system.place.Announces system.executor.lastRunTimedOut system.history.killed
  pids : ∀ word ∈ system.st, word.isStatus = false → 0 < word.value

theorem lockstep_new : Lockstep System.new where
  conforms :=
    { readings := nofun
      requests := nofun
      results := nofun
      children := nofun }
  inOrder := nofun
  server :=
    { written := rfl
      unstopped := nofun
      quiet := nofun
      positive := nofun
      earlier := nofun }
  read := rfl
  announces := rfl
  pids := nofun

variable {server : Server}

theorem Lockstep.serves
    (lockstep : Lockstep system)
    (sound : ServerSound server system.words.length) :
    Lockstep (system.serves server) where
  conforms :=
    { lockstep.conforms with children := sound.earlier }
  inOrder := lockstep.inOrder
  server := sound
  read := lockstep.read
  announces := lockstep.announces
  pids := lockstep.pids

theorem Lockstep.writes
    {phase : Phase}
    (lockstep : Lockstep system)
    (sound :
      ServerSound { system.server with phase } (system.words.length + 1))
    (run : word.run = system.words.length / 2 + 1)
    (isStatus : word.isStatus = decide (system.words.length % 2 = 1))
    (positive : word.isStatus = false → 0 < word.value) :
    Lockstep
      { system with
        server := { system.server with phase }
        st := system.st ++ [word] } := by
  have more :
      System.words
          { system with
            server := { system.server with phase }
            st := system.st ++ [word] } =
        system.words ++ [word] :=
    (List.append_assoc ..).symm
  refine
    ⟨{ lockstep.conforms with children := sound.earlier }, ?_, ?_,
      lockstep.read, lockstep.announces, ?_⟩
  · rw [more]
    exact lockstep.inOrder.append run isStatus
  · rw [more, List.length_append]
    exact sound
  · intro other isIn
    rcases List.mem_append.mp isIn with isOld | isNew
    · exact lockstep.pids other isOld
    · rw [List.mem_singleton.mp isNew]
      exact positive

variable {written : Nat}

theorem ServerSound.fork
    {wasKilled pid : Int}
    (sound : ServerSound server written)
    (phase : server.phase = .requested wasKilled)
    (stopped : server.childStopped = false)
    (positive : 0 < pid) :
    ServerSound (server.fork pid) written := by
  have isWritten := sound.written
  have quiet := sound.quiet
  rw [phase] at isWritten quiet
  refine ⟨?_, fun _ => stopped, fun _ notBusy => absurd trivial notBusy, ?_, ?_⟩
  · unfold Phase.Written at isWritten
    unfold Server.fork Phase.Written
    dsimp only
    omega
  · rintro process ⟨⟩
    exact positive
  · intro process isIn
    rcases List.mem_append.mp isIn with isOld | isChild
    · exact sound.earlier process isOld
    · exact quiet nofun id stopped process (Option.mem_toList.mp isChild)

variable {process : Process}

theorem ServerSound.resume
    {wasKilled : Int}
    (sound : ServerSound server written)
    (phase : server.phase = .requested wasKilled)
    (child : server.child = some process) :
    ServerSound (server.resume process) written := by
  have isWritten := sound.written
  rw [phase] at isWritten
  refine
    ⟨?_, fun _ => rfl, fun _ notBusy => absurd trivial notBusy, ?_,
      sound.earlier⟩
  · unfold Phase.Written at isWritten
    unfold Server.resume Phase.Written
    dsimp only
    omega
  · rintro _ ⟨⟩
    exact sound.positive process child

theorem ServerSound.wait
    {persistent : Bool}
    {status : Int}
    (sound : ServerSound server written)
    (phase : server.phase = .waiting)
    (child : server.child = some process)
    (gives : Server.WaitGives persistent process status) :
    ServerSound (server.wait status) written := by
  have isWritten := sound.written
  rw [phase] at isWritten
  refine ⟨isWritten, nofun, ?_, sound.positive, sound.earlier⟩
  intro _ _ unstopped other isOther
  obtain rfl := Option.some.inj (child.symm.trans isOther)
  rcases gives with ⟨ended, -⟩ | ⟨-, -, isStop⟩
  · exact ⟨status, ended⟩
  · unfold Server.wait at unstopped
    dsimp only at unstopped
    rw [isStop, Bool.or_true] at unstopped
    cases unstopped

theorem ServerSound.childActs
    (sound : ServerSound server written)
    (child : server.child = some process)
    (alive : ∀ status, process.condition ≠ .ended status)
    (condition : Condition) :
    ServerSound
      { server with child := some { process with condition } } written := by
  refine ⟨sound.written, sound.unstopped, ?_, ?_, sound.earlier⟩
  · intro notExited notBusy unstopped
    obtain ⟨status, ended⟩ :=
      sound.quiet notExited notBusy unstopped process child
    exact absurd ended (alive status)
  · rintro _ ⟨⟩
    exact sound.positive process child

theorem Lockstep.head_requested
    (lockstep : Lockstep system)
    (place : system.place = .requested)
    (inStep : system.history.cutShort = false)
    (st : system.st = word :: rest) :
    word.run = system.history.calls ∧ word.isStatus = false ∧
      0 < word.value := by
  have read := lockstep.read
  unfold Place.Read at read
  rw [place] at read
  dsimp only at read
  rw [inStep, if_neg Bool.false_ne_true] at read
  obtain ⟨run, isStatus⟩ := lockstep.inOrder.head st
  have isPid : word.isStatus = false := by
    rw [isStatus]
    apply decide_eq_false
    omega
  refine ⟨by omega, isPid, lockstep.pids word ?_ isPid⟩
  rw [st]
  exact List.mem_cons_self

theorem Lockstep.head_started
    (lockstep : Lockstep system)
    (read :
      system.history.readings.length + 1 = 2 * system.history.calls)
    (st : system.st = word :: rest) :
    word.run = system.history.calls ∧ word.isStatus = true := by
  obtain ⟨run, isStatus⟩ := lockstep.inOrder.head st
  refine ⟨by omega, ?_⟩
  rw [isStatus]
  apply decide_eq_true
  omega

theorem words_of_read
    {asStatus : Bool}
    (st : system.st = word :: rest) :
    (system.history.read word asStatus).readings.map Reading.word ++ rest =
      system.words := by
  unfold System.words History.read
  rw [st, List.map_append]
  exact List.append_assoc ..

theorem pids_of_read
    (lockstep : Lockstep system)
    (st : system.st = word :: rest) :
    ∀ word ∈ rest, word.isStatus = false → 0 < word.value := by
  intro other isIn
  apply lockstep.pids
  rw [st]
  exact List.mem_cons_of_mem _ isIn

theorem readings_of_read
    {asStatus : Bool}
    (lockstep : Lockstep system)
    (run : word.run = system.history.calls)
    (isStatus : word.isStatus = asStatus) :
    ∀ reading ∈ (system.history.read word asStatus).readings,
      reading.word.run = reading.call ∧
        reading.word.isStatus = reading.asStatus := by
  intro reading isIn
  rcases List.mem_append.mp isIn with isOld | isNew
  · exact lockstep.conforms.readings reading isOld
  · rw [List.mem_singleton.mp isNew]
    exact ⟨run, isStatus⟩

theorem results_of_returned
    {exitKind : ExitKind}
    (lockstep : Lockstep system)
    (run : word.run = system.history.calls)
    (isStatus : word.isStatus = true)
    (expected :
      exitKind =
        if system.history.killed then .timeout
        else if wifsignaled word.value then .crash
        else .ok) :
    ∀ result ∈ ((system.history.read word true).returned exitKind word).results,
      result.status.run = result.call ∧ result.status.isStatus = true ∧
        result.exitKind = result.expected := by
  intro result isIn
  rcases List.mem_append.mp isIn with isOld | isNew
  · exact lockstep.conforms.results result isOld
  · rw [List.mem_singleton.mp isNew]
    exact ⟨run, isStatus, expected⟩

theorem Lockstep.requested
    (lockstep : Lockstep system)
    (place : system.place = .returned) :
    Lockstep system.requested := by
  have read := lockstep.read
  have announces := lockstep.announces
  unfold Place.Read at read
  unfold Place.Announces at announces
  rw [place] at read announces
  dsimp only at read announces
  refine
    ⟨{ lockstep.conforms with requests := ?_ }, lockstep.inOrder,
      lockstep.server, ?_, ⟨rfl, rfl⟩, lockstep.pids⟩
  · intro request isIn
    rcases List.mem_append.mp isIn with isOld | isNew
    · exact lockstep.conforms.requests request isOld
    · rw [List.mem_singleton.mp isNew]
      exact announces
  · unfold Place.Read System.requested History.request
    dsimp only
    split_ifs at read ⊢ with cutShort
    · omega
    · omega

theorem Lockstep.failed
    (lockstep : Lockstep system)
    (asked : system.place ≠ .returned) :
    Lockstep system.failed := by
  have read := lockstep.read
  have announces := lockstep.announces
  refine
    ⟨{ lockstep.conforms with }, lockstep.inOrder, lockstep.server, ?_, ?_,
      lockstep.pids⟩
  · unfold Place.Read System.failed History.fail
    dsimp only
    rw [if_pos rfl]
    unfold Place.Read at read
    cases place : system.place with
    | returned => exact absurd place asked
    | requested =>
        rw [place] at read
        dsimp only at read
        split_ifs at read
        · omega
        · omega
    | started =>
        rw [place] at read
        obtain ⟨-, read⟩ := read
        omega
    | killed =>
        rw [place] at read
        obtain ⟨-, read⟩ := read
        omega
  · unfold Place.Announces at announces ⊢
    unfold System.failed History.fail
    dsimp only
    cases place : system.place with
    | returned => exact absurd place asked
    | requested =>
        rw [place] at announces
        rw [announces.1, announces.2]
        rfl
    | started =>
        rw [place] at announces
        rw [announces.1, announces.2]
        rfl
    | killed =>
        rw [place] at announces
        rw [announces.1, announces.2]
        rfl

theorem Lockstep.pidRead
    (lockstep : Lockstep system)
    (place : system.place = .requested)
    (inStep : system.history.cutShort = false)
    (st : system.st = word :: rest) :
    Lockstep (system.pidRead word rest) := by
  obtain ⟨run, isPid, positive⟩ :=
    lockstep.head_requested place inStep st
  have read := lockstep.read
  have announces := lockstep.announces
  unfold Place.Read at read
  unfold Place.Announces at announces
  rw [place] at read announces
  dsimp only at read announces
  rw [inStep, if_neg Bool.false_ne_true] at read
  unfold System.pidRead Executor.receivePid
  rw [if_neg (Int.not_le.mpr positive)]
  have words : (System.words
      { system with
        executor := { system.executor with childPid := word.value }
        place := .started
        st := rest
        history := system.history.read word false }) = system.words :=
    words_of_read st
  refine
    ⟨{ lockstep.conforms with
        readings := readings_of_read lockstep run isPid },
      ?_, ?_, ?_, announces, pids_of_read lockstep st⟩
  · rw [words]
    exact lockstep.inOrder
  · rw [words]
    exact lockstep.server
  · refine ⟨inStep, ?_⟩
    unfold History.read
    rw [List.length_append, List.length_singleton]
    omega

theorem Lockstep.statusRead
    (lockstep : Lockstep system)
    (place : system.place = .started)
    (st : system.st = word :: rest) :
    Lockstep (system.statusRead word rest) := by
  have read := lockstep.read
  have announces := lockstep.announces
  unfold Place.Read at read
  unfold Place.Announces at announces
  rw [place] at read announces
  obtain ⟨inStep, read⟩ := read
  obtain ⟨run, isStatus⟩ := lockstep.head_started read st
  have words : (system.statusRead word rest).words = system.words :=
    words_of_read st
  refine
    ⟨{ lockstep.conforms with
        readings := readings_of_read lockstep run isStatus
        results := results_of_returned lockstep run isStatus ?_ },
      ?_, ?_, ?_, ?_, pids_of_read lockstep st⟩
  · rw [announces.2]
    rfl
  · rw [words]
    exact lockstep.inOrder
  · rw [words]
    exact lockstep.server
  · unfold Place.Read System.statusRead Executor.receiveStatus History.returned
      History.read
    dsimp only
    rw [inStep, if_neg Bool.false_ne_true, List.length_append,
      List.length_singleton]
    exact read
  · unfold Place.Announces System.statusRead Executor.receiveStatus
      History.returned History.read
    dsimp only
    rw [announces.1, announces.2]
    rfl

theorem Lockstep.expired
    (lockstep : Lockstep system)
    (place : system.place = .started) :
    Lockstep system.expired := by
  have read := lockstep.read
  unfold Place.Read at read
  rw [place] at read
  exact
    ⟨{ lockstep.conforms with }, lockstep.inOrder, lockstep.server, read,
      ⟨rfl, rfl⟩, lockstep.pids⟩

theorem Lockstep.killedRead
    (lockstep : Lockstep system)
    (place : system.place = .killed)
    (st : system.st = word :: rest) :
    Lockstep (system.killedRead word rest) := by
  have read := lockstep.read
  have announces := lockstep.announces
  unfold Place.Read at read
  unfold Place.Announces at announces
  rw [place] at read announces
  obtain ⟨inStep, read⟩ := read
  obtain ⟨run, isStatus⟩ := lockstep.head_started read st
  have words : (system.killedRead word rest).words = system.words :=
    words_of_read st
  refine
    ⟨{ lockstep.conforms with
        readings := readings_of_read lockstep run isStatus
        results := results_of_returned lockstep run isStatus ?_ },
      ?_, ?_, ?_, ?_, pids_of_read lockstep st⟩
  · rw [announces.2]
    rfl
  · rw [words]
    exact lockstep.inOrder
  · rw [words]
    exact lockstep.server
  · unfold Place.Read System.killedRead Executor.receiveKilled History.returned
      History.read
    dsimp only
    rw [inStep, if_neg Bool.false_ne_true, List.length_append,
      List.length_singleton]
    exact read
  · unfold Place.Announces System.killedRead Executor.receiveKilled
      History.returned History.read
    dsimp only
    rw [announces.1, announces.2]
    rfl

variable {persistent : Bool}
variable {action : Action}

theorem readings_pidRead
    (system : System)
    (word : Word)
    (rest : List Word) :
    (system.pidRead word rest).history.readings =
      (system.history.read word false).readings := by
  unfold System.pidRead
  dsimp only
  cases system.executor.receivePid word.value with
  | none => rfl
  | some executor => rfl

/-- A step in lockstep keeps both sides in step. -/
theorem Lockstep.step
    (lockstep : Lockstep system)
    (inStep : InStep system action)
    (taken : Step persistent system action next) :
    Lockstep next := by
  have server := lockstep.server
  have isWritten := server.written
  have quiet := server.quiet
  cases taken with
  | request place => exact lockstep.requested place
  | requestFails place => exact lockstep
  | readPid place st => exact lockstep.pidRead place inStep st
  | readPidFails place => exact lockstep.failed (by rw [place]; exact nofun)
  | readStatus place st => exact lockstep.statusRead place st
  | selectFails place => exact lockstep.failed (by rw [place]; exact nofun)
  | expire place st => exact lockstep.expired place
  | readKilled place st => exact lockstep.killedRead place st
  | readKilledFails place => exact lockstep.failed (by rw [place]; exact nofun)
  | @serverReads _ wasKilled rest phase ctl =>
      rw [phase] at isWritten quiet
      have sound :
          ServerSound { system.server with phase := .requested wasKilled }
            system.words.length :=
        ⟨isWritten, nofun, fun _ _ => quiet nofun id, server.positive,
          server.earlier⟩
      have served := lockstep.serves sound
      exact
        ⟨{ served.conforms with }, served.inOrder, served.server, served.read,
          served.announces, served.pids⟩
  | @serverReaps _ _ status process phase stopped killed child ended =>
      apply lockstep.serves
      refine ⟨isWritten, fun _ => rfl, ?_, server.positive, server.earlier⟩
      intro _ _ _ other isOther
      obtain rfl := Option.some.inj (child.symm.trans isOther)
      exact ⟨status, ended⟩
  | serverForks phase stopped positive =>
      exact lockstep.serves (server.fork phase stopped positive)
  | serverResumes phase stopped child =>
      exact lockstep.serves (server.resume phase child)
  | @serverWritesPid _ process phase child =>
      rw [phase] at isWritten
      have unstopped := server.unstopped (by rw [phase]; trivial)
      unfold Phase.Written at isWritten
      apply lockstep.writes
      · exact
          ⟨by unfold Phase.Written; dsimp only; omega, fun _ => unstopped,
            fun _ notBusy => absurd trivial notBusy, server.positive,
            server.earlier⟩
      · dsimp only at isWritten ⊢
        omega
      · symm
        apply decide_eq_false
        dsimp only at isWritten ⊢
        omega
      · exact fun _ => server.positive process child
  | serverWaits phase child gives =>
      exact lockstep.serves (server.wait phase child gives)
  | @serverWritesStatus _ status phase =>
      rw [phase] at isWritten quiet
      unfold Phase.Written at isWritten
      apply lockstep.writes
      · exact
          ⟨by unfold Phase.Written; dsimp only; omega, nofun,
            fun _ _ => quiet nofun id, server.positive, server.earlier⟩
      · dsimp only at isWritten ⊢
        omega
      · symm
        apply decide_eq_true
        dsimp only at isWritten ⊢
        omega
      · exact nofun
  | serverExits =>
      exact
        lockstep.serves
          ⟨trivial, nofun, fun notExited => absurd rfl notExited,
            server.positive, server.earlier⟩
  | childStops child running isStop =>
      apply lockstep.serves
      apply server.childActs child
      rw [running]
      exact nofun
  | childEnds child alive isEnd =>
      exact lockstep.serves (server.childActs child alive _)

theorem Lockstep.inStep
    (lockstep : Lockstep system)
    (taken : Step persistent system action next)
    (conforms : Conforms next) :
    InStep system action := by
  cases taken with
  | @readPid _ word rest place st =>
      have readings := conforms.readings
      rw [readings_pidRead] at readings
      have isOwn :=
        (readings { call := system.history.calls, word, asStatus := false }
          (List.mem_append_right _ List.mem_cons_self)).1
      have read := lockstep.read
      unfold Place.Read at read
      rw [place] at read
      dsimp only at read isOwn
      have run := (lockstep.inOrder.head st).1
      cases cutShort : system.history.cutShort with
      | false =>
          exact cutShort
      | true =>
          rw [cutShort, if_pos rfl] at read
          omega
  | _ => exact trivial

/--
Every call of `run_target` is about its own child exactly as long as no process id is
read after a call that has failed after it had asked for a run.
-/
theorem conforms_iff_in_step
    (persistent : Bool)
    (actions : List Action) :
    Run.Always (Step persistent) Conforms System.new actions ↔
      Run.Everywhere (Step persistent) InStep System.new actions := by
  apply @Run.always_iff_everywhere_of_invariant _ _ _ _ Lockstep
  · exact fun lockstep => lockstep.conforms
  · exact fun lockstep inStep taken => lockstep.step inStep taken
  · exact fun lockstep taken conforms => lockstep.inStep taken conforms
  · exact lockstep_new

/--
The call that waits for the first child is interrupted.  The child crashes with signal
11, and the next call takes its status for the process id of the second child.
-/
theorem status_read_as_pid :
    ∃ final,
      Run (Step false) System.new
          [.request, .serverReads, .serverForks 700, .serverWritesPid, .readPid,
            .selectFails, .childEnds 11, .serverWaits, .serverWritesStatus,
            .request, .readPid] final ∧
        final.executor.childPid = 11 ∧
        final.place = .started ∧
        ¬Conforms final := by
  refine
    ⟨_,
      .cons (.request rfl)
        (.cons (.serverReads rfl rfl)
          (.cons (.serverForks rfl rfl (by decide))
            (.cons (.serverWritesPid rfl rfl)
              (.cons (.readPid rfl rfl)
                (.cons (.selectFails rfl)
                  (.cons (.childEnds rfl nofun rfl)
                    (.cons (.serverWaits rfl rfl (.inl ⟨rfl, rfl⟩))
                      (.cons (.serverWritesStatus rfl)
                        (.cons (.request rfl)
                          (.single (.readPid rfl rfl))))))))))),
      rfl, rfl, ?_⟩
  intro conforms
  have isOwn :=
    (conforms.readings
      { call := 2
        word :=
          { value := 11
            run := 1
            isStatus := true }
        asStatus := false }
      (List.mem_append_right _ List.mem_cons_self)).1
  cases isOwn

end MeFuzz.Forkserver
