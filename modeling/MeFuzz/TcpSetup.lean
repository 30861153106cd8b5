import MeFuzz.MasterState
import MeFuzz.TcpFraming

namespace MeFuzz.Tcp

/-!
# Setting up a connection

`setup` starts a worker for every new element, writes the node's configuration,
and only then raises the flag that every sender waits for.  A frame takes two
writes and no lock is held between them.  The steps of `setup` and of the
workers interleave freely here, and every write may fail.
-/

structure FuzzerConfiguration where
  mutatorID : String
  schedulerID : String
  deriving Repr, DecidableEq

/-- `element` of the configuration message. -/
structure ElementConfiguration where
  onNodeID : UInt32
  kind : Int
  fuzzerConfiguration : Option FuzzerConfiguration
  deriving Repr, DecidableEq

/-- The numbers of the source's `iota`. -/
def kindNumber : ElementType → Int
  | .undefined => 0
  | .broker => 1
  | .fuzzer => 2
  | .evaler => 3

/-- What `setup` appends to the configuration for one element. -/
def configure (el : Element) : Option ElementConfiguration :=
  match el.type with
  | .evaler =>
      some
        { onNodeID := el.onNodeID
          kind := kindNumber .evaler
          fuzzerConfiguration := none }
  | .fuzzer =>
      some
        { onNodeID := el.onNodeID
          kind := kindNumber .fuzzer
          fuzzerConfiguration :=
            some { mutatorID := "mutator1", schedulerID := "scheduler1" } }
  | .broker => none
  | .undefined => none

/-- `nodeConfiguration`. -/
def configurationOf (elements : List Element) : List ElementConfiguration :=
  elements.filterMap configure

/-- Where a worker stands in `MultiplexedConnection.send`. -/
inductive Sending where
  | idle
  | spinning (encoded : Bytes)
  | released (encoded : Bytes)
  | bodyDue (encoded : Bytes)
  deriving Repr, DecidableEq

/-- The body that a started frame still lacks. -/
def Sending.due : Sending → Bytes
  | .bodyDue encoded => encoded
  | .idle => []
  | .spinning _ => []
  | .released _ => []

/-- The sender has not got past the flag. -/
def Sending.Waits : Sending → Prop
  | .idle => True
  | .spinning _ => True
  | .released _ => False
  | .bodyDue _ => False

/-- The goroutine that `StartEvaler` or `StartFuzzer` started. -/
structure Worker where
  element : Element
  sending : Sending
  deriving Repr, DecidableEq

/-- Where `setup` stands. -/
inductive Stage where
  | starting (remaining : List Element)
  | headerDue (config : Bytes)
  | bodyDue (config : Bytes)
  | configSent
  | done
  | failed
  deriving Repr, DecidableEq

/-- The body that the configuration frame still lacks. -/
def Stage.due : Stage → Bytes
  | .bodyDue config => config
  | .starting _ => []
  | .headerDue _ => []
  | .configSent => []
  | .done => []
  | .failed => []

/-- The elements that `setup` has yet to start. -/
def Stage.remaining : Stage → List Element
  | .starting remaining => remaining
  | .headerDue _ => []
  | .bodyDue _ => []
  | .configSent => []
  | .done => []
  | .failed => []

/--
A node's connection with everyone who writes to it.  `begun` lists the messages
whose frames were started, oldest first; no code reads it.
-/
structure NodeConn where
  stage : Stage
  configuration : List ElementConfiguration
  workers : List Worker
  estableshed : Bool
  lost : Bool
  written : Bytes
  begun : List Bytes
  deriving Repr, DecidableEq

/-- The connection when `SetupNewNode` has returned. -/
def NodeConn.new (elements : List Element) : NodeConn where
  stage := .starting elements
  configuration := []
  workers := []
  estableshed := false
  lost := false
  written := []
  begun := []

/-- The bodies that started frames still lack. -/
def NodeConn.due (conn : NodeConn) : Bytes :=
  conn.stage.due ++ conn.workers.flatMap fun worker => worker.sending.due

/-- How one `Write` ends: all is taken, or only the first `count` bytes. -/
inductive WriteOutcome where
  | complete
  | failed (count : Nat)
  deriving Repr, DecidableEq

/-- One `Write`, and whether it succeeds; a lost connection takes nothing more. -/
def NodeConn.write
    (conn : NodeConn)
    (data : Bytes)
    (outcome : WriteOutcome) : NodeConn × Bool :=
  if conn.lost then (conn, false)
  else
    match outcome with
    | .complete => ({ conn with written := conn.written ++ data }, true)
    | .failed count =>
        ({ conn with written := conn.written ++ data.take count, lost := true },
          false)

/-- The first write of `SendMessage`: the length of the message. -/
def NodeConn.writeHeader
    (conn : NodeConn)
    (msg : Bytes)
    (outcome : WriteOutcome) : NodeConn × Bool :=
  let conn :=
    if conn.lost then conn else { conn with begun := conn.begun ++ [msg] }
  conn.write (BigEndian.encode 4 msg.length) outcome

/-- Move one worker to another place in `send`. -/
def NodeConn.setSending
    (conn : NodeConn)
    (index : Nat)
    (worker : Worker)
    (sending : Sending) : NodeConn :=
  { conn with
    workers := conn.workers.set index { worker with sending := sending } }

/-- One step of `setup` or of a worker. -/
inductive Event where
  | startElement
  | marshal
  | setupWrite (outcome : WriteOutcome)
  | store
  | send (index : Nat) (encoded : Bytes)
  | load (index : Nat)
  | workerWrite (index : Nat) (outcome : WriteOutcome)
  deriving Repr, DecidableEq

section

variable (marshal : List ElementConfiguration → Option Bytes)

/-- A step of `setup`. -/
def NodeConn.setupStep?
    (conn : NodeConn) : Event → Option NodeConn
  | .startElement =>
      match conn.stage with
      | .starting (el :: remaining) =>
          match configure el with
          | some element =>
              some
                { conn with
                  stage := .starting remaining
                  configuration := conn.configuration ++ [element]
                  workers :=
                    conn.workers ++ [{ element := el, sending := .idle }] }
          | none => some { conn with stage := .starting remaining }
      | _ => none
  | .marshal =>
      match conn.stage with
      | .starting [] =>
          match marshal conn.configuration with
          | some config => some { conn with stage := .headerDue config }
          | none => some { conn with stage := .failed }
      | _ => none
  | .setupWrite outcome =>
      match conn.stage with
      | .headerDue config =>
          let result := conn.writeHeader config outcome
          some
            { result.1 with
              stage := if result.2 then .bodyDue config else .failed }
      | .bodyDue config =>
          let result := conn.write config outcome
          some
            { result.1 with
              stage := if result.2 then .configSent else .failed }
      | _ => none
  | .store =>
      match conn.stage with
      | .configSent => some { conn with stage := .done, estableshed := true }
      | _ => none
  | _ => none

/-- A step of a worker; only evalers call `send`. -/
def NodeConn.workerStep?
    (conn : NodeConn) : Event → Option NodeConn
  | .send index encoded =>
      match conn.workers[index]? with
      | some worker =>
          if worker.element.type = .evaler ∧ worker.sending = .idle then
            some (conn.setSending index worker (.spinning encoded))
          else none
      | none => none
  | .load index =>
      match conn.workers[index]? with
      | some worker =>
          match worker.sending with
          | .spinning encoded =>
              if conn.estableshed then
                some (conn.setSending index worker (.released encoded))
              else some conn
          | _ => none
      | none => none
  | .workerWrite index outcome =>
      match conn.workers[index]? with
      | some worker =>
          match worker.sending with
          | .released encoded =>
              let result := conn.writeHeader encoded outcome
              some
                (result.1.setSending index worker
                  (if result.2 then .bodyDue encoded else .idle))
          | .bodyDue encoded =>
              some ((conn.write encoded outcome).1.setSending index worker .idle)
          | _ => none
      | none => none
  | _ => none

/-- Any interleaving of `setup` and the workers. -/
def NodeConn.step?
    (conn : NodeConn)
    (event : Event) : Option NodeConn :=
  (conn.setupStep? marshal event).orElse fun _ => conn.workerStep? event

abbrev NodeConn.Step : StepRelation NodeConn Event :=
  StepRelation.ofFunction (NodeConn.step? marshal)

end

namespace NodeConn

variable {marshal : List ElementConfiguration → Option Bytes}

@[simp] theorem write_workers
    (conn : NodeConn)
    (data : Bytes)
    (outcome : WriteOutcome) :
    (conn.write data outcome).1.workers = conn.workers := by
  unfold write
  split
  · rfl
  · cases outcome <;> rfl

@[simp] theorem write_stage
    (conn : NodeConn)
    (data : Bytes)
    (outcome : WriteOutcome) :
    (conn.write data outcome).1.stage = conn.stage := by
  unfold write
  split
  · rfl
  · cases outcome <;> rfl

@[simp] theorem write_estableshed
    (conn : NodeConn)
    (data : Bytes)
    (outcome : WriteOutcome) :
    (conn.write data outcome).1.estableshed = conn.estableshed := by
  unfold write
  split
  · rfl
  · cases outcome <;> rfl

@[simp] theorem write_begun
    (conn : NodeConn)
    (data : Bytes)
    (outcome : WriteOutcome) :
    (conn.write data outcome).1.begun = conn.begun := by
  unfold write
  split
  · rfl
  · cases outcome <;> rfl

@[simp] theorem writeHeader_workers
    (conn : NodeConn)
    (msg : Bytes)
    (outcome : WriteOutcome) :
    (conn.writeHeader msg outcome).1.workers = conn.workers := by
  simp only [writeHeader, write_workers]
  split <;> rfl

@[simp] theorem writeHeader_stage
    (conn : NodeConn)
    (msg : Bytes)
    (outcome : WriteOutcome) :
    (conn.writeHeader msg outcome).1.stage = conn.stage := by
  simp only [writeHeader, write_stage]
  split <;> rfl

@[simp] theorem writeHeader_estableshed
    (conn : NodeConn)
    (msg : Bytes)
    (outcome : WriteOutcome) :
    (conn.writeHeader msg outcome).1.estableshed = conn.estableshed := by
  simp only [writeHeader, write_estableshed]
  split <;> rfl

theorem writeHeader_begun
    (conn : NodeConn)
    (msg : Bytes)
    (outcome : WriteOutcome) :
    (conn.writeHeader msg outcome).1.begun =
      if conn.lost then conn.begun else conn.begun ++ [msg] := by
  simp only [writeHeader, write_begun]
  split <;> rfl

/-- Replace the worker between two groups of others. -/
def withSending
    (conn : NodeConn)
    (before : List Worker)
    (worker : Worker)
    (sending : Sending)
    (after : List Worker) : NodeConn :=
  { conn with
    workers := before ++ { worker with sending := sending } :: after }

/-- Everything that one step can do. -/
inductive Moves
    (marshal : List ElementConfiguration → Option Bytes)
    (conn : NodeConn) : NodeConn → Prop where
  | start
      {el : Element}
      {remaining : List Element}
      {element : ElementConfiguration} :
      conn.stage = .starting (el :: remaining) →
      configure el = some element →
      Moves marshal conn
        { conn with
          stage := .starting remaining
          configuration := conn.configuration ++ [element]
          workers := conn.workers ++ [{ element := el, sending := .idle }] }
  | skip
      {el : Element}
      {remaining : List Element} :
      conn.stage = .starting (el :: remaining) →
      configure el = none →
      Moves marshal conn { conn with stage := .starting remaining }
  | marshalled
      {config : Bytes} :
      conn.stage = .starting [] →
      marshal conn.configuration = some config →
      Moves marshal conn { conn with stage := .headerDue config }
  | unmarshalled :
      conn.stage = .starting [] →
      marshal conn.configuration = none →
      Moves marshal conn { conn with stage := .failed }
  | configHeader
      {config : Bytes}
      (outcome : WriteOutcome) :
      conn.stage = .headerDue config →
      Moves marshal conn
        { (conn.writeHeader config outcome).1 with
          stage :=
            if (conn.writeHeader config outcome).2 then .bodyDue config
            else .failed }
  | configBody
      {config : Bytes}
      (outcome : WriteOutcome) :
      conn.stage = .bodyDue config →
      Moves marshal conn
        { (conn.write config outcome).1 with
          stage :=
            if (conn.write config outcome).2 then .configSent else .failed }
  | store :
      conn.stage = .configSent →
      Moves marshal conn { conn with stage := .done, estableshed := true }
  | send
      {before after : List Worker}
      {worker : Worker}
      (encoded : Bytes) :
      conn.workers = before ++ worker :: after →
      worker.element.type = .evaler →
      worker.sending = .idle →
      Moves marshal conn
        (conn.withSending before worker (.spinning encoded) after)
  | wait : Moves marshal conn conn
  | release
      {before after : List Worker}
      {worker : Worker}
      {encoded : Bytes} :
      conn.workers = before ++ worker :: after →
      worker.sending = .spinning encoded →
      conn.estableshed = true →
      Moves marshal conn
        (conn.withSending before worker (.released encoded) after)
  | workerHeader
      {before after : List Worker}
      {worker : Worker}
      {encoded : Bytes}
      (outcome : WriteOutcome) :
      conn.workers = before ++ worker :: after →
      worker.sending = .released encoded →
      Moves marshal conn
        ((conn.writeHeader encoded outcome).1.withSending before worker
          (if (conn.writeHeader encoded outcome).2 then .bodyDue encoded
            else .idle)
          after)
  | workerBody
      {before after : List Worker}
      {worker : Worker}
      {encoded : Bytes}
      (outcome : WriteOutcome) :
      conn.workers = before ++ worker :: after →
      worker.sending = .bodyDue encoded →
      Moves marshal conn
        ((conn.write encoded outcome).1.withSending before worker .idle after)

variable {conn : NodeConn}
variable {worker : Worker}

theorem split_worker
    {index : Nat}
    (found : conn.workers[index]? = some worker) :
    ∃ before after,
      conn.workers = before ++ worker :: after ∧
        ∀ (other : NodeConn) (sending : Sending),
          other.workers = conn.workers →
            other.setSending index worker sending =
              other.withSending before worker sending after := by
  obtain ⟨bound, rfl⟩ := List.getElem?_eq_some_iff.mp found
  refine
    ⟨conn.workers.take index, conn.workers.drop (index + 1), ?_, ?_⟩
  · simp
  · intro other sending same
    simp only [setSending, withSending, same,
      List.set_eq_take_append_cons_drop, if_pos bound]

variable {event : Event}

variable {conn next : NodeConn}

/-- The steps of `setup` are among the moves. -/
theorem moves_of_setupStep
    (taken : conn.setupStep? marshal event = some next) :
    Moves marshal conn next := by
  cases event with
  | startElement =>
      simp only [setupStep?] at taken
      split at taken
      · rename_i el remaining stage
        split at taken
        · rename_i element configured
          cases taken
          exact .start stage configured
        · rename_i configured
          cases taken
          exact .skip stage configured
      · cases taken
  | marshal =>
      simp only [setupStep?] at taken
      split at taken
      · rename_i stage
        split at taken
        · rename_i config marshalled
          cases taken
          exact .marshalled stage marshalled
        · rename_i unmarshalled
          cases taken
          exact .unmarshalled stage unmarshalled
      · cases taken
  | setupWrite outcome =>
      simp only [setupStep?] at taken
      split at taken
      · rename_i config stage
        cases taken
        exact .configHeader outcome stage
      · rename_i config stage
        cases taken
        exact .configBody outcome stage
      · cases taken
  | store =>
      simp only [setupStep?] at taken
      split at taken
      · rename_i stage
        cases taken
        exact .store stage
      · cases taken
  | send index encoded => cases taken
  | load index => cases taken
  | workerWrite index outcome => cases taken

theorem moves_of_workerStep
    (taken : conn.workerStep? event = some next) :
    Moves marshal conn next := by
  cases event with
  | startElement => cases taken
  | marshal => cases taken
  | setupWrite outcome => cases taken
  | store => cases taken
  | send index encoded =>
      simp only [workerStep?] at taken
      split at taken
      · rename_i worker found
        split at taken
        · rename_i ready
          obtain ⟨before, after, workers, placed⟩ := split_worker found
          cases taken
          rw [placed conn _ rfl]
          exact .send encoded workers ready.1 ready.2
        · cases taken
      · cases taken
  | load index =>
      simp only [workerStep?] at taken
      split at taken
      · rename_i worker found
        split at taken
        · rename_i encoded sending
          split at taken
          · rename_i established
            obtain ⟨before, after, workers, placed⟩ := split_worker found
            cases taken
            rw [placed conn _ rfl]
            exact .release workers sending established
          · cases taken
            exact .wait
        · cases taken
      · cases taken
  | workerWrite index outcome =>
      simp only [workerStep?] at taken
      split at taken
      · rename_i worker found
        obtain ⟨before, after, workers, placed⟩ := split_worker found
        split at taken
        · rename_i encoded sending
          cases taken
          rw [placed _ _ (writeHeader_workers conn encoded outcome)]
          exact .workerHeader outcome workers sending
        · rename_i encoded sending
          cases taken
          rw [placed _ _ (write_workers conn encoded outcome)]
          exact .workerBody outcome workers sending
        · cases taken
      · cases taken

theorem moves_of_step
    (taken : Step marshal conn event next) :
    Moves marshal conn next := by
  have either :
      (conn.setupStep? marshal event).orElse
        (fun _ => conn.workerStep? event) = some next := taken
  cases setup : conn.setupStep? marshal event with
  | none =>
      rw [setup] at either
      exact moves_of_workerStep either
  | some reached =>
      rw [setup] at either
      cases either
      exact moves_of_setupStep setup

/-- The flag is down and nothing has been written. -/
def Untouched (conn : NodeConn) : Prop :=
  conn.estableshed = false ∧ conn.lost = false ∧
    conn.written = [] ∧ conn.begun = []

/-- The first frame is that of the configuration. -/
def Opened
    (marshal : List ElementConfiguration → Option Bytes)
    (elements : List Element)
    (conn : NodeConn) : Prop :=
  ∃ config later,
    marshal (configurationOf elements) = some config ∧
      conn.begun = config :: later

/-- What is known of the connection at each stage of `setup`. -/
def StageFacts
    (marshal : List ElementConfiguration → Option Bytes)
    (elements : List Element)
    (conn : NodeConn) : Prop :=
  match conn.stage with
  | .starting remaining =>
      conn.Untouched ∧
        ∃ handled,
          elements = handled ++ remaining ∧
            conn.configuration = configurationOf handled
  | .headerDue config =>
      conn.Untouched ∧ marshal (configurationOf elements) = some config
  | .bodyDue _ => conn.estableshed = false ∧ conn.Opened marshal elements
  | .configSent => conn.estableshed = false ∧ conn.Opened marshal elements
  | .done => conn.Opened marshal elements
  | .failed =>
      conn.estableshed = false ∧
        (conn.begun = [] ∨ conn.Opened marshal elements)

/-- The elements that may send. -/
def senders (conn : NodeConn) : List Element :=
  Master.evalersOf
    (conn.workers.map Worker.element ++ conn.stage.remaining)

/-- The written bytes and these are the opened frames; a lost connection lacks some. -/
def Stream (conn : NodeConn) (due : Bytes) : Prop :=
  if conn.lost then conn.written <+: frames conn.begun
  else conn.written ++ due = frames conn.begun

/-- The invariant of a connection that is set up for these elements. -/
structure Sound
    (marshal : List ElementConfiguration → Option Bytes)
    (elements : List Element)
    (conn : NodeConn) : Prop where
  stage : conn.StageFacts marshal elements
  only_evalers :
    ∀ worker ∈ conn.workers,
      worker.sending ≠ .idle → worker.element.type = .evaler
  one_sender : conn.senders.length ≤ 1
  held :
    conn.estableshed = false →
      ∀ worker ∈ conn.workers, worker.sending.Waits
  stream : conn.Stream conn.due

theorem due_of_waits
    {sending : Sending}
    (waits : sending.Waits) :
    sending.due = [] := by
  cases sending with
  | idle => rfl
  | spinning encoded => rfl
  | released encoded => rfl
  | bodyDue encoded => exact waits.elim

theorem flatMap_due_eq_nil
    {workers : List Worker}
    (no_due : ∀ worker ∈ workers, worker.sending.due = []) :
    (workers.flatMap fun worker => worker.sending.due) = [] := by
  rw [List.flatMap_eq_nil_iff]
  exact no_due

variable {elements : List Element}

/-- Before the flag is raised only `setup` has a frame open. -/
theorem Sound.due_of_held
    (sound : conn.Sound marshal elements)
    (held : conn.estableshed = false) :
    conn.due = conn.stage.due := by
  rw [due, flatMap_due_eq_nil
    (fun worker member => due_of_waits (sound.held held worker member)),
    List.append_nil]

variable {before after : List Worker}

theorem Sound.others_idle
    (sound : conn.Sound marshal elements)
    (workers : conn.workers = before ++ worker :: after)
    (evaler : worker.element.type = .evaler) :
    ∀ other ∈ before ++ after, other.sending = .idle := by
  intro other member
  by_contra sends
  have present : other ∈ conn.workers := by
    rw [workers]
    rcases List.mem_append.mp member with member | member
    · exact List.mem_append_left _ member
    · exact List.mem_append_right _ (List.mem_cons_of_mem _ member)
  have other_evaler := sound.only_evalers other present sends
  have alone := sound.one_sender
  simp only [senders, Master.evalersOf, workers, List.map_append,
    List.map_cons, List.filter_append, List.filter_cons, evaler, decide_true,
    if_true, List.length_append, List.length_cons] at alone
  have counted :
      0 < ((before.map Worker.element).filter
            fun el => el.type = .evaler).length +
          ((after.map Worker.element).filter
            fun el => el.type = .evaler).length := by
    rcases List.mem_append.mp member with member | member
    · have found :
          other.element ∈ (before.map Worker.element).filter
            fun el => el.type = .evaler := by
        simp only [List.mem_filter, List.mem_map, other_evaler, decide_true,
          and_true]
        exact ⟨other, member, rfl⟩
      have := List.length_pos_of_mem found
      omega
    · have found :
          other.element ∈ (after.map Worker.element).filter
            fun el => el.type = .evaler := by
        simp only [List.mem_filter, List.mem_map, other_evaler, decide_true,
          and_true]
        exact ⟨other, member, rfl⟩
      have := List.length_pos_of_mem found
      omega
  omega

theorem due_withSending
    (idle : ∀ other ∈ before ++ after, other.sending = .idle)
    (worker : Worker)
    (sending : Sending) :
    (conn.withSending before worker sending after).due =
      conn.stage.due ++ sending.due := by
  have before_due :
      (before.flatMap fun other => other.sending.due) = [] :=
    flatMap_due_eq_nil fun other member => by
      rw [idle other (List.mem_append_left _ member)]
      rfl
  have after_due :
      (after.flatMap fun other => other.sending.due) = [] :=
    flatMap_due_eq_nil fun other member => by
      rw [idle other (List.mem_append_right _ member)]
      rfl
  simp only [due, withSending, List.flatMap_append, List.flatMap_cons,
    before_due, after_due, List.nil_append, List.append_nil]

theorem frames_snoc
    (payloads : List Bytes)
    (payload : Bytes) :
    frames (payloads ++ [payload]) =
      frames payloads ++ (BigEndian.encode 4 payload.length ++ payload) := by
  simp [frames, sendMessage]

theorem Stream.writeHeader
    (stream : conn.Stream [])
    (msg : Bytes)
    (outcome : WriteOutcome) :
    (conn.writeHeader msg outcome).1.Stream
      (if (conn.writeHeader msg outcome).2 then msg else []) := by
  cases alive : conn.lost with
  | true =>
      simpa [Stream, NodeConn.writeHeader, NodeConn.write, alive] using stream
  | false =>
      have whole : conn.written = frames conn.begun := by
        simpa [Stream, alive] using stream
      cases outcome with
      | complete =>
          simp [Stream, NodeConn.writeHeader, NodeConn.write, alive, whole,
            frames, sendMessage]
      | failed count =>
          simp only [Stream, NodeConn.writeHeader, NodeConn.write, alive,
            Bool.false_eq_true, if_false, if_true, whole, frames_snoc]
          refine (List.prefix_append_right_inj _).mpr ?_
          exact (List.take_prefix _ _).trans (List.prefix_append _ _)

theorem Stream.write
    {data : Bytes}
    (stream : conn.Stream data)
    (outcome : WriteOutcome) :
    (conn.write data outcome).1.Stream [] := by
  cases alive : conn.lost with
  | true =>
      simpa [Stream, NodeConn.write, alive] using stream
  | false =>
      have whole : conn.written ++ data = frames conn.begun := by
        simpa [Stream, alive] using stream
      cases outcome with
      | complete => simpa [Stream, NodeConn.write, alive] using whole
      | failed count =>
          simp only [Stream, NodeConn.write, alive, Bool.false_eq_true,
            if_false, if_true, ← whole]
          exact (List.prefix_append_right_inj _).mpr (List.take_prefix _ _)

theorem Sound.opened_of_established
    (sound : conn.Sound marshal elements)
    (established : conn.estableshed = true) :
    conn.stage = .done ∧ conn.Opened marshal elements := by
  have facts := sound.stage
  unfold StageFacts at facts
  cases stage : conn.stage with
  | done => rw [stage] at facts; exact ⟨rfl, facts⟩
  | starting remaining =>
      rw [stage] at facts
      simp [facts.1.1] at established
  | headerDue config =>
      rw [stage] at facts
      simp [facts.1.1] at established
  | bodyDue config => rw [stage] at facts; simp [facts.1] at established
  | configSent => rw [stage] at facts; simp [facts.1] at established
  | failed => rw [stage] at facts; simp [facts.1] at established

theorem Sound.established_of_not_waits
    (sound : conn.Sound marshal elements)
    (workers : conn.workers = before ++ worker :: after)
    (past : ¬ worker.sending.Waits) :
    conn.estableshed = true := by
  by_contra down
  have held : conn.estableshed = false := by simpa using down
  exact past (sound.held held worker (by rw [workers]; simp))

theorem Opened.writeHeader
    (opened : conn.Opened marshal elements)
    (msg : Bytes)
    (outcome : WriteOutcome) :
    (conn.writeHeader msg outcome).1.Opened marshal elements := by
  obtain ⟨config, later, marshalled, begun⟩ := opened
  cases alive : conn.lost with
  | true =>
      exact ⟨config, later, marshalled, by
        rw [writeHeader_begun, if_pos alive, begun]⟩
  | false =>
      exact ⟨config, later ++ [msg], marshalled, by
        rw [writeHeader_begun, if_neg (by simp [alive]), begun,
          List.cons_append]⟩

/-- `setup` keeps to its stages. -/
theorem Moves.stageFacts
    (moves : Moves marshal conn next)
    (sound : conn.Sound marshal elements) :
    next.StageFacts marshal elements := by
  have facts := sound.stage
  cases moves with
  | @start el remaining element stage configured =>
      simp only [StageFacts, stage] at facts ⊢
      obtain ⟨untouched, handled, elements_eq, configuration⟩ := facts
      refine ⟨untouched, handled ++ [el], by simp [elements_eq], ?_⟩
      simp [configuration, configurationOf, configured]
  | @skip el remaining stage configured =>
      simp only [StageFacts, stage] at facts ⊢
      obtain ⟨untouched, handled, elements_eq, configuration⟩ := facts
      refine ⟨untouched, handled ++ [el], by simp [elements_eq], ?_⟩
      simp [configuration, configurationOf, configured]
  | marshalled stage marshalled =>
      simp only [StageFacts, stage] at facts ⊢
      obtain ⟨untouched, handled, elements_eq, configuration⟩ := facts
      rw [configuration] at marshalled
      rw [elements_eq, List.append_nil]
      exact ⟨untouched, marshalled⟩
  | unmarshalled stage _ =>
      simp only [StageFacts, stage] at facts ⊢
      exact ⟨facts.1.1, Or.inl facts.1.2.2.2⟩
  | @configHeader config outcome stage =>
      simp only [StageFacts, stage] at facts
      obtain ⟨⟨held, alive, _, begun⟩, marshalled⟩ := facts
      have opened :
          (conn.writeHeader config outcome).1.Opened marshal elements :=
        ⟨config, [], marshalled, by
          rw [writeHeader_begun, begun, if_neg (by simp [alive]),
            List.nil_append]⟩
      have still_held :
          (conn.writeHeader config outcome).1.estableshed = false := by
        rw [writeHeader_estableshed, held]
      cases went_out : (conn.writeHeader config outcome).2 with
      | true => exact ⟨still_held, opened⟩
      | false => exact ⟨still_held, Or.inr opened⟩
  | @configBody config outcome stage =>
      simp only [StageFacts, stage] at facts
      obtain ⟨held, opened⟩ := facts
      have still_opened : (conn.write config outcome).1.Opened marshal elements := by
        rw [Opened, write_begun]
        exact opened
      have still_held : (conn.write config outcome).1.estableshed = false := by
        rw [write_estableshed, held]
      cases went_out : (conn.write config outcome).2 with
      | true => exact ⟨still_held, still_opened⟩
      | false => exact ⟨still_held, Or.inr still_opened⟩
  | store stage =>
      simp only [StageFacts, stage] at facts ⊢
      exact facts.2
  | send encoded workers evaler idle => exact facts
  | wait => exact facts
  | release workers sending established => exact facts
  | @workerHeader before after worker encoded outcome workers sending =>
      have established := sound.established_of_not_waits workers
        (by rw [sending]; exact id)
      obtain ⟨stage, opened⟩ := sound.opened_of_established established
      simp only [StageFacts, withSending, writeHeader_stage, stage]
      exact opened.writeHeader encoded outcome
  | @workerBody before after worker encoded outcome workers sending =>
      have established := sound.established_of_not_waits workers
        (by rw [sending]; exact id)
      obtain ⟨stage, opened⟩ := sound.opened_of_established established
      simp only [StageFacts, withSending, write_stage, stage]
      rw [Opened]
      simp only [write_begun]
      exact opened

theorem senders_withSending
    (workers : conn.workers = before ++ worker :: after)
    (sending : Sending) :
    (conn.withSending before worker sending after).senders = conn.senders := by
  simp [senders, withSending, workers]

theorem Moves.senders_sublist
    (moves : Moves marshal conn next) :
    next.senders.Sublist conn.senders := by
  cases moves with
  | start stage _ => simp [senders, stage, Stage.remaining]
  | skip stage _ =>
      simp only [senders, stage, Stage.remaining]
      exact ((List.Sublist.refl _).append (List.sublist_cons_self _ _)).filter _
  | marshalled stage _ => simp [senders, stage, Stage.remaining]
  | unmarshalled stage _ => simp [senders, stage, Stage.remaining]
  | @configHeader config outcome stage =>
      cases (conn.writeHeader config outcome).2 with
      | true => simp [senders, stage, Stage.remaining]
      | false => simp [senders, stage, Stage.remaining]
  | @configBody config outcome stage =>
      cases (conn.write config outcome).2 with
      | true => simp [senders, stage, Stage.remaining]
      | false => simp [senders, stage, Stage.remaining]
  | store stage => simp [senders, stage, Stage.remaining]
  | send encoded workers _ _ => rw [senders_withSending workers]
  | wait => exact List.Sublist.refl _
  | release workers _ _ => rw [senders_withSending workers]
  | @workerHeader before after worker encoded outcome workers _ =>
      rw [senders_withSending (by rw [writeHeader_workers, workers])]
      simp [senders]
  | @workerBody before after worker encoded outcome workers _ =>
      rw [senders_withSending (by rw [write_workers, workers])]
      simp [senders]

theorem forall_withSending
    {Property : Worker → Prop}
    {sending : Sending}
    (workers : conn.workers = before ++ worker :: after)
    (all : ∀ other ∈ conn.workers, Property other)
    (changed : Property { worker with sending := sending }) :
    ∀ other ∈ (conn.withSending before worker sending after).workers,
      Property other := by
  intro other member
  rcases List.mem_append.mp member with member | member
  · exact all other (by rw [workers]; exact List.mem_append_left _ member)
  · rcases List.mem_cons.mp member with rfl | member
    · exact changed
    · exact all other (by
        rw [workers]
        exact List.mem_append_right _ (List.mem_cons_of_mem _ member))

theorem mem_workers
    (workers : conn.workers = before ++ worker :: after) :
    worker ∈ conn.workers := by
  rw [workers]
  exact List.mem_append_right _ List.mem_cons_self

theorem Moves.only_evalers
    (moves : Moves marshal conn next)
    (sound : conn.Sound marshal elements) :
    ∀ worker ∈ next.workers,
      worker.sending ≠ .idle → worker.element.type = .evaler := by
  have only := sound.only_evalers
  cases moves with
  | start stage configured =>
      intro worker member sends
      rcases List.mem_append.mp member with member | member
      · exact only worker member sends
      · rw [List.mem_singleton.mp member] at sends
        exact absurd rfl sends
  | skip stage configured => exact only
  | marshalled stage marshalled => exact only
  | unmarshalled stage unmarshalled => exact only
  | configHeader outcome stage => simpa using only
  | configBody outcome stage => simpa using only
  | store stage => exact only
  | send encoded workers evaler idle =>
      exact forall_withSending workers only fun _ => evaler
  | wait => exact only
  | release workers sending established =>
      have evaler := only _ (mem_workers workers) (by simp [sending])
      exact forall_withSending workers only fun _ => evaler
  | workerHeader outcome workers sending =>
      have evaler := only _ (mem_workers workers) (by simp [sending])
      exact forall_withSending (by rw [writeHeader_workers, workers])
        (by simpa using only) fun _ => evaler
  | workerBody outcome workers sending =>
      exact forall_withSending (by rw [write_workers, workers])
        (by simpa using only) fun sends => absurd rfl sends

theorem Moves.held
    (moves : Moves marshal conn next)
    (sound : conn.Sound marshal elements) :
    next.estableshed = false →
      ∀ worker ∈ next.workers, worker.sending.Waits := by
  intro down
  cases moves with
  | start stage configured =>
      intro worker member
      rcases List.mem_append.mp member with member | member
      · exact sound.held down worker member
      · rw [List.mem_singleton.mp member]
        trivial
  | skip stage configured => exact sound.held down
  | marshalled stage marshalled => exact sound.held down
  | unmarshalled stage unmarshalled => exact sound.held down
  | configHeader outcome stage =>
      simp only [writeHeader_estableshed] at down
      simpa using sound.held down
  | configBody outcome stage =>
      simp only [write_estableshed] at down
      simpa using sound.held down
  | store stage => cases down
  | send encoded workers evaler idle =>
      exact forall_withSending workers (sound.held down) trivial
  | wait => exact sound.held down
  | release workers sending established =>
      exact absurd (established.symm.trans down) (by simp)
  | workerHeader outcome workers sending =>
      have established := sound.established_of_not_waits workers
        (by rw [sending]; exact id)
      simp only [withSending, writeHeader_estableshed] at down
      exact absurd (established.symm.trans down) (by simp)
  | workerBody outcome workers sending =>
      have established := sound.established_of_not_waits workers
        (by rw [sending]; exact id)
      simp only [withSending, write_estableshed] at down
      exact absurd (established.symm.trans down) (by simp)

theorem Stream.of_same
    {data : Bytes}
    (stream : conn.Stream data)
    (due : next.due = data)
    (lost : next.lost = conn.lost)
    (written : next.written = conn.written)
    (begun : next.begun = conn.begun) :
    next.Stream next.due := by
  rw [due, Stream, lost, written, begun]
  exact stream

theorem due_of_others_idle
    (workers : conn.workers = before ++ worker :: after)
    (idle : ∀ other ∈ before ++ after, other.sending = .idle) :
    conn.due = conn.stage.due ++ worker.sending.due := by
  have unchanged :
      conn.withSending before worker worker.sending after = conn := by
    simp [withSending, ← workers]
  rw [← unchanged, due_withSending idle, unchanged]

/-- The written bytes and the bodies due stay the frames that were opened. -/
theorem Moves.stream
    (moves : Moves marshal conn next)
    (sound : conn.Sound marshal elements) :
    next.Stream next.due := by
  have stream := sound.stream
  cases moves with
  | start stage configured =>
      exact stream.of_same
        (by simp [due, stage, Stage.due, Sending.due]) rfl rfl rfl
  | skip stage configured =>
      exact stream.of_same (by simp [due, stage, Stage.due]) rfl rfl rfl
  | marshalled stage marshalled =>
      exact stream.of_same (by simp [due, stage, Stage.due]) rfl rfl rfl
  | unmarshalled stage unmarshalled =>
      exact stream.of_same (by simp [due, stage, Stage.due]) rfl rfl rfl
  | @configHeader config outcome stage =>
      have held : conn.estableshed = false := by
        have facts := sound.stage
        simp only [StageFacts, stage] at facts
        exact facts.1.1
      have none_due : conn.due = [] := by
        rw [sound.due_of_held held, stage, Stage.due]
      have workers_due :
          (conn.workers.flatMap fun worker => worker.sending.due) = [] :=
        flatMap_due_eq_nil fun worker member =>
          due_of_waits (sound.held held worker member)
      rw [none_due] at stream
      have opened := stream.writeHeader config outcome
      cases went_out : (conn.writeHeader config outcome).2 with
      | true =>
          simp only [went_out, if_true] at opened
          exact opened.of_same
            (by simp [due, Stage.due, workers_due]) rfl rfl rfl
      | false =>
          simp only [went_out, Bool.false_eq_true, if_false] at opened
          exact opened.of_same
            (by simp [due, Stage.due, workers_due]) rfl rfl rfl
  | @configBody config outcome stage =>
      have held : conn.estableshed = false := by
        have facts := sound.stage
        simp only [StageFacts, stage] at facts
        exact facts.1
      have config_due : conn.due = config := by
        rw [sound.due_of_held held, stage, Stage.due]
      have workers_due :
          (conn.workers.flatMap fun worker => worker.sending.due) = [] :=
        flatMap_due_eq_nil fun worker member =>
          due_of_waits (sound.held held worker member)
      rw [config_due] at stream
      have closed := stream.write outcome
      cases went_out : (conn.write config outcome).2 with
      | true =>
          exact closed.of_same
            (by simp [due, Stage.due, workers_due]) rfl rfl rfl
      | false =>
          exact closed.of_same
            (by simp [due, Stage.due, workers_due]) rfl rfl rfl
  | store stage =>
      exact stream.of_same (by simp [due, stage, Stage.due]) rfl rfl rfl
  | send encoded workers evaler idle =>
      have others := sound.others_idle workers evaler
      refine stream.of_same ?_ rfl rfl rfl
      rw [due_withSending others, due_of_others_idle workers others, idle]
      rfl
  | wait => exact stream
  | release workers sending established =>
      have evaler :=
        sound.only_evalers _ (mem_workers workers) (by simp [sending])
      have others := sound.others_idle workers evaler
      refine stream.of_same ?_ rfl rfl rfl
      rw [due_withSending others, due_of_others_idle workers others, sending]
      rfl
  | @workerHeader before after worker encoded outcome workers sending =>
      have evaler :=
        sound.only_evalers _ (mem_workers workers) (by simp [sending])
      have others := sound.others_idle workers evaler
      have established := sound.established_of_not_waits workers
        (by rw [sending]; exact id)
      have stage := (sound.opened_of_established established).1
      have none_due : conn.due = [] := by
        rw [due_of_others_idle workers others, sending, stage]
        rfl
      rw [none_due] at stream
      have opened := stream.writeHeader encoded outcome
      rw [due_withSending others, writeHeader_stage, stage]
      cases went_out : (conn.writeHeader encoded outcome).2 with
      | true =>
          simp only [went_out, if_true] at opened
          exact opened
      | false =>
          simp only [went_out, Bool.false_eq_true, if_false] at opened
          exact opened
  | @workerBody before after worker encoded outcome workers sending =>
      have evaler :=
        sound.only_evalers _ (mem_workers workers) (by simp [sending])
      have others := sound.others_idle workers evaler
      have established := sound.established_of_not_waits workers
        (by rw [sending]; exact id)
      have stage := (sound.opened_of_established established).1
      have body_due : conn.due = encoded := by
        rw [due_of_others_idle workers others, sending, stage]
        rfl
      rw [body_due] at stream
      rw [due_withSending others, write_stage, stage]
      exact stream.write outcome

theorem Sound.step
    (sound : conn.Sound marshal elements)
    (taken : Step marshal conn event next) :
    next.Sound marshal elements := by
  have moves := moves_of_step taken
  exact
    { stage := moves.stageFacts sound
      only_evalers := moves.only_evalers sound
      one_sender := moves.senders_sublist.length_le.trans sound.one_sender
      held := moves.held sound
      stream := moves.stream sound }

/-- The invariant holds when `SetupNewNode` has returned. -/
theorem sound_new
    (one_evaler : (Master.evalersOf elements).length ≤ 1) :
    (new elements).Sound marshal elements where
  stage := ⟨⟨rfl, rfl, rfl, rfl⟩, [], rfl, rfl⟩
  only_evalers := by simp [new]
  one_sender := by simpa [senders, new, Stage.remaining] using one_evaler
  held := by simp [new]
  stream := by simp [Stream, new, due, Stage.due, frames]

/--
The configuration's frame comes first, frames are never mixed, and whenever no
body is due and no write has failed, every frame that was opened is complete.
-/
structure ConfigurationFirst
    (marshal : List ElementConfiguration → Option Bytes)
    (elements : List Element)
    (conn : NodeConn) : Prop where
  first : conn.begun = [] ∨ conn.Opened marshal elements
  unmixed : conn.written <+: frames conn.begun
  complete :
    conn.lost = false → conn.due = [] → conn.written = frames conn.begun

theorem Sound.configurationFirst
    (sound : conn.Sound marshal elements) :
    conn.ConfigurationFirst marshal elements := by
  have facts := sound.stage
  have stream := sound.stream
  refine ⟨?_, ?_, ?_⟩
  · unfold StageFacts at facts
    cases stage : conn.stage with
    | starting remaining => rw [stage] at facts; exact Or.inl facts.1.2.2.2
    | headerDue config => rw [stage] at facts; exact Or.inl facts.1.2.2.2
    | bodyDue config => rw [stage] at facts; exact Or.inr facts.2
    | configSent => rw [stage] at facts; exact Or.inr facts.2
    | done => rw [stage] at facts; exact Or.inr facts
    | failed => rw [stage] at facts; exact facts.2
  · unfold Stream at stream
    split at stream
    · exact stream
    · rw [← stream]
      exact List.prefix_append _ _
  · intro alive none_due
    unfold Stream at stream
    rw [if_neg (by simp [alive]), none_due, List.append_nil] at stream
    exact stream

/--
Whatever `SetupNewNode` returned, and however `setup`, the workers it started
and their sends interleave: the stream to the node is the configuration's frame
followed by whole frames, with at most the last one unfinished.
-/
theorem node_sees_configuration_first
    {marshal : List ElementConfiguration → Option Bytes}
    {m next : Master}
    {nodeID : NodeID}
    {cores : Int}
    {manualRole : String}
    {env : Master.SetupEnv}
    {elements : List Element}
    {events : List Event}
    {conn : NodeConn}
    (replied :
      m.setupNewNode nodeID cores manualRole env =
        some (next, .setUp elements))
    (run : Run (Step marshal) (new elements) events conn) :
    conn.ConfigurationFirst marshal elements := by
  have sound : conn.Sound marshal elements :=
    @Run.invariant _ _ _ (Sound marshal elements) Sound.step _ _ _ run
      (sound_new (Master.setupNewNode_evalers replied))
  exact sound.configurationFirst

/-- One evaler, which calls `send` before its node has the configuration. -/
theorem node_sees_configuration_first_eager_evaler :
    ConfigurationFirst (fun _ => some [0x91, 0x91, 0x93, 7, 3, 0xc0])
      [⟨7, .evaler⟩]
      { stage := .done
        configuration := [⟨7, 3, none⟩]
        workers := [⟨⟨7, .evaler⟩, .bodyDue [0x93, 7, 0x16, 0x90]⟩]
        estableshed := true
        lost := false
        written :=
          [0, 0, 0, 6, 0x91, 0x91, 0x93, 7, 3, 0xc0] ++ [0, 0, 0, 4]
        begun :=
          [[0x91, 0x91, 0x93, 7, 3, 0xc0], [0x93, 7, 0x16, 0x90]] } :=
  @node_sees_configuration_first _
    (Master.newMaster (InfoDb.new "corpus"))
    (Master.writeBack 1
      (Master.newEvaler 1 7
        (Master.newMaster (InfoDb.new "corpus"), ⟨[], 1, 0⟩)))
    1 1 "eval" ⟨7, 0, ⟨0, 0⟩⟩ [⟨7, .evaler⟩]
    [.startElement, .send 0 [0x93, 7, 0x16, 0x90], .load 0, .marshal,
      .setupWrite .complete, .setupWrite .complete, .load 0, .store, .load 0,
      .workerWrite 0 .complete]
    _
    (by
      simp [Master.setupNewNode, Master.newMaster, Master.nodeFor,
        Master.assignRoles, Master.newEvaler])
    (.cons rfl (.cons rfl (.cons rfl (.cons rfl (.cons rfl (.cons rfl
      (.cons rfl (.cons rfl (.cons rfl (.cons rfl (.nil _)))))))))))

end NodeConn

end MeFuzz.Tcp
