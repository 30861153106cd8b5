import MeFuzz.TransitionRun
import MeFuzz.LlmpSender
import MeFuzz.TcpMessages

namespace MeFuzz.Llmp

open Tcp.Node (TcpMasterMessage llmpFlagB2M)

/-!
# The proxy between a broker and the master

The proxy reads what the local broker broadcasts and passes some of it on to
the master; what the master sends it passes on to the broker, through a sender
of its own.  One loop serves both directions in turn.
-/

/-- A broadcast message as `recv_buf_with_flags` returns it. -/
structure Broadcast where
  sender : ClientId
  tag : Tag
  flags : Flags
  payload : Bytes
  deriving Repr, DecidableEq

/-- Where the thread is, with the rounds that its inner loop has still to go. -/
inductive ProxyPhase where
  | sending (left : Nat)
  | receiving (left : Nat)
  | returned
  | panicked
  deriving Repr, DecidableEq

/-- How reading from the broker fails, as the thread tells failures apart. -/
inductive LocalFailure where
  | unexpectedEof
  | file
  | other
  | panicked
  deriving Repr, DecidableEq

/--
What a call of the local receiver ends with.  A receiver that could not map the
next page starts the old one over: it is set back to an earlier message.
-/
inductive LocalRead where
  | nothing
  | message
  | shuttingDown
  | failed (failure : LocalFailure) (back : Nat)
  deriving Repr, DecidableEq

/--
The thread and its surroundings: all that the broker has broadcast and how much
of it the local receiver has returned, all that the master has sent and how
much of it was taken, what was forwarded to the master and what was committed
for the broker.
-/
structure MasterProxy where
  phase : ProxyPhase
  broadcasted : List Broadcast
  position : Nat
  masterSent : List Bytes
  taken : Nat
  masterClosed : Bool
  masterListens : Bool
  forwarded : List TcpMasterMessage
  newSender : Channel
  committed : List Message

namespace MasterProxy

/-- What happens to the thread, or what it does next. -/
inductive Event where
  | broadcast (msg : Broadcast)
  | masterSends (bytes : Bytes)
  | masterCloses
  | masterStopsListening
  | proxy (read : LocalRead) (granted : Bool)
  deriving Repr, DecidableEq

/-- The message that goes to the master for a broadcast one. -/
def toMaster (msg : Broadcast) : TcpMasterMessage where
  clientId := msg.sender
  flags := msg.flags
  payload := msg.payload

section

variable (maps : Maps)
variable (fromSlice : Bytes → Option TcpMasterMessage)
variable (brokerId : ClientId)
variable (sendLimit recvLimit : Nat)

/-- The thread as `b2m_thread_on` launches it. -/
def start (newSender : Channel) : MasterProxy where
  phase := .sending sendLimit
  broadcasted := []
  position := 0
  masterSent := []
  taken := 0
  masterClosed := false
  masterListens := true
  forwarded := []
  newSender := newSender
  committed := []

/-- A message that the local receiver has returned. -/
def handleBroadcast
    (proxy : MasterProxy)
    (left : Nat)
    (msg : Broadcast) : MasterProxy :=
  if msg.sender = brokerId then { proxy with phase := .sending left }
  else if msg.flags &&& llmpFlagB2M ≠ llmpFlagB2M then
    { proxy with phase := .sending left }
  else if proxy.masterListens then
    { proxy with
      phase := .sending left
      forwarded := proxy.forwarded ++ [toMaster msg] }
  else { proxy with phase := .receiving recvLimit }

/-- A message from the master. -/
def handleMaster
    (proxy : MasterProxy)
    (left : Nat)
    (bytes : Bytes)
    (granted : Bool) : MasterProxy :=
  match fromSlice bytes with
  | none => { proxy with phase := .panicked }
  | some msg =>
      let relayed : Message :=
        ⟨llmpTagUnset, msg.flags ||| llmpFlagB2M, msg.payload⟩
      let outcome :=
        proxy.newSender.sendBufWithFlags maps relayed.tag relayed.flags
          relayed.payload granted
      { proxy with
        newSender := outcome.channel
        committed :=
          proxy.committed ++ proxy.newSender.committed relayed outcome
        phase :=
          match outcome with
          | .ok _ => .receiving left
          | .error _ => .panicked
          | .panicked _ => .panicked }

/-- Where the thread goes on after a failed read. -/
def phaseAfter (recvLimit : Nat) : LocalFailure → ProxyPhase
  | .unexpectedEof => .returned
  | .file => .panicked
  | .other => .receiving recvLimit
  | .panicked => .panicked

/-- One round of an inner loop, or the end of one. -/
def thread
    (proxy : MasterProxy)
    (read : LocalRead)
    (granted : Bool) : Option MasterProxy :=
  match proxy.phase with
  | .sending 0 => some { proxy with phase := .receiving recvLimit }
  | .sending (left + 1) =>
      match read with
      | .nothing => some { proxy with phase := .receiving recvLimit }
      | .message =>
          match proxy.broadcasted[proxy.position]? with
          | none => none
          | some msg =>
              some
                (handleBroadcast brokerId recvLimit
                  { proxy with position := proxy.position + 1 } left msg)
      | .shuttingDown => some { proxy with phase := .returned }
      | .failed failure back =>
          some
            { proxy with
              position := min back proxy.position
              phase := phaseAfter recvLimit failure }
  | .receiving 0 => some { proxy with phase := .sending sendLimit }
  | .receiving (left + 1) =>
      match proxy.masterSent[proxy.taken]? with
      | none =>
          if proxy.masterClosed then some { proxy with phase := .returned }
          else some { proxy with phase := .sending sendLimit }
      | some bytes =>
          some
            (handleMaster maps fromSlice
              { proxy with taken := proxy.taken + 1 } left bytes granted)
  | .returned => none
  | .panicked => none

/-- The state after one event. -/
def step? (proxy : MasterProxy) : Event → Option MasterProxy
  | .broadcast msg =>
      some { proxy with broadcasted := proxy.broadcasted ++ [msg] }
  | .masterSends bytes =>
      if proxy.masterClosed then none
      else some { proxy with masterSent := proxy.masterSent ++ [bytes] }
  | .masterCloses => some { proxy with masterClosed := true }
  | .masterStopsListening => some { proxy with masterListens := false }
  | .proxy read granted =>
      proxy.thread maps fromSlice brokerId sendLimit recvLimit read granted

/-- Events in any order. -/
abbrev Step : StepRelation MasterProxy Event :=
  StepRelation.ofFunction
    (step? maps fromSlice brokerId sendLimit recvLimit)

/-- The broadcast message is meant for the master. -/
def ForMaster (msg : Broadcast) : Prop :=
  msg.sender ≠ brokerId ∧ msg.flags &&& llmpFlagB2M = llmpFlagB2M

instance : DecidablePred (ForMaster brokerId) :=
  fun _ => inferInstanceAs (Decidable (_ ∧ _))

/-- What of these messages the master should get. -/
def forMaster (msgs : List Broadcast) : List TcpMasterMessage :=
  (msgs.filter fun msg => ForMaster brokerId msg).map toMaster

/--
The master has got what it should of all that was read, and so has the broker
of all that was taken from the master; and the thread has not panicked.
-/
structure Relays (proxy : MasterProxy) : Prop where
  inRange : proxy.position ≤ proxy.broadcasted.length
  takenInRange : proxy.taken ≤ proxy.masterSent.length
  forwarded :
    proxy.forwarded =
      forMaster brokerId (proxy.broadcasted.take proxy.position)
  committed :
    (proxy.committed.map fun msg => (msg.flags, msg.payload)) =
      ((proxy.masterSent.take proxy.taken).filterMap fromSlice).map fun msg =>
        (msg.flags ||| llmpFlagB2M, msg.payload)
  alive : proxy.phase ≠ .panicked

/--
The thread finds nothing from the master; a broadcast message for the master
finds the master listening; and a failed read neither ends the thread with a
panic nor sets the receiver back before such a message.
-/
def Undisturbed (proxy : MasterProxy) : Event → Prop
  | .broadcast _ => True
  | .masterSends _ => True
  | .masterCloses => True
  | .masterStopsListening => True
  | .proxy read _ =>
      match proxy.phase with
      | .sending 0 => True
      | .sending (_ + 1) =>
          match read with
          | .nothing => True
          | .message =>
              ∀ msg,
                proxy.broadcasted[proxy.position]? = some msg →
                  ForMaster brokerId msg → proxy.masterListens = true
          | .shuttingDown => True
          | .failed failure back =>
              failure ≠ .file ∧ failure ≠ .panicked ∧
                ∀ msg ∈ (proxy.broadcasted.take proxy.position).drop back,
                  ¬ForMaster brokerId msg
      | .receiving 0 => True
      | .receiving (_ + 1) => proxy.masterSent[proxy.taken]? = none
      | .returned => True
      | .panicked => True

variable {fromSlice} {brokerId}

theorem forMaster_append
    (first second : List Broadcast) :
    forMaster brokerId (first ++ second) =
      forMaster brokerId first ++ forMaster brokerId second := by
  simp [forMaster]

theorem forMaster_eq_nil_iff (msgs : List Broadcast) :
    forMaster brokerId msgs = [] ↔ ∀ msg ∈ msgs, ¬ForMaster brokerId msg := by
  simp [forMaster]

theorem Relays.phase_iff
    {proxy : MasterProxy}
    (relays : Relays fromSlice brokerId proxy)
    (phase : ProxyPhase) :
    Relays fromSlice brokerId { proxy with phase := phase } ↔
      phase ≠ .panicked :=
  ⟨fun after => after.alive, fun alive =>
    ⟨relays.inRange, relays.takenInRange, relays.forwarded, relays.committed,
      alive⟩⟩

theorem handleMaster_phase
    (proxy : MasterProxy)
    (left : Nat)
    (bytes : Bytes)
    (granted : Bool) :
    (handleMaster maps fromSlice proxy left bytes granted).phase =
      .panicked := by
  have reserved : Reserved llmpTagUnset := by
    decide
  unfold handleMaster
  split
  · rfl
  · simp [Channel.sendBufWithFlags, reserved]

theorem handleBroadcast_relays_iff
    {proxy : MasterProxy}
    {msg : Broadcast}
    (relays : Relays fromSlice brokerId proxy)
    (isNext : proxy.broadcasted[proxy.position]? = some msg)
    (left : Nat) :
    Relays fromSlice brokerId
        (handleBroadcast brokerId recvLimit
          { proxy with position := proxy.position + 1 } left msg) ↔
      (ForMaster brokerId msg → proxy.masterListens = true) := by
  have inRange : proxy.position + 1 ≤ proxy.broadcasted.length :=
    (List.getElem?_eq_some_iff.mp isNext).1
  have oneMore :
      forMaster brokerId (proxy.broadcasted.take (proxy.position + 1)) =
        proxy.forwarded ++ forMaster brokerId [msg] := by
    rw [List.take_add_one, isNext, Option.toList_some, forMaster_append,
      relays.forwarded]
  unfold handleBroadcast
  by_cases own : msg.sender = brokerId
  · have notForMaster : ¬ForMaster brokerId msg := fun both => both.1 own
    rw [if_pos own]
    refine iff_of_true ⟨inRange, relays.takenInRange, ?_, relays.committed, ?_⟩
      fun both => absurd both notForMaster
    · rw [oneMore]
      simp [forMaster, notForMaster]
    · simp
  · rw [if_neg own]
    by_cases marked : msg.flags &&& llmpFlagB2M = llmpFlagB2M
    · have isForMaster : ForMaster brokerId msg := ⟨own, marked⟩
      have toForward :
          forMaster brokerId [msg] = [toMaster msg] := by
        simp [forMaster, isForMaster]
      rw [if_neg (not_not.mpr marked)]
      cases listens : proxy.masterListens with
      | true =>
          refine iff_of_true
            ⟨inRange, relays.takenInRange, ?_, relays.committed, ?_⟩
            fun _ => rfl
          · simp [oneMore, toForward]
          · simp
      | false =>
          refine iff_of_false ?_ fun all => Bool.noConfusion (all isForMaster)
          intro after
          have forwarded := after.forwarded
          simp [oneMore, toForward] at forwarded
    · have notForMaster : ¬ForMaster brokerId msg := fun both => marked both.2
      rw [if_pos marked]
      refine iff_of_true
        ⟨inRange, relays.takenInRange, ?_, relays.committed, ?_⟩
        fun both => absurd both notForMaster
      · rw [oneMore]
        simp [forMaster, notForMaster]
      · simp

theorem setBack_relays_iff
    {proxy : MasterProxy}
    (relays : Relays fromSlice brokerId proxy)
    (back : Nat)
    (phase : ProxyPhase) :
    Relays fromSlice brokerId
        { proxy with position := min back proxy.position, phase := phase } ↔
      phase ≠ .panicked ∧
        ∀ msg ∈ (proxy.broadcasted.take proxy.position).drop back,
          ¬ForMaster brokerId msg := by
  have split :
      proxy.forwarded =
        forMaster brokerId (proxy.broadcasted.take (min back proxy.position)) ++
          forMaster brokerId
            ((proxy.broadcasted.take proxy.position).drop back) := by
    rw [← List.take_take, ← forMaster_append, List.take_append_drop]
    exact relays.forwarded
  rw [← forMaster_eq_nil_iff]
  constructor
  · intro after
    refine ⟨after.alive, ?_⟩
    have forwarded := split.symm.trans after.forwarded
    exact List.append_cancel_left (forwarded.trans (List.append_nil _).symm)
  · rintro ⟨alive, nothing⟩
    rw [nothing, List.append_nil] at split
    exact ⟨(Nat.min_le_right _ _).trans relays.inRange, relays.takenInRange,
      split, relays.committed, alive⟩

/-- What an event does to a relaying proxy is decided before it. -/
theorem relays_step_iff
    {proxy next : MasterProxy}
    {event : Event}
    (relays : Relays fromSlice brokerId proxy)
    (taken : Step maps fromSlice brokerId sendLimit recvLimit proxy event next) :
    Relays fromSlice brokerId next ↔ Undisturbed brokerId proxy event := by
  cases event with
  | broadcast msg =>
      obtain rfl := Option.some.inj taken
      refine iff_of_true ⟨?_, relays.takenInRange, ?_, relays.committed,
        relays.alive⟩ trivial
      · exact relays.inRange.trans (by simp)
      · rw [List.take_append_of_le_length relays.inRange]
        exact relays.forwarded
  | masterSends bytes =>
      simp only [StepRelation.ofFunction, step?] at taken
      split at taken
      · cases taken
      · obtain rfl := Option.some.inj taken
        refine iff_of_true ⟨relays.inRange, ?_, relays.forwarded, ?_,
          relays.alive⟩ trivial
        · exact relays.takenInRange.trans (by simp)
        · rw [List.take_append_of_le_length relays.takenInRange]
          exact relays.committed
  | masterCloses =>
      obtain rfl := Option.some.inj taken
      exact iff_of_true ⟨relays.inRange, relays.takenInRange, relays.forwarded,
        relays.committed, relays.alive⟩ trivial
  | masterStopsListening =>
      obtain rfl := Option.some.inj taken
      exact iff_of_true ⟨relays.inRange, relays.takenInRange, relays.forwarded,
        relays.committed, relays.alive⟩ trivial
  | proxy read granted =>
      simp only [StepRelation.ofFunction, step?, thread] at taken
      simp only [Undisturbed]
      split at taken
      · obtain rfl := Option.some.inj taken
        rw [relays.phase_iff]
        simp
      · rename_i left _
        split at taken
        · obtain rfl := Option.some.inj taken
          rw [relays.phase_iff]
          simp
        · split at taken
          · cases taken
          · rename_i msg isNext
            obtain rfl := Option.some.inj taken
            rw [handleBroadcast_relays_iff recvLimit relays isNext left]
            simp [isNext]
        · obtain rfl := Option.some.inj taken
          rw [relays.phase_iff]
          simp
        · rename_i failure back
          obtain rfl := Option.some.inj taken
          rw [setBack_relays_iff relays]
          cases failure <;> simp [phaseAfter]
      · obtain rfl := Option.some.inj taken
        rw [relays.phase_iff]
        simp
      · rename_i left _
        split at taken
        · rename_i nothing
          split at taken
          · obtain rfl := Option.some.inj taken
            rw [relays.phase_iff]
            simp [nothing]
          · obtain rfl := Option.some.inj taken
            rw [relays.phase_iff]
            simp [nothing]
        · rename_i bytes isNext
          obtain rfl := Option.some.inj taken
          refine iff_of_false ?_ (by simp [isNext])
          intro after
          exact after.alive (handleMaster_phase maps _ left bytes granted)
      · cases taken
      · cases taken

/-- The thread has not ended. -/
def Working (proxy : MasterProxy) : Prop :=
  ∃ left, proxy.phase = .sending left ∨ proxy.phase = .receiving left

/-- The master is there, and has nothing to say. -/
structure MasterQuiet (proxy : MasterProxy) : Prop where
  listens : proxy.masterListens = true
  isOpen : proxy.masterClosed = false
  nothing : proxy.masterSent[proxy.taken]? = none

theorem start_relays
    (sendLimit : Nat)
    (newSender : Channel) :
    Relays fromSlice brokerId (start sendLimit newSender) where
  inRange := Nat.le_refl _
  takenInRange := Nat.le_refl _
  forwarded := rfl
  committed := rfl
  alive := by simp [start]

theorem reaches_sending
    {proxy : MasterProxy}
    (working : proxy.Working)
    (quiet : proxy.MasterQuiet)
    (positive : 0 < sendLimit) :
    ∃ (reads : List LocalRead) (left : Nat),
      Run
          ((Step maps fromSlice brokerId sendLimit recvLimit).guarded
            (Undisturbed brokerId))
          proxy (reads.map fun read => .proxy read true)
          { proxy with phase := .sending (left + 1) } := by
  obtain ⟨limit, rfl⟩ : ∃ limit, sendLimit = limit + 1 :=
    Nat.exists_eq_add_one.mpr positive
  have fromReceiving :
      ∀ left,
        Run
          ((Step maps fromSlice brokerId (limit + 1) recvLimit).guarded
            (Undisturbed brokerId))
          { proxy with phase := .receiving left } [.proxy .nothing true]
          { proxy with phase := .sending (limit + 1) } := by
    intro left
    apply Run.single
    cases left with
    | zero =>
        exact ⟨trivial, rfl⟩
    | succ left =>
        refine ⟨quiet.nothing, ?_⟩
        simp [StepRelation.ofFunction, step?, thread, quiet.nothing,
          quiet.isOpen]
  obtain ⟨left, phase | phase⟩ := working
  · cases left with
    | zero =>
        refine ⟨[.nothing, .nothing], limit, .cons ⟨?_, ?_⟩
          (fromReceiving recvLimit)⟩
        · simp [Undisturbed, phase]
        · simp [StepRelation.ofFunction, step?, thread, phase]
    | succ left =>
        refine ⟨[], left, ?_⟩
        rw [← phase]
        exact .nil proxy
  · refine ⟨[.nothing], limit, ?_⟩
    have same : { proxy with phase := .receiving left } = proxy := by
      rw [← phase]
    exact same ▸ fromReceiving left

theorem handleBroadcast_listening
    {proxy : MasterProxy}
    (listens : proxy.masterListens = true)
    (left : Nat)
    (msg : Broadcast) :
    ∃ forwarded,
      handleBroadcast brokerId recvLimit proxy left msg =
        { proxy with phase := .sending left, forwarded := forwarded } := by
  unfold handleBroadcast
  split
  · exact ⟨proxy.forwarded, rfl⟩
  · split
    · exact ⟨proxy.forwarded, rfl⟩
    · exact ⟨_, rfl⟩

theorem catches_up
    {proxy : MasterProxy}
    (working : proxy.Working)
    (quiet : proxy.MasterQuiet)
    (positive : 0 < sendLimit)
    (inRange : proxy.position ≤ proxy.broadcasted.length) :
    ∃ (reads : List LocalRead) (final : MasterProxy),
      Run
          ((Step maps fromSlice brokerId sendLimit recvLimit).guarded
            (Undisturbed brokerId))
          proxy (reads.map fun read => .proxy read true) final ∧
        final.broadcasted = proxy.broadcasted ∧
        final.position = proxy.broadcasted.length := by
  obtain ⟨unread, unreadCount⟩ := Nat.exists_eq_add_of_le inRange
  induction unread generalizing proxy with
  | zero =>
      exact ⟨[], proxy, .nil proxy, rfl, unreadCount.symm⟩
  | succ unread ih =>
      obtain ⟨first, left, firstRun⟩ :=
        reaches_sending maps sendLimit recvLimit working quiet positive
      obtain ⟨msg, isNext⟩ :
          ∃ msg, proxy.broadcasted[proxy.position]? = some msg :=
        ⟨_, List.getElem?_eq_getElem (by omega)⟩
      let read : MasterProxy :=
        { proxy with
          phase := .sending (left + 1), position := proxy.position + 1 }
      obtain ⟨forwarded, handled⟩ :=
        @handleBroadcast_listening brokerId recvLimit read quiet.listens left
          msg
      let next : MasterProxy :=
        { read with phase := .sending left, forwarded := forwarded }
      have taken :
          Step maps fromSlice brokerId sendLimit recvLimit
            { proxy with phase := .sending (left + 1) }
            (.proxy .message true) next := by
        simp only [StepRelation.ofFunction, step?, thread, isNext]
        exact congrArg some handled
      obtain ⟨later, final, laterRun, broadcasted, position⟩ :=
        @ih next ⟨left, .inl rfl⟩
          ⟨quiet.listens, quiet.isOpen, quiet.nothing⟩
          (by
            change proxy.position + 1 ≤ proxy.broadcasted.length
            omega)
          (by
            change proxy.broadcasted.length = proxy.position + 1 + unread
            omega)
      refine ⟨first ++ .message :: later, final, ?_, broadcasted, position⟩
      rw [List.map_append]
      refine firstRun.append (.cons ⟨?_, taken⟩ laterRun)
      exact fun _ _ _ => quiet.listens

/--
Along any sequence of events, the proxy relays as it should if and only if
nothing ever comes from the master, every broadcast message for the master
finds it listening, and no failed read goes wrong.  And what was broadcast up to
some point of such a run reaches the master, once each and in order, if the
thread has not ended and is left to itself.
-/
theorem relays_iff_undisturbed
    (newSender : Channel) :
    (∀ events,
        Run.Always (Step maps fromSlice brokerId sendLimit recvLimit)
            (Relays fromSlice brokerId) (start sendLimit newSender) events ↔
          Run.Everywhere (Step maps fromSlice brokerId sendLimit recvLimit)
            (Undisturbed brokerId) (start sendLimit newSender) events) ∧
      ∀ events proxy,
        Run
            ((Step maps fromSlice brokerId sendLimit recvLimit).guarded
              (Undisturbed brokerId))
            (start sendLimit newSender) events proxy →
          0 < sendLimit → proxy.Working → proxy.MasterQuiet →
            ∃ (reads : List LocalRead) (final : MasterProxy),
              Run
                  ((Step maps fromSlice brokerId sendLimit recvLimit).guarded
                    (Undisturbed brokerId))
                  proxy (reads.map fun read => .proxy read true) final ∧
                final.forwarded = forMaster brokerId proxy.broadcasted := by
  constructor
  · exact Run.always_iff_everywhere
      (fun relays taken => relays_step_iff maps sendLimit recvLimit relays taken)
      (start_relays sendLimit newSender)
  · intro events proxy run positive working quiet
    have preserved :
        ∀ {state label next},
          Relays fromSlice brokerId state →
            (Step maps fromSlice brokerId sendLimit recvLimit).guarded
                (Undisturbed brokerId) state label next →
              Relays fromSlice brokerId next :=
      fun relays taken =>
        (relays_step_iff maps sendLimit recvLimit relays taken.2).mpr taken.1
    have relays : Relays fromSlice brokerId proxy :=
      @Run.invariant _ _ _ (Relays fromSlice brokerId) preserved _ _ _ run
        (start_relays sendLimit newSender)
    obtain ⟨reads, final, rest, broadcasted, position⟩ :=
      catches_up maps sendLimit recvLimit working quiet positive
        relays.inRange
    have caughtUp : Relays fromSlice brokerId final :=
      @Run.invariant _ _ _ (Relays fromSlice brokerId) preserved _ _ _ rest
        relays
    refine ⟨reads, final, rest, ?_⟩
    rw [caughtUp.forwarded, broadcasted, position, List.take_length]

end

/-- `rmp_serde::from_slice` for a message of the master. -/
def fromMessagePack (bytes : Bytes) : Option TcpMasterMessage :=
  (MessagePack.unpack bytes).bind TcpMasterMessage.ofValue

/-- A message of client 1 that is marked for the master. -/
def markedMessage : Broadcast :=
  ⟨1, 0x1, llmpFlagB2M, [7]⟩

/-- A message of client 2 that is marked too. -/
def alsoMarked : Broadcast :=
  ⟨2, 0x1, llmpFlagB2M, [9]⟩

/-- Between the two a message that is not marked. -/
def threeMessages : List Broadcast :=
  [markedMessage, ⟨2, 0x1, 0, [8]⟩, alsoMarked]

theorem relays_iff_undisturbed_two_marked :
    ∃ channel,
      Channel.new .small 0 false = some channel ∧
        (Run.Always (Step .small fromMessagePack 0 1 1)
            (Relays fromMessagePack 0) (start 1 channel)
            (threeMessages.map .broadcast) ↔
          Run.Everywhere (Step .small fromMessagePack 0 1 1)
            (Undisturbed 0) (start 1 channel) (threeMessages.map .broadcast)) ∧
        ∃ (proxy : MasterProxy) (reads : List LocalRead)
            (final : MasterProxy),
          Run ((Step .small fromMessagePack 0 1 1).guarded (Undisturbed 0))
              (start 1 channel) (threeMessages.map .broadcast) proxy ∧
            Run ((Step .small fromMessagePack 0 1 1).guarded (Undisturbed 0))
              proxy (reads.map fun read => .proxy read true) final ∧
            final.forwarded = [toMaster markedMessage, toMaster alsoMarked] := by
  have isSome : (Channel.new .small 0 false).isSome = true := by
    decide +kernel
  obtain ⟨channel, new⟩ := Option.isSome_iff_exists.mp isSome
  let proxy : MasterProxy :=
    { start 1 channel with broadcasted := threeMessages }
  have run :
      Run ((Step .small fromMessagePack 0 1 1).guarded (Undisturbed 0))
        (start 1 channel) (threeMessages.map .broadcast) proxy :=
    .cons ⟨trivial, rfl⟩ (.cons ⟨trivial, rfl⟩ (.single ⟨trivial, rfl⟩))
  obtain ⟨exact_, catches⟩ :=
    @relays_iff_undisturbed .small fromMessagePack 0 1 1 channel
  obtain ⟨reads, final, rest, forwarded⟩ :=
    catches _ proxy run Nat.one_pos ⟨1, .inl rfl⟩ ⟨rfl, rfl, rfl⟩
  refine ⟨channel, new, exact_ _, proxy, reads, final, run, rest, ?_⟩
  rw [forwarded]
  change forMaster 0 threeMessages = _
  decide

/-- The first message of the master ends the thread, and nothing is relayed. -/
theorem master_message_panics_proxy :
    ∃ channel final,
      Channel.new .small 0 false = some channel ∧
        Run (Step .small fromMessagePack 0 1 1) (start 1 channel)
          [.masterSends (MessagePack.pack (toMaster markedMessage).toValue),
            .proxy .nothing true, .proxy .nothing true] final ∧
        final.phase = .panicked ∧ final.committed = [] ∧
        ¬Relays fromMessagePack 0 final := by
  have computed :
      ((Channel.new .small 0 false).bind fun channel =>
        ([.masterSends (MessagePack.pack (toMaster markedMessage).toValue),
            .proxy .nothing true, .proxy .nothing true].foldlM
          (step? .small fromMessagePack 0 1 1) (start 1 channel)).map
            fun final => (final.phase, final.committed)) =
        some (.panicked, []) := by
    decide +kernel
  obtain ⟨channel, new, reached⟩ := Option.bind_eq_some_iff.mp computed
  obtain ⟨final, reached, facts⟩ := Option.map_eq_some_iff.mp reached
  obtain ⟨phase, committed⟩ := Prod.mk.inj facts
  exact ⟨channel, final, new, Run.of_foldlM reached, phase, committed,
    fun relays => relays.alive phase⟩

end MasterProxy

end MeFuzz.Llmp
