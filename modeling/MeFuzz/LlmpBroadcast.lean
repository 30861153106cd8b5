import MeFuzz.LlmpSending
import MeFuzz.TransitionRun

namespace MeFuzz.Llmp

/-!
# The channel from the broker to its clients

The broker keeps all the pages that it has filled, so that a client may join at
any time and read from the first page on.  Every receiver reads at its own
pace; each has its own queue of the messages that it has still to read.
-/

/-- A receiver has still to read these messages of the chain. -/
def Awaits
    (channel : Channel)
    (opened : List LlmpMsg)
    (receiver : LlmpReceiver)
    (unread : List LlmpMsg) : Prop :=
  ∃ read onward,
    Ahead channel.pages channel.sender.current opened
        receiver.currentRecvShmem read unread onward ∧
      HasRead receiver (channel.pages receiver.currentRecvShmem) read ∧
      ∀ id ∈ receiver.currentRecvShmem :: onward, id < channel.fresh

namespace Awaits

variable {before after : Channel}
variable {opened unread : List LlmpMsg}
variable {receiver : LlmpReceiver}

theorem frame
    (awaits : Awaits before opened receiver unread)
    (same : ∀ id, SameContents (after.pages id) (before.pages id))
    (sender : after.sender = before.sender)
    (fresh : after.fresh = before.fresh) :
    Awaits after opened receiver unread := by
  obtain ⟨read, onward, ahead, hasRead, mapped⟩ := awaits
  refine ⟨read, onward, ?_, hasRead.grow (same _).currentMsgId.ge, ?_⟩
  · rw [sender]
    exact ahead.frame fun id _ _ => same id
  · rw [fresh]
    exact mapped

theorem place
    {msg : LlmpMsg}
    (awaits : Awaits before opened receiver unread)
    (ready : Ready before opened)
    (placed : Placed before opened msg after) :
    Awaits after (opened ++ [msg]) receiver (unread ++ [msg]) := by
  obtain ⟨read, onward, ahead, hasRead, mapped⟩ := awaits
  refine ⟨read, onward, ?_, placed.hasRead ready.holds hasRead, ?_⟩
  · rw [placed.current]
    exact ahead.put msg fun page _ notCurrent =>
      placed.sameContents notCurrent
  · rw [placed.fresh]
    exact mapped

theorem link
    {cache : List ShMemId}
    {size : Nat}
    (awaits : Awaits before opened receiver unread)
    (ready : Ready before opened)
    (linked :
      Linked before opened before.fresh cache (before.fresh + 1) size
        after) :
    Awaits after [] receiver unread := by
  obtain ⟨read, onward, ahead, hasRead, mapped⟩ := awaits
  have isNew : before.fresh ∉ receiver.currentRecvShmem :: onward :=
    fun member => (mapped _ member).ne rfl
  have current : after.sender.current = before.fresh := by
    rw [linked.sender]
  have elsewhere :
      ∀ id ∈ receiver.currentRecvShmem :: onward,
        id ≠ before.sender.current → after.pages id = before.pages id :=
    fun id member notCurrent =>
      linked.elsewhere id notCurrent (mapped id member).ne
  obtain ⟨eop, isEop, closed⟩ := linked.closed
  refine ⟨read, onward ++ [before.fresh], ?_, hasRead.grow ?_, ?_⟩
  · rw [current]
    exact ahead.extend isNew closed isEop fun page member notCurrent =>
      elsewhere page member notCurrent ▸ SameContents.refl _
  · exact linked.currentMsgId_le ready.holds fun notCurrent =>
      elsewhere _ (by simp) notCurrent
  · rw [linked.fresh]
    intro id member
    rcases List.mem_append.mp (List.cons_append ▸ member) with old | isLast
    · exact (mapped id old).trans (Nat.lt_succ_self _)
    · rw [List.mem_singleton.mp isLast]
      exact Nat.lt_succ_self _

end Awaits

/-- The broker's sender, and the receivers of the clients that have joined. -/
structure BroadcastChannel where
  channel : Channel
  receivers : List LlmpReceiver

namespace BroadcastChannel

/-- The page that a client that joins starts with. -/
def firstPage (state : BroadcastChannel) : ShMemId :=
  match state.channel.sender.earlier with
  | [] => state.channel.sender.current
  | first :: _ => first

/-- A broker that has no clients yet. -/
def start (channel : Channel) : BroadcastChannel where
  channel := channel
  receivers := []

/-- A call of the sender, a pass of `recv` of one receiver, or a client joins. -/
inductive Event where
  | send (message : Message) (granted : Bool) (committed : List Message)
  | recv (reader : Nat) (mapped : Bool) (received : Received)
  | join (id : ClientId)

/-- One call, from any state. -/
inductive Step (maps : Maps) : StepRelation BroadcastChannel Event where
  | send
      (state : BroadcastChannel)
      (message : Message)
      (granted : Bool) :
      Step maps state
        (.send message granted
          (state.channel.committed message
            (state.channel.sendBufWithFlags maps message.tag message.flags
              message.payload granted)))
        { state with
          channel :=
            (state.channel.sendBufWithFlags maps message.tag message.flags
              message.payload granted).channel }
  | recv
      (state : BroadcastChannel)
      (reader : Nat)
      (receiver : LlmpReceiver)
      (mapped : Bool) :
      state.receivers[reader]? = some receiver →
      Step maps state
        (.recv reader mapped
          (receiver.recv state.channel.pages mapped).received)
        { channel :=
            { state.channel with
              pages := (receiver.recv state.channel.pages mapped).pages }
          receivers :=
            state.receivers.set reader
              (receiver.recv state.channel.pages mapped).receiver }
  | join
      (state : BroadcastChannel)
      (id : ClientId) :
      Step maps state (.join id)
        { state with
          receivers := state.receivers ++ [.atStart id state.firstPage] }

/-- What an event puts into the queue of a reader and takes out of it. -/
def observe (reader : Nat) : Event → List (Fifo.Action Message)
  | .send _ _ committed => committed.map .enqueue
  | .recv who _ (.message msg) =>
      if who = reader then [.dequeue msg.content] else []
  | .recv _ _ _ => []
  | .join _ => []

/-- The messages that a call has sent. -/
def Event.sent : Event → List Message
  | .send _ _ committed => committed
  | .recv _ _ _ => []
  | .join _ => []

/-- The messages that a call has returned to a reader. -/
def Event.returned (reader : Nat) : Event → List Message
  | .recv who _ (.message msg) =>
      if who = reader then [msg.content] else []
  | .recv _ _ _ => []
  | .send _ _ _ => []
  | .join _ => []

/-- The receiver that is called can map the page that it goes on to. -/
def CanMap (_ : BroadcastChannel) : Event → Prop
  | .recv _ mapped _ => mapped = true
  | _ => True

/--
What holds between two calls: `all` are the messages since the first page, and
`unread` are those that await each receiver; one that has yet to join awaits
all of them.
-/
structure Broadcasting
    (state : BroadcastChannel)
    (opened all : List LlmpMsg)
    (unread : Nat → List LlmpMsg) : Prop where
  ready : Ready state.channel opened
  keeps : state.channel.sender.keepPagesForever = true
  uncached : state.channel.sender.unusedShmemCache = []
  apart :
    state.channel.sender.current ∉ state.channel.sender.earlier
  mapped : state.channel.sender.current < state.channel.fresh
  old :
    ∀ id ∈ state.channel.sender.earlier, id < state.channel.fresh
  joined :
    ∀ reader receiver,
      state.receivers[reader]? = some receiver →
        Awaits state.channel opened receiver (unread reader)
  newcomer :
    ∀ id,
      Awaits state.channel opened (.atStart id state.firstPage) all
  waiting :
    ∀ reader, state.receivers.length ≤ reader → unread reader = all
  data : ∀ reader, ∀ msg ∈ unread reader, IsData msg

variable {state : BroadcastChannel}
variable {opened all : List LlmpMsg}
variable {unread : Nat → List LlmpMsg}

theorem Broadcasting.place
    {msg : LlmpMsg}
    {after : Channel}
    (broadcasting : Broadcasting state opened all unread)
    (placed : Placed state.channel opened msg after)
    (isData : IsData msg) :
    Broadcasting { state with channel := after } (opened ++ [msg])
      (all ++ [msg]) fun reader => unread reader ++ [msg] := by
  have current := placed.current
  have earlier : after.sender.earlier = state.channel.sender.earlier := by
    rw [placed.sender]
  have firstPage :
      BroadcastChannel.firstPage { state with channel := after } =
        state.firstPage := by
    simp only [BroadcastChannel.firstPage, earlier, current]
  exact
    { ready := placed.ready
      keeps := by
        rw [placed.sender]
        exact broadcasting.keeps
      uncached := by
        rw [placed.sender]
        exact broadcasting.uncached
      apart := by
        rw [current, earlier]
        exact broadcasting.apart
      mapped := by
        rw [current, placed.fresh]
        exact broadcasting.mapped
      old := by
        rw [earlier, placed.fresh]
        exact broadcasting.old
      joined := fun reader receiver isReader =>
        (broadcasting.joined reader receiver isReader).place
          broadcasting.ready placed
      newcomer := fun id => by
        rw [firstPage]
        exact (broadcasting.newcomer id).place broadcasting.ready placed
      waiting := fun reader beyond => by
        rw [broadcasting.waiting reader beyond]
      data := fun reader => by
        simpa [or_imp, forall_and] using
          ⟨broadcasting.data reader, isData⟩ }

theorem Broadcasting.link
    {state : BroadcastChannel}
    {opened all : List LlmpMsg}
    {unread : Nat → List LlmpMsg}
    {minSize : Nat}
    {new : ShMemId}
    {cache : List ShMemId}
    {fresh size : Nat}
    {after : Channel}
    (broadcasting : Broadcasting state opened all unread)
    (acquired : Acquired state.channel.pruned minSize new cache fresh size)
    (linked :
      Linked state.channel.pruned opened new cache fresh size after) :
    Broadcasting { state with channel := after } [] all unread := by
  have notPruned : state.channel.pruned = state.channel := by
    simp [Channel.pruned, broadcasting.keeps]
  rw [notPruned] at acquired linked
  cases acquired with
  | reused split _ _ =>
      simp [broadcasting.uncached] at split
  | created _ =>
      have sender := linked.sender
      have firstPage :
          BroadcastChannel.firstPage { state with channel := after } =
            state.firstPage := by
        simp only [BroadcastChannel.firstPage, sender]
        cases state.channel.sender.earlier <;> rfl
      have older :
          ∀ id ∈ state.channel.sender.earlier ++
            [state.channel.sender.current], id < state.channel.fresh := by
        simpa [or_imp, forall_and] using
          ⟨broadcasting.old, broadcasting.mapped⟩
      exact
        { ready := linked.ready
          keeps := by
            rw [sender]
            exact broadcasting.keeps
          uncached := by rw [sender]
          apart := by
            rw [sender]
            exact fun member => (older _ member).ne rfl
          mapped := by
            rw [sender, linked.fresh]
            exact Nat.lt_succ_self _
          old := by
            rw [sender, linked.fresh]
            exact fun id member =>
              (older id member).trans (Nat.lt_succ_self _)
          joined := fun reader receiver isReader =>
            (broadcasting.joined reader receiver isReader).link
              broadcasting.ready linked
          newcomer := fun id => by
            rw [firstPage]
            exact (broadcasting.newcomer id).link broadcasting.ready linked
          waiting := broadcasting.waiting
          data := broadcasting.data }

theorem Broadcasting.starve
    (broadcasting : Broadcasting state opened all unread) :
    Broadcasting
      { state with
        channel :=
          { state.channel.pruned with
            sender :=
              { state.channel.pruned.sender with unusedShmemCache := [] } } }
      opened all unread := by
  have notPruned : state.channel.pruned = state.channel := by
    simp [Channel.pruned, broadcasting.keeps]
  have uncached :
      { state.channel.sender with unusedShmemCache := [] } =
        state.channel.sender := by
    rw [← broadcasting.uncached]
  rw [notPruned, uncached]
  exact broadcasting

theorem Broadcasting.read
    {reader : Nat}
    {pages : ShMemId → LlmpPage}
    {receiver : LlmpReceiver}
    {left : List LlmpMsg}
    (broadcasting : Broadcasting state opened all unread)
    (isReader : reader < state.receivers.length)
    (same : ∀ id, SameContents (pages id) (state.channel.pages id))
    (ready : Ready { state.channel with pages := pages } opened)
    (awaits :
      Awaits { state.channel with pages := pages } opened receiver left)
    (fewer : ∀ msg ∈ left, msg ∈ unread reader) :
    Broadcasting
      { channel := { state.channel with pages := pages }
        receivers := state.receivers.set reader receiver }
      opened all (Function.update unread reader left) where
  ready := ready
  keeps := broadcasting.keeps
  uncached := broadcasting.uncached
  apart := broadcasting.apart
  mapped := broadcasting.mapped
  old := broadcasting.old
  joined := by
    intro other otherReceiver isOther
    by_cases isSame : other = reader
    · subst isSame
      rw [List.getElem?_set_self isReader] at isOther
      obtain rfl := Option.some.inj isOther
      rw [Function.update_self]
      exact awaits
    · rw [List.getElem?_set_ne (Ne.symm isSame)] at isOther
      rw [Function.update_of_ne isSame]
      exact (broadcasting.joined other otherReceiver isOther).frame same rfl
        rfl
  newcomer := fun id => (broadcasting.newcomer id).frame same rfl rfl
  waiting := by
    intro other beyond
    rw [List.length_set] at beyond
    rw [Function.update_of_ne (isReader.trans_le beyond).ne']
    exact broadcasting.waiting other beyond
  data := by
    intro other
    by_cases isSame : other = reader
    · subst isSame
      rw [Function.update_self]
      exact fun msg member => broadcasting.data other msg (fewer msg member)
    · rw [Function.update_of_ne isSame]
      exact broadcasting.data other

/-- A pass of `recv` takes the oldest message of the receiver's own, or none. -/
theorem Broadcasting.recv
    {state : BroadcastChannel}
    {opened all : List LlmpMsg}
    {unread : Nat → List LlmpMsg}
    {reader : Nat}
    {receiver : LlmpReceiver}
    (broadcasting : Broadcasting state opened all unread)
    (isReader : state.receivers[reader]? = some receiver) :
    ∃ left,
      Broadcasting
          { channel :=
              { state.channel with
                pages := (receiver.recv state.channel.pages true).pages }
            receivers :=
              state.receivers.set reader
                (receiver.recv state.channel.pages true).receiver }
          opened all (Function.update unread reader left) ∧
        ((unread reader = left ∧
            ∀ msg,
              (receiver.recv state.channel.pages true).received ≠
                .message msg) ∨
          ∃ msg,
            (receiver.recv state.channel.pages true).received =
                .message msg ∧
              unread reader = msg :: left) := by
  obtain ⟨read, onward, ahead, hasRead, mapped⟩ :=
    broadcasting.joined reader receiver isReader
  have inRange : reader < state.receivers.length :=
    (List.getElem?_eq_some_iff.mp isReader).1
  have pass :=
    recv_pass broadcasting.ready.holds hasRead ahead
      (broadcasting.data reader)
  generalize isMine : unread reader = mine at ahead pass
  generalize receiver.recv state.channel.pages true = reading at pass
  cases pass with
  | @stays _ _ received quiet =>
      refine ⟨mine, broadcasting.read inRange (fun _ => .refl _)
        broadcasting.ready
        ⟨read, onward, ahead, hasRead_refreshed hasRead, mapped⟩
        (fun msg member => isMine ▸ member), .inl ⟨rfl, ?_⟩⟩
      rcases quiet with rfl | rfl | rfl <;> simp
  | @takes msg left _ further =>
      refine ⟨left, broadcasting.read inRange (fun _ => .refl _)
        broadcasting.ready
        ⟨read ++ [msg], onward, further, ⟨?_, ?_⟩, mapped⟩
        (fun _ member => isMine ▸ List.mem_cons_of_mem _ member),
        .inr ⟨msg, rfl, rfl⟩⟩
      · rw [lastOffset_snoc]
      · exact hasRead.latestMsgId_le
  | @follows next _ onward _ further =>
      refine ⟨mine, broadcasting.read inRange
        (fun _ => sameContents_markBoth) ?_
        ⟨[], onward, ?_, hasRead_atStart _ _ _, ?_⟩
        (fun msg member => isMine ▸ member), .inl ⟨rfl, by simp⟩⟩
      · refine broadcasting.ready.marked ?_ rfl
        simp only [Channel.outPage, markBoth]
        split
        · exact .inr rfl
        · exact .inl rfl
      · exact further.frame fun _ _ _ => sameContents_markBoth
      · exact fun id member => mapped id (List.mem_cons_of_mem _ member)

/-- What is on its way to a reader. -/
def OnTheirWay
    (reader : Nat)
    (state : BroadcastChannel)
    (queue : List Message) : Prop :=
  ∃ opened all unread,
    Broadcasting state opened all unread ∧
      queue = (unread reader).map LlmpMsg.content

theorem Broadcasting.send
    (maps : Maps)
    {state : BroadcastChannel}
    {opened all : List LlmpMsg}
    {unread : Nat → List LlmpMsg}
    (broadcasting : Broadcasting state opened all unread)
    (message : Message)
    (granted : Bool) :
    ∃ openedNow allNow added,
      Broadcasting
          { state with
            channel :=
              (state.channel.sendBufWithFlags maps message.tag message.flags
                message.payload granted).channel }
          openedNow allNow (fun reader => unread reader ++ added) ∧
        added.map LlmpMsg.content =
          state.channel.committed message
            (state.channel.sendBufWithFlags maps message.tag message.flags
              message.payload granted) := by
  have notCached :
      state.channel.sender.current ∉
        state.channel.sender.unusedShmemCache := by
    rw [broadcasting.uncached]
    exact List.not_mem_nil
  have same : (fun reader => unread reader ++ []) = unread := by
    funext reader
    exact List.append_nil _
  have sent :=
    sendBufWithFlags_sent maps broadcasting.ready message granted
      broadcasting.apart notCached broadcasting.mapped
  generalize state.channel.sendBufWithFlags maps message.tag message.flags
    message.payload granted = outcome at sent
  cases sent with
  | refused _ =>
      exact ⟨opened, all, [], same.symm ▸ broadcasting, rfl⟩
  | stuck =>
      exact ⟨opened, all, [], same.symm ▸ broadcasting, (if_pos rfl).symm⟩
  | @here msg _ content isData placed =>
      exact ⟨_, _, [msg], broadcasting.place placed isData, by
        rw [List.map_singleton, content]
        rfl⟩
  | @slowReceiver msg _ content isData placed =>
      exact ⟨_, _, [msg], broadcasting.place placed isData, by
        rw [List.map_singleton, content,
          committed_placed message placed
            broadcasting.ready]⟩
  | starved _ =>
      exact ⟨opened, all, [], same.symm ▸ broadcasting.starve, rfl⟩
  | tooLong _ _ acquired linked =>
      exact ⟨[], all, [], same.symm ▸ broadcasting.link acquired linked, rfl⟩
  | @onNext _ _ _ _ _ _ msg _ acquired linked content isData placed =>
      exact ⟨_, _, [msg],
        (broadcasting.link acquired linked).place placed isData, by
          rw [List.map_singleton, content]
          rfl⟩

theorem Broadcasting.join
    (broadcasting : Broadcasting state opened all unread)
    (id : ClientId) :
    Broadcasting
      { state with
        receivers := state.receivers ++ [.atStart id state.firstPage] }
      opened all unread where
  ready := broadcasting.ready
  keeps := broadcasting.keeps
  uncached := broadcasting.uncached
  apart := broadcasting.apart
  mapped := broadcasting.mapped
  old := broadcasting.old
  joined := by
    intro reader receiver isReader
    by_cases before : reader < state.receivers.length
    · rw [List.getElem?_append_left before] at isReader
      exact broadcasting.joined reader receiver isReader
    · have beyond := Nat.not_lt.mp before
      rw [List.getElem?_append_right beyond] at isReader
      obtain ⟨-, rfl⟩ := List.getElem?_eq_some_iff.mp isReader
      rw [List.getElem_singleton, broadcasting.waiting reader beyond]
      exact broadcasting.newcomer id
  newcomer := broadcasting.newcomer
  waiting := by
    intro reader beyond
    rw [List.length_append] at beyond
    exact broadcasting.waiting reader (Nat.le_of_add_right_le beyond)
  data := broadcasting.data

variable {event : Event}

/-- For each reader, a step of the channel is one of a first-in-first-out queue. -/
theorem step_simulates
    (maps : Maps)
    (reader : Nat)
    {state next : BroadcastChannel}
    {queue : List Message}
    (related : OnTheirWay reader state queue)
    (taken : (Step maps).guarded CanMap state event next) :
    ∃ left,
      Run Fifo.Step queue (observe reader event) left ∧
        OnTheirWay reader next left := by
  obtain ⟨opened, all, unread, broadcasting, rfl⟩ := related
  obtain ⟨canMap, step⟩ := taken
  cases step with
  | send _ message granted =>
      obtain ⟨openedNow, allNow, added, broadcastingNow, isAdded⟩ :=
        broadcasting.send maps message granted
      refine ⟨_, ?_, openedNow, allNow, _, broadcastingNow, rfl⟩
      rw [observe, ← isAdded, List.map_append]
      exact Fifo.run_enqueue _ _
  | join _ id =>
      exact ⟨_, .nil _, opened, all, unread, broadcasting.join id, rfl⟩
  | recv _ who receiver mapped isReader =>
      obtain rfl : mapped = true := canMap
      obtain ⟨left, broadcastingNow, taken⟩ := broadcasting.recv isReader
      refine ⟨_, ?_, opened, all, _, broadcastingNow, rfl⟩
      rcases taken with ⟨same, notMessage⟩ | ⟨msg, isMessage, isUnread⟩
      · rw [← same, Function.update_eq_self]
        generalize (receiver.recv state.channel.pages true).received =
          received at notMessage
        cases received with
        | message msg =>
            exact absurd rfl (notMessage msg)
        | nothing => exact .nil _
        | again => exact .nil _
        | shuttingDown => exact .nil _
        | error => exact .nil _
        | panicked => exact .nil _
      · rw [isMessage]
        by_cases isReader : who = reader
        · subst isReader
          rw [Function.update_self, isUnread, observe, if_pos rfl]
          exact .single (.dequeue _ _)
        · rw [Function.update_of_ne (Ne.symm isReader), observe,
            if_neg isReader]
          exact .nil _

variable {maps : Maps}

/-- For each reader, a run of the channel is one of a first-in-first-out queue. -/
theorem run_simulates
    (reader : Nat)
    {first final : BroadcastChannel}
    {queue : List Message}
    {events : List Event}
    (run : Run ((Step maps).guarded CanMap) first events final)
    (related : OnTheirWay reader first queue) :
    ∃ left,
      Run Fifo.Step queue (events.flatMap (observe reader)) left ∧
        OnTheirWay reader final left :=
  @Run.simulation _ _ _ _ _ Fifo.Step (OnTheirWay reader) (observe reader)
    (fun related taken => step_simulates maps reader related taken)
    _ _ _ run _ related

theorem enqueued_observe
    (reader : Nat)
    (events : List Event) :
    Fifo.enqueued (events.flatMap (observe reader)) =
      events.flatMap Event.sent := by
  induction events with
  | nil =>
      rfl
  | cons event rest ih =>
      rw [List.flatMap_cons, List.flatMap_cons, Fifo.enqueued_append,
        ih]
      congr 1
      cases event with
      | send message granted committed =>
          exact Fifo.enqueued_enqueues committed
      | join id =>
          rfl
      | recv who mapped received =>
          cases received with
          | message msg =>
              simp only [observe, Event.sent]
              split <;> rfl
          | nothing => rfl
          | again => rfl
          | shuttingDown => rfl
          | error => rfl
          | panicked => rfl

theorem dequeued_observe
    (reader : Nat)
    (events : List Event) :
    Fifo.dequeued (events.flatMap (observe reader)) =
      events.flatMap (Event.returned reader) := by
  induction events with
  | nil =>
      rfl
  | cons event rest ih =>
      rw [List.flatMap_cons, List.flatMap_cons, Fifo.dequeued_append,
        ih]
      congr 1
      cases event with
      | send message granted committed =>
          exact Fifo.dequeued_enqueues committed
      | join id =>
          rfl
      | recv who mapped received =>
          cases received with
          | message msg =>
              simp only [observe, Event.returned]
              split <;> rfl
          | nothing => rfl
          | again => rfl
          | shuttingDown => rfl
          | error => rfl
          | panicked => rfl

theorem start_onTheirWay
    {id : ClientId}
    {channel : Channel}
    (started : Channel.new maps id true = some channel)
    (reader : Nat) :
    OnTheirWay reader (start channel) [] := by
  obtain ⟨ready, fresh, sender⟩ := new_ready started
  have isFirst : (start channel).firstPage = channel.sender.current := by
    simp [firstPage, start, sender]
  have mapped : channel.sender.current < channel.fresh := by
    rw [sender, fresh]
    exact Nat.one_pos
  refine ⟨[], [], fun _ => [],
    { ready := ready
      keeps := ?_
      uncached := ?_
      apart := ?_
      mapped := mapped
      old := ?_
      joined := ?_
      newcomer := ?_
      waiting := fun _ _ => rfl
      data := by simp }, rfl⟩
  · simp [start, sender]
  · simp [start, sender]
  · simp [start, sender]
  · simp [start, sender]
  · simp [start]
  · intro id
    rw [isFirst]
    refine ⟨[], [], .last [] [] rfl, hasRead_atStart _ _ _, ?_⟩
    intro page member
    rw [List.mem_singleton.mp member]
    exact mapped

/--
As long as the receivers can map the pages that they go on to, each of them
returns a prefix of what was sent, and a page always has room for its end of
page.
-/
theorem every_reader_returns_prefix
    {maps : Maps}
    {id : ClientId}
    {channel : Channel}
    {events : List Event}
    {final : BroadcastChannel}
    (started : Channel.new maps id true = some channel)
    (run : Run ((Step maps).guarded CanMap) (start channel) events final) :
    (∀ reader,
      events.flatMap (Event.returned reader) <+:
        events.flatMap Event.sent) ∧
      final.channel.outPage.sizeUsed + eopMsgSize ≤
        final.channel.outPage.sizeTotal := by
  constructor
  · intro reader
    obtain ⟨left, abstractRun, -⟩ :=
      run_simulates reader run (start_onTheirWay started reader)
    rw [← enqueued_observe reader, ← dequeued_observe reader]
    exact Fifo.dequeued_prefix abstractRun
  · obtain ⟨_, -, opened, _, _, broadcasting, -⟩ :=
      run_simulates 0 run (start_onTheirWay started 0)
    rw [broadcasting.ready.used]
    exact broadcasting.ready.room

/-- A call, before it is known what comes of it. -/
inductive Call where
  | send (message : Message) (granted : Bool)
  | recv (reader : Nat) (mapped : Bool)
  | join (id : ClientId)

/-- Make a call; `none` for a receiver that does not exist. -/
def perform
    (maps : Maps)
    (state : BroadcastChannel) :
    Call → Option (Event × BroadcastChannel)
  | .send message granted =>
      let outcome :=
        state.channel.sendBufWithFlags maps message.tag message.flags
          message.payload granted
      some
        (.send message granted (state.channel.committed message outcome),
          { state with channel := outcome.channel })
  | .recv reader mapped =>
      state.receivers[reader]?.map fun receiver =>
        let reading := receiver.recv state.channel.pages mapped
        (.recv reader mapped reading.received,
          { channel := { state.channel with pages := reading.pages }
            receivers := state.receivers.set reader reading.receiver })
  | .join id =>
      some
        (.join id,
          { state with
            receivers := state.receivers ++ [.atStart id state.firstPage] })

/-- Make one call after the other. -/
def replay
    (maps : Maps) :
    List Call → BroadcastChannel → Option (List Event × BroadcastChannel)
  | [], state => some ([], state)
  | call :: rest, state =>
      (perform maps state call).bind fun (event, next) =>
        (replay maps rest next).map fun (events, final) =>
          (event :: events, final)

theorem perform_step
    {state next : BroadcastChannel}
    {call : Call}
    (performed : perform maps state call = some (event, next)) :
    Step maps state event next := by
  cases call with
  | send message granted =>
      obtain ⟨rfl, rfl⟩ := Prod.mk.inj (Option.some.inj performed)
      exact .send state message granted
  | recv reader mapped =>
      obtain ⟨receiver, isReader, isNext⟩ := Option.map_eq_some_iff.mp performed
      obtain ⟨rfl, rfl⟩ := Prod.mk.inj isNext
      exact .recv state reader receiver mapped isReader
  | join id =>
      obtain ⟨rfl, rfl⟩ := Prod.mk.inj (Option.some.inj performed)
      exact .join state id

theorem perform_canMap
    {state next : BroadcastChannel}
    {call : Call}
    (performed : perform maps state call = some (event, next))
    (mapped : ∀ reader, call ≠ .recv reader false) :
    CanMap state event := by
  cases call with
  | send message granted =>
      obtain ⟨rfl, rfl⟩ := Prod.mk.inj (Option.some.inj performed)
      trivial
  | recv reader canMap =>
      obtain ⟨receiver, -, isNext⟩ := Option.map_eq_some_iff.mp performed
      obtain ⟨rfl, rfl⟩ := Prod.mk.inj isNext
      cases canMap with
      | false =>
          exact absurd rfl (mapped reader)
      | true =>
          exact rfl
  | join id =>
      obtain ⟨rfl, rfl⟩ := Prod.mk.inj (Option.some.inj performed)
      trivial

theorem replay_run
    {step : StepRelation BroadcastChannel Event}
    {calls : List Call}
    {state final : BroadcastChannel}
    {events : List Event}
    (steps :
      ∀ call ∈ calls,
        ∀ state event next,
          perform maps state call = some (event, next) →
            step state event next)
    (replayed : replay maps calls state = some (events, final)) :
    Run step state events final := by
  induction calls generalizing state events with
  | nil =>
      obtain ⟨rfl, rfl⟩ := Prod.mk.inj (Option.some.inj replayed)
      exact .nil state
  | cons call rest ih =>
      obtain ⟨⟨event, next⟩, performed, further⟩ :=
        Option.bind_eq_some_iff.mp replayed
      obtain ⟨⟨later, last⟩, replayedLater, isAll⟩ :=
        Option.map_eq_some_iff.mp further
      obtain ⟨rfl, rfl⟩ := Prod.mk.inj isAll
      exact .cons (steps call (by simp) _ _ _ performed)
        (ih
          (fun other member => steps other (List.mem_cons_of_mem _ member))
          replayedLater)

/-- A broker's sender on a system with small maps. -/
def sampleBroker : Channel :=
  (Channel.new .small 0 true).get Channel.isSome_new_broker

theorem sampleBroker_new :
    Channel.new .small 0 true = some sampleBroker :=
  (Option.some_get _).symm

/-- Two clients join, one before and one after a message; both receive it. -/
def twoClientsCalls : List Call :=
  [.join 1, .send ⟨1, 0, [7]⟩ true, .join 2, .recv 0 true, .recv 1 true]

theorem every_reader_returns_prefix_two_clients :
    ∃ events final,
      replay .small twoClientsCalls (start sampleBroker) =
          some (events, final) ∧
        (∀ reader,
          events.flatMap (Event.returned reader) <+:
            events.flatMap Event.sent) ∧
        final.channel.outPage.sizeUsed + eopMsgSize ≤
          final.channel.outPage.sizeTotal := by
  have isSome :
      (replay .small twoClientsCalls (start sampleBroker)).isSome = true := by
    decide +kernel
  obtain ⟨⟨events, final⟩, replayed⟩ := Option.isSome_iff_exists.mp isSome
  have run :
      Run ((Step .small).guarded CanMap) (start sampleBroker) events
        final := by
    refine replay_run (fun call member state event next performed => ?_)
      replayed
    refine ⟨perform_canMap performed ?_, perform_step performed⟩
    rintro reader rfl
    simp [twoClientsCalls] at member
  exact ⟨events, final, replayed,
    every_reader_returns_prefix sampleBroker_new run⟩

/--
A client reads the two messages of the first page, fails to map the second
page, and calls again.
-/
def failedMappingCalls : List Call :=
  [.join 1, .send ⟨1, 0, halfMegabyte⟩ true,
    .send ⟨2, 0, halfMegabyte⟩ true, .send ⟨3, 0, halfMegabyte⟩ true,
    .recv 0 true, .recv 0 true, .recv 0 false, .recv 0 true]

theorem tags_failedMapping :
    (replay .small failedMappingCalls (start sampleBroker)).map
        (fun replayed =>
          ((replayed.1.flatMap (Event.returned 0)).map Message.tag,
            (replayed.1.flatMap Event.sent).map Message.tag)) =
      some ([1, 2, 1], [1, 2, 3]) := by
  simp only [failedMappingCalls, replay, perform, Channel.sendBufWithFlags,
    halfMegabyte_length]
  decide +kernel

/--
A receiver that could not map the next page has lost its place, and returns
the messages of the old page once more.
-/
theorem failed_mapping_repeats_messages :
    Channel.new .small 0 true = some sampleBroker ∧
      ∃ events final,
        replay .small failedMappingCalls (start sampleBroker) =
            some (events, final) ∧
          Run (Step .small) (start sampleBroker) events final ∧
          ¬events.flatMap (Event.returned 0) <+:
            events.flatMap Event.sent := by
  obtain ⟨⟨events, final⟩, replayed, tags⟩ :=
    Option.map_eq_some_iff.mp tags_failedMapping
  refine ⟨sampleBroker_new, events, final, replayed,
    replay_run (fun _ _ _ _ _ performed => perform_step performed) replayed,
    fun isPrefix => ?_⟩
  obtain ⟨returnedTags, sentTags⟩ := Prod.mk.inj tags
  have tagPrefix := isPrefix.map Message.tag
  rw [returnedTags, sentTags] at tagPrefix
  revert tagPrefix
  decide

end BroadcastChannel

end MeFuzz.Llmp
