import MeFuzz.TransitionRun
import MeFuzz.LlmpReattach
import MeFuzz.LlmpForget

namespace MeFuzz.Llmp

/-!
# A client that goes on where it stopped

A client runs in the company of others: the broker and its other clients write
their own pages, mark the client's pages when they map them, and make new
maps.  The client that was taken down and the one built from what it left are
compared call by call from then on.
-/

namespace LlmpClient

/-- A client and the shared maps of the system. -/
structure System where
  pages : ShMemId → LlmpPage
  fresh : ShMemId
  client : LlmpClient

/-- How a call ends; an allocation that ends well hands out a message. -/
inductive Ended where
  | ok (msg : Option Nat)
  | error
  | panicked
  deriving Repr, DecidableEq

def endedOutcome : Outcome → Ended
  | .ok _ => .ok none
  | .error _ => .error
  | .panicked _ => .panicked

def endedAlloc : Alloc → Ended
  | .allocated _ msg => .ok (some msg)
  | .full => .error
  | .error _ => .error
  | .panicked _ => .panicked

/--
A call on the client, with what the system and the call do; the contents of a
message that was allocated; or what the others make of the shared maps.
-/
inductive Event where
  | sendBufWithFlags
      (tag : Tag)
      (flags : Flags)
      (buf : Bytes)
      (granted : Bool)
      (ended : Ended)
  | allocNext (bufLen : Nat) (granted : Bool) (ended : Ended)
  | fill (msg : Nat) (tag : Tag) (flags : Flags) (buf : Buf)
  | send (msg : Nat) (ended : Ended)
  | recv (mapped : Bool) (received : Received)
  | others (pages : ShMemId → LlmpPage) (fresh : ShMemId)

namespace System

/-- The client's sender, with the shared maps. -/
def channel (system : System) : Channel :=
  ⟨system.pages, system.fresh, system.client.sender⟩

/-- The system after a call on the sender. -/
def withChannel (system : System) (channel : Channel) : System where
  pages := channel.pages
  fresh := channel.fresh
  client := { system.client with sender := channel.sender }

/-- A pass of the receiver. -/
def recv (system : System) (mapped : Bool) : Reading :=
  system.client.receiver.recv system.pages mapped

/-- The system after a pass of the receiver. -/
def afterRecv (system : System) (mapped : Bool) : System where
  pages := (system.recv mapped).pages
  fresh := system.fresh
  client := { system.client with receiver := (system.recv mapped).receiver }

/--
What the others keep to: the fixed part of a page's header stays, a map with a
page on it is filled by it, and no page that the client reads starts anew.
-/
structure Undisturbed
    (system : System)
    (pages : ShMemId → LlmpPage)
    (fresh : ShMemId) : Prop where
  proper : Proper pages fresh
  grows : system.fresh ≤ fresh
  frame :
    ∀ id, (system.pages id).magic = true →
      (pages id).SameFrame (system.pages id)
  counts :
    (system.pages system.client.receiver.currentRecvShmem).currentMsgId ≤
      (pages system.client.receiver.currentRecvShmem).currentMsgId

end System

/-- `LlmpClient::new`. -/
def new
    (maps : Maps)
    (pages : ShMemId → LlmpPage)
    (fresh : ShMemId)
    (initialBrokerShmem : ShMemId)
    (senderId : ClientId) : Option System :=
  (llmpPageInit (.zeroed maps.initialMapSize) senderId false).map fun page =>
    { pages := Function.update pages fresh page
      fresh := fresh + 1
      client :=
        { sender :=
            { id := senderId
              lastMsgSent := none
              earlier := []
              current := fresh
              unusedShmemCache := []
              keepPagesForever := false
              hasUnsentMessage := false }
          receiver := .atStart 0 initialBrokerShmem } }

section

variable (maps : Maps)

/--
One event.  The broker's end of page leads to a page of the broker, never to
one that the client sends on.
-/
inductive Step : StepRelation System Event where
  | sendBufWithFlags
      (system : System)
      (tag : Tag)
      (flags : Flags)
      (buf : Bytes)
      (granted : Bool) :
      Step system
        (.sendBufWithFlags tag flags buf granted
          (endedOutcome
            (system.channel.sendBufWithFlags maps tag flags buf granted)))
        (system.withChannel
          (system.channel.sendBufWithFlags maps tag flags buf
            granted).channel)
  | allocNext
      (system : System)
      (bufLen : Nat)
      (granted : Bool) :
      Step system
        (.allocNext bufLen granted
          (endedAlloc (system.channel.allocNext maps bufLen granted)))
        (system.withChannel
          ((system.channel.allocNext maps bufLen granted).channelAfter
            system.channel))
  | fill
      (system : System)
      (msg : Nat)
      (tag : Tag)
      (flags : Flags)
      (buf : Buf) :
      Step system (.fill msg tag flags buf)
        (system.withChannel (system.channel.fill msg tag flags buf))
  | send
      (system : System)
      (msg : Nat) :
      Step system (.send msg (endedOutcome (system.channel.send msg)))
        (system.withChannel (system.channel.send msg).channel)
  | recv
      (system : System)
      (mapped : Bool) :
      (system.recv mapped).receiver.currentRecvShmem ∉
          system.client.sender.held →
      Step system (.recv mapped (system.recv mapped).received)
        (system.afterRecv mapped)
  | others
      (system : System)
      (pages : ShMemId → LlmpPage)
      (fresh : ShMemId) :
      system.Undisturbed pages fresh →
      Step system (.others pages fresh)
        { system with pages := pages, fresh := fresh }

/--
The systems that a client can be in: a new client on a page of the broker, and
one that was rebuilt from a description or from the environment, after any
events.
-/
inductive Reachable : System → Prop where
  | new
      {pages : ShMemId → LlmpPage}
      {fresh initialBrokerShmem : ShMemId}
      {senderId : ClientId}
      {system : System} :
      Proper pages fresh →
      (pages initialBrokerShmem).magic = true →
      LlmpClient.new maps pages fresh initialBrokerShmem senderId =
        some system →
      Reachable system
  | step
      {system next : System}
      {event : Event} :
      Reachable system →
      Step maps system event next →
      Reachable next
  | restart
      {system : System}
      {canMap : ShMemDescription → Bool}
      {env : Env}
      {path : Path}
      {client : LlmpClient} :
      Reachable system →
      path ≠ .existingShmem →
      Mappable system.pages canMap system.client →
      reattach system.pages canMap env system.client path = .ok client →
      Reachable { system with client := client }

end

section

variable {pages : ShMemId → LlmpPage}
variable {receiver : LlmpReceiver}

theorem nextMsg_latestMsgId
    {page : LlmpPage}
    (counted : receiver.highestMsgId ≤ page.currentMsgId) :
    receiver.nextMsg page (receiver.latestMsgId page) =
      receiver.nextMsg page page.currentMsgId := by
  unfold LlmpReceiver.latestMsgId
  cases last : receiver.lastMsgRecvd with
  | none =>
      rfl
  | some lastMsg =>
      dsimp only
      split
      · rename_i cached
        unfold LlmpReceiver.nextMsg
        simp only [last]
        rw [if_neg (by omega), if_neg (by omega), if_neg (by omega),
          if_neg (by omega)]
      · rfl

theorem latestMsgId_le
    {page : LlmpPage}
    (counted : receiver.highestMsgId ≤ page.currentMsgId) :
    receiver.latestMsgId page ≤ page.currentMsgId := by
  unfold LlmpReceiver.latestMsgId
  split
  · exact Nat.le_refl _
  · split
    · exact counted
    · exact Nat.le_refl _

/-- A page that a pass may have marked. -/
structure MayMark (page other : LlmpPage) : Prop where
  frame : page.SameFrame other
  count : page.currentMsgId = other.currentMsgId

theorem mayMark_update
    (shmem id : ShMemId) :
    MayMark (Function.update pages shmem (pages shmem).markSafeToUnmap id)
      (pages id) := by
  by_cases same : id = shmem
  · subst same
    rw [Function.update_self]
    exact ⟨⟨rfl, rfl, rfl, rfl⟩, rfl⟩
  · rw [Function.update_of_ne same]
    exact ⟨.refl _, rfl⟩

/-- The place that a pass leaves the receiver at. -/
structure Standing
    (pages : ShMemId → LlmpPage)
    (receiver : LlmpReceiver) : Prop where
  magic : (pages receiver.currentRecvShmem).magic = true
  onPage :
    ∀ msg, receiver.lastMsgRecvd = some msg →
      llmpPageHeaderLen + msg <
        (pages receiver.currentRecvShmem).mapSize - llmpPageHeaderLen
  counted :
    receiver.highestMsgId ≤ (pages receiver.currentRecvShmem).currentMsgId
  receiverId : receiver.id = 0

theorem Standing.congr
    (standing : Standing pages receiver)
    {other : ShMemId → LlmpPage}
    (frame :
      (other receiver.currentRecvShmem).SameFrame
        (pages receiver.currentRecvShmem))
    (counts :
      (pages receiver.currentRecvShmem).currentMsgId ≤
        (other receiver.currentRecvShmem).currentMsgId) :
    Standing other receiver where
  magic := frame.magic.trans standing.magic
  onPage := by
    intro msg last
    rw [frame.mapSize]
    exact standing.onPage msg last
  counted := standing.counted.trans counts
  receiverId := standing.receiverId

/--
A pass stays where it is, returns a message that lies in the map, or follows
an end of page.
-/
theorem recv_cases (mapped : Bool) :
    (∃ received,
      receiver.recv pages mapped =
        ⟨received, pages,
          { receiver with
            highestMsgId :=
              receiver.latestMsgId (pages receiver.currentRecvShmem) }⟩) ∨
    (∃ offset,
      ((pages receiver.currentRecvShmem).msgAt offset).inShmem offset
          (pages receiver.currentRecvShmem).mapSize = true ∧
        receiver.recv pages mapped =
          ⟨.message ((pages receiver.currentRecvShmem).msgAt offset), pages,
            { receiver with
              highestMsgId :=
                receiver.latestMsgId (pages receiver.currentRecvShmem)
              lastMsgRecvd := some offset }⟩) ∨
    ∃ msg,
      receiver.recv pages mapped =
        receiver.followEop pages msg mapped := by
  unfold LlmpReceiver.recv
  dsimp only
  split
  · exact .inl ⟨_, rfl⟩
  · exact .inl ⟨_, rfl⟩
  · rename_i offset _
    split
    · exact .inl ⟨_, rfl⟩
    · rename_i inShmem
      split
      · exact .inl ⟨_, rfl⟩
      · split
        · split
          · exact .inl ⟨_, rfl⟩
          · exact .inl ⟨_, rfl⟩
        · split
          · split
            · exact .inl ⟨_, rfl⟩
            · exact .inr (.inr ⟨_, rfl⟩)
          · exact .inr (.inl ⟨offset, by simpa using inShmem, rfl⟩)

theorem followEop_cases
    (msg : LlmpMsg)
    (mapped : Bool) :
    (∀ id,
      MayMark ((receiver.followEop pages msg mapped).pages id) (pages id)) ∧
    ∃ shmem,
      (receiver.followEop pages msg mapped).receiver =
        { receiver with
          lastMsgRecvd := none
          highestMsgId := 0
          currentRecvShmem := shmem } ∧
      (shmem = receiver.currentRecvShmem ∨
        (Function.update pages receiver.currentRecvShmem
          (pages receiver.currentRecvShmem).markSafeToUnmap shmem).magic =
          true) := by
  have first := @mayMark_update pages receiver.currentRecvShmem
  unfold LlmpReceiver.followEop
  dsimp only
  split
  · rename_i mapSize shmStr _
    split
    · rename_i isPage
      refine ⟨fun id => ?_, shmStr, rfl, .inr isPage⟩
      have second :=
        @mayMark_update
          (Function.update pages receiver.currentRecvShmem
            (pages receiver.currentRecvShmem).markSafeToUnmap) shmStr id
      exact ⟨second.frame.trans (first id).frame,
        second.count.trans (first id).count⟩
    · exact ⟨first, _, rfl, .inl rfl⟩
  · exact ⟨first, _, rfl, .inl rfl⟩

theorem recv_mayMark
    (mapped : Bool)
    (id : ShMemId) :
    MayMark ((receiver.recv pages mapped).pages id) (pages id) := by
  rcases @recv_cases pages receiver mapped with
    ⟨_, is⟩ | ⟨_, _, is⟩ | ⟨msg, is⟩
  · rw [is]
    exact ⟨.refl _, rfl⟩
  · rw [is]
    exact ⟨.refl _, rfl⟩
  · rw [is]
    exact (followEop_cases msg mapped).1 id

theorem Standing.recv
    (standing : Standing pages receiver)
    (mapped : Bool) :
    Standing (receiver.recv pages mapped).pages
      (receiver.recv pages mapped).receiver := by
  have latest := latestMsgId_le standing.counted
  rcases @recv_cases pages receiver mapped with
    ⟨_, is⟩ | ⟨offset, inShmem, is⟩ | ⟨msg, is⟩
  · rw [is]
    exact ⟨standing.magic, standing.onPage, latest, standing.receiverId⟩
  · rw [is]
    refine ⟨standing.magic, ?_, latest, standing.receiverId⟩
    rintro _ ⟨⟩
    unfold LlmpMsg.inShmem at inShmem
    simp only at inShmem
    split at inShmem
    · have fits := of_decide_eq_true inShmem
      simp only [llmpPageHeaderLen, llmpMsgHeaderLen] at fits ⊢
      omega
    · cases inShmem
  · obtain ⟨marked, shmem, stands, isPage⟩ :=
      @followEop_cases pages receiver msg mapped
    rw [is]
    refine ⟨?_, ?_, ?_, ?_⟩
    · rw [stands, (marked shmem).frame.magic]
      cases isPage with
      | inl same =>
          exact same ▸ standing.magic
      | inr isPage =>
          exact (mayMark_update _ shmem).frame.magic.symm.trans isPage
    · rw [stands]
      rintro _ ⟨⟩
    · rw [stands]
      exact Nat.zero_le _
    · rw [stands]
      exact standing.receiverId

theorem recv_withHighest
    {highest : Nat}
    (counted :
      receiver.highestMsgId ≤
        (pages receiver.currentRecvShmem).currentMsgId)
    (otherCounted :
      highest ≤ (pages receiver.currentRecvShmem).currentMsgId)
    (mapped : Bool) :
    ∃ highestThen,
      LlmpReceiver.recv pages { receiver with highestMsgId := highest }
          mapped =
        ⟨(receiver.recv pages mapped).received,
          (receiver.recv pages mapped).pages,
          { (receiver.recv pages mapped).receiver with
            highestMsgId := highestThen }⟩ := by
  have here := nextMsg_latestMsgId counted
  have there :=
    @nextMsg_latestMsgId { receiver with highestMsgId := highest }
      (pages receiver.currentRecvShmem) otherCounted
  have same :
      LlmpReceiver.nextMsg
          { receiver with
            highestMsgId :=
              LlmpReceiver.latestMsgId
                { receiver with highestMsgId := highest }
                (pages receiver.currentRecvShmem) }
          (pages receiver.currentRecvShmem)
          (LlmpReceiver.latestMsgId
            { receiver with highestMsgId := highest }
            (pages receiver.currentRecvShmem)) =
        LlmpReceiver.nextMsg
          { receiver with
            highestMsgId :=
              receiver.latestMsgId (pages receiver.currentRecvShmem) }
          (pages receiver.currentRecvShmem)
          (receiver.latestMsgId (pages receiver.currentRecvShmem)) :=
    there.trans here.symm
  unfold LlmpReceiver.recv
  dsimp only
  rw [same]
  repeat' split
  all_goals exact ⟨_, rfl⟩

end

/-- Both ends have their places, on different maps. -/
structure Settled (system : System) : Prop where
  seated : system.channel.Seated
  standing : Standing system.pages system.client.receiver
  apart :
    system.client.receiver.currentRecvShmem ∉ system.client.sender.held

namespace Settled

variable {maps : Maps}
variable {system next : System}
variable {event : Event}

theorem located
    {pages : ShMemId → LlmpPage}
    {fresh shmem : ShMemId}
    {last : Option Nat}
    (proper : Proper pages fresh)
    (magic : (pages shmem).magic = true)
    (onPage :
      ∀ msg, last = some msg →
        llmpPageHeaderLen + msg < (pages shmem).sizeTotal) :
    Located (pages shmem) last :=
  ⟨magic, (proper shmem magic).2, onPage⟩

/-- A settled client can be taken down. -/
theorem attached (settled : Settled system) :
    Attached system.pages system.client where
  sending :=
    located settled.seated.proper
      (settled.seated.initialised _ List.mem_cons_self)
      settled.seated.onPage
  receiving := by
    refine located settled.seated.proper settled.standing.magic ?_
    intro msg last
    have fills := (settled.seated.proper _ settled.standing.magic).2
    have onPage := settled.standing.onPage msg last
    exact onPage.trans_eq fills.symm
  senderId := settled.seated.senderId

theorem withChannel
    (settled : Settled system)
    {channel : Channel}
    (advances : Channel.Advances system.channel channel) :
    Settled (system.withChannel channel) := by
  have old :=
    (settled.seated.proper _ settled.standing.magic).1
  have samePage := advances.confined.pages _ old settled.apart
  constructor
  · exact advances.seated
  · refine @Standing.congr system.pages system.client.receiver
      settled.standing channel.pages ?_ ?_
    · rw [samePage]
      exact .refl _
    · rw [samePage]
      rfl
  · intro held
    exact (advances.confined.held _ held).elim settled.apart
      (Nat.not_le_of_lt old)

theorem seated_congr
    (seated : system.channel.Seated)
    {pages : ShMemId → LlmpPage}
    {fresh : ShMemId}
    (proper : Proper pages fresh)
    (frame :
      ∀ id, (system.pages id).magic = true →
        (pages id).SameFrame (system.pages id)) :
    Channel.Seated ⟨pages, fresh, system.client.sender⟩ := by
  have here :=
    frame _ (seated.initialised system.client.sender.current
      List.mem_cons_self)
  refine ⟨proper, ?_, ?_, ?_, seated.prunes⟩
  · intro id held
    have isPage := seated.initialised id held
    exact (frame id isPage).magic.trans isPage
  · exact here.senderId.trans seated.senderId
  · intro msg last
    exact (seated.onPage msg last).trans_eq here.sizeTotal.symm

theorem step
    (settled : Settled system)
    (taken : Step maps system event next) :
    Settled next := by
  have seated := settled.seated
  cases taken with
  | sendBufWithFlags _ tag flags buf granted =>
      exact settled.withChannel
        (Channel.advances_sendBufWithFlags maps seated tag flags buf granted)
  | allocNext _ bufLen granted =>
      exact settled.withChannel
        (Channel.advances_allocNext maps seated bufLen granted)
  | fill _ msg tag flags buf =>
      exact settled.withChannel
        ((Channel.writes_fill _ msg tag flags buf).advances seated)
  | send _ msg =>
      exact settled.withChannel
        ((Channel.writes_send _ msg).advances seated)
  | recv _ mapped apart =>
      have marked := @recv_mayMark system.pages system.client.receiver mapped
      have frames := fun id => (marked id).frame
      exact
        { seated :=
            seated_congr seated (seated.proper.congr frames)
              fun id _ => frames id
          standing := settled.standing.recv mapped
          apart := apart }
  | others _ pages fresh undisturbed =>
      have standing := settled.standing
      have frame := undisturbed.frame _ standing.magic
      exact
        ⟨seated_congr seated undisturbed.proper undisturbed.frame,
          standing.congr frame undisturbed.counts, settled.apart⟩

theorem of_new
    {pages : ShMemId → LlmpPage}
    {fresh initialBrokerShmem : ShMemId}
    {senderId : ClientId}
    (proper : Proper pages fresh)
    (magic : (pages initialBrokerShmem).magic = true)
    (isNew :
      LlmpClient.new maps pages fresh initialBrokerShmem senderId =
        some system) :
    Settled system := by
  obtain ⟨page, init, rfl⟩ := Option.map_eq_some_iff.mp isNew
  obtain ⟨isPage, owner, size, fills⟩ := llmpPageInit_some init
  have other : initialBrokerShmem ≠ fresh :=
    Nat.ne_of_lt (proper _ magic).1
  refine ⟨⟨?_, ?_, ?_, ?_, rfl⟩, ⟨?_, ?_, ?_, rfl⟩, ?_⟩
  · intro id isPageThen
    by_cases same : id = fresh
    · subst same
      exact ⟨Nat.lt_succ_self _, by simpa [System.channel] using fills⟩
    · have before : (pages id).magic = true := by
        simpa [System.channel, same] using isPageThen
      refine ⟨Nat.lt_succ_of_lt (proper id before).1, ?_⟩
      simpa [System.channel, same] using (proper id before).2
  · intro id held
    have same : id = fresh := by
      simpa [System.channel, LlmpSender.held] using held
    simpa [System.channel, same] using isPage
  · simpa [System.channel, Channel.outPage] using owner
  · rintro msg ⟨⟩
  · simpa [LlmpReceiver.atStart, other] using magic
  · rintro msg ⟨⟩
  · exact Nat.zero_le _
  · simpa [LlmpSender.held, LlmpReceiver.atStart] using other

theorem rebuilt (settled : Settled system) :
    Settled { system with client := system.client.rebuilt } := by
  have kept :
      ∀ id ∈ system.client.rebuilt.sender.held,
        id ∈ system.client.sender.held := by
    intro id held
    have same : id = system.client.sender.current := by
      simpa [LlmpClient.rebuilt, LlmpSender.held] using held
    exact same ▸ List.mem_cons_self
  have seated := settled.seated
  have standing := settled.standing
  exact
    { seated :=
        { proper := seated.proper
          initialised := fun id held => seated.initialised id (kept id held)
          senderId := seated.senderId
          onPage := seated.onPage
          prunes := rfl }
      standing :=
        { magic := standing.magic
          onPage := standing.onPage
          counted := Nat.zero_le _
          receiverId := rfl }
      apart := fun held => settled.apart (kept _ held) }

end Settled

theorem reattach_eq
    {pages : ShMemId → LlmpPage}
    {canMap : ShMemDescription → Bool}
    {client : LlmpClient}
    (attached : Attached pages client)
    (mappable : Mappable pages canMap client)
    (env : Env)
    {path : Path}
    (kept : path ≠ .existingShmem) :
    reattach pages canMap env client path = .ok client.rebuilt := by
  cases path with
  | existingShmem =>
      exact absurd rfl kept
  | description =>
      exact reattach_description attached mappable env
  | env envName =>
      exact reattach_env attached mappable env envName

/-- Every client is settled. -/
theorem Reachable.settled
    {maps : Maps}
    {system : System}
    (reachable : Reachable maps system) :
    Settled system := by
  induction reachable with
  | new proper magic isNew =>
      exact .of_new proper magic isNew
  | step _ taken ih =>
      exact ih.step taken
  | @restart system canMap env path client _ kept mappable built
      ih =>
      have same :=
        reattach_eq ih.attached mappable env kept
      obtain rfl := Except.ok.inj (same.symm.trans built)
      exact ih.rebuilt

/-- The sender held no page but its current one. -/
def Bare (client : LlmpClient) : Prop :=
  client.sender.earlier = [] ∧ client.sender.unusedShmemCache = []

/-- A rebuilt sender, as seen from the original one. -/
structure Views
    (bare : Prop)
    (lost : Nat)
    (channel other : Channel) : Prop where
  whole : bare → other = channel
  rest :
    ¬bare →
      lost ≤ channel.sender.earlier.length ∧ other = channel.forget lost

/-- The pages that were lost do not matter to a call. -/
def Unmissed
    (maps : Maps)
    (bare : Prop)
    (system : System) : Event → Prop
  | .sendBufWithFlags _ _ buf _ _ =>
      bare ∨ system.channel.Unaffected maps buf.length
  | .allocNext bufLen _ _ =>
      bare ∨ system.channel.Unaffected maps bufLen
  | _ => True

namespace Views

variable {bare : Prop}
variable {lost : Nat}
variable {channel other : Channel}
variable {maps : Maps}

theorem of_outcome
    {outcome otherOutcome : Outcome}
    (whole : bare → otherOutcome = outcome)
    (rest :
      ¬bare →
        lost ≤ outcome.channel.sender.earlier.length ∧
          otherOutcome = outcome.map (Channel.forget lost)) :
    endedOutcome otherOutcome = endedOutcome outcome ∧
      Views bare lost outcome.channel otherOutcome.channel := by
  by_cases isBare : bare
  · obtain rfl := whole isBare
    exact ⟨rfl, fun _ => rfl, fun notBare => absurd isBare notBare⟩
  · obtain ⟨enough, rfl⟩ := rest isBare
    cases outcome <;>
      exact ⟨rfl, fun isBareThen => absurd isBareThen isBare,
        fun _ => ⟨enough, rfl⟩⟩

theorem of_alloc
    (views : Views bare lost channel other)
    {alloc otherAlloc : Alloc}
    (whole : bare → otherAlloc = alloc)
    (rest :
      ¬bare →
        lost ≤ (alloc.channelAfter channel).sender.earlier.length ∧
          otherAlloc = alloc.map (Channel.forget lost)) :
    endedAlloc otherAlloc = endedAlloc alloc ∧
      Views bare lost (alloc.channelAfter channel)
        (otherAlloc.channelAfter other) := by
  by_cases isBare : bare
  · obtain rfl := whole isBare
    obtain rfl := views.whole isBare
    exact ⟨rfl, fun _ => rfl, fun notBare => absurd isBare notBare⟩
  · obtain ⟨enough, rfl⟩ := rest isBare
    obtain ⟨_, rfl⟩ := views.rest isBare
    cases alloc <;>
      exact ⟨rfl, fun isBareThen => absurd isBareThen isBare,
        fun _ => ⟨enough, rfl⟩⟩

theorem sendBufWithFlags
    (views : Views bare lost channel other)
    (tag : Tag)
    (flags : Flags)
    {buf : Bytes}
    (granted : Bool)
    (unmissed : bare ∨ channel.Unaffected maps buf.length) :
    endedOutcome (other.sendBufWithFlags maps tag flags buf granted) =
        endedOutcome (channel.sendBufWithFlags maps tag flags buf granted) ∧
      Views bare lost
        (channel.sendBufWithFlags maps tag flags buf granted).channel
        (other.sendBufWithFlags maps tag flags buf granted).channel := by
  refine of_outcome (fun isBare => by rw [views.whole isBare]) ?_
  intro notBare
  obtain ⟨enough, rfl⟩ := views.rest notBare
  have unaffected := unmissed.resolve_left notBare
  have grows :=
    Channel.earlier_sendBufWithFlags unaffected tag flags granted
  exact ⟨enough.trans grows.length_le,
    Channel.sendBufWithFlags_forget unaffected enough tag flags granted⟩

theorem allocNext
    (views : Views bare lost channel other)
    {bufLen : Nat}
    (granted : Bool)
    (unmissed : bare ∨ channel.Unaffected maps bufLen) :
    endedAlloc (other.allocNext maps bufLen granted) =
        endedAlloc (channel.allocNext maps bufLen granted) ∧
      Views bare lost
        ((channel.allocNext maps bufLen granted).channelAfter channel)
        ((other.allocNext maps bufLen granted).channelAfter other) := by
  refine views.of_alloc (fun isBare => by rw [views.whole isBare]) ?_
  intro notBare
  obtain ⟨enough, rfl⟩ := views.rest notBare
  have unaffected := unmissed.resolve_left notBare
  have grows := Channel.earlier_allocNext unaffected granted
  exact ⟨enough.trans grows.length_le,
    Channel.allocNext_forget unaffected enough granted⟩

theorem send
    (views : Views bare lost channel other)
    (msg : Nat) :
    endedOutcome (other.send msg) = endedOutcome (channel.send msg) ∧
      Views bare lost (channel.send msg).channel (other.send msg).channel := by
  refine of_outcome (fun isBare => by rw [views.whole isBare]) ?_
  intro notBare
  obtain ⟨enough, rfl⟩ := views.rest notBare
  have same := (Channel.writes_send channel msg).earlier
  exact ⟨same ▸ enough, Channel.send_forget lost channel msg⟩

theorem fill
    (views : Views bare lost channel other)
    (msg : Nat)
    (tag : Tag)
    (flags : Flags)
    (buf : Buf) :
    Views bare lost (channel.fill msg tag flags buf)
      (other.fill msg tag flags buf) where
  whole := fun isBare => by rw [views.whole isBare]
  rest := by
    intro notBare
    obtain ⟨enough, rfl⟩ := views.rest notBare
    exact ⟨enough, rfl⟩

theorem pages (views : Views bare lost channel other) :
    other.pages = channel.pages := by
  by_cases isBare : bare
  · rw [views.whole isBare]
  · rw [(views.rest isBare).2]
    rfl

theorem fresh (views : Views bare lost channel other) :
    other.fresh = channel.fresh := by
  by_cases isBare : bare
  · rw [views.whole isBare]
  · rw [(views.rest isBare).2]
    rfl

theorem held
    (views : Views bare lost channel other)
    (id : ShMemId)
    (isHeld : id ∈ other.sender.held) :
    id ∈ channel.sender.held := by
  by_cases isBare : bare
  · rw [← views.whole isBare]
    exact isHeld
  · rw [(views.rest isBare).2] at isHeld
    simp only [LlmpSender.held, Channel.forget, List.append_nil,
      List.mem_cons, List.mem_append] at isHeld ⊢
    exact isHeld.imp_right fun spare => .inl (List.mem_of_mem_drop spare)

theorem withPages
    (views : Views bare lost channel other)
    {pages otherPages : ShMemId → LlmpPage}
    {fresh otherFresh : ShMemId}
    (samePages : otherPages = pages)
    (sameFresh : otherFresh = fresh) :
    Views bare lost ⟨pages, fresh, channel.sender⟩
      ⟨otherPages, otherFresh, other.sender⟩ where
  whole := fun isBare => by
    rw [views.whole isBare, samePages, sameFresh]
  rest := by
    intro notBare
    obtain ⟨enough, rfl⟩ := views.rest notBare
    subst samePages sameFresh
    exact ⟨enough, rfl⟩

end Views

/-- The original and the rebuilt client, between two events. -/
structure Similar
    (bare : Prop)
    (lost : Nat)
    (original rebuilt : System) : Prop where
  settled : Settled original
  views : Views bare lost original.channel rebuilt.channel
  receiver :
    ∃ highest ≤
      (original.pages
        original.client.receiver.currentRecvShmem).currentMsgId,
      rebuilt.client.receiver =
        { original.client.receiver with highestMsgId := highest }

namespace Similar

variable {maps : Maps}
variable {bare : Prop}
variable {lost : Nat}
variable {original rebuilt next : System}
variable {event : Event}

theorem withChannel
    (similar : Similar bare lost original rebuilt)
    {channel other : Channel}
    (settled : Settled (original.withChannel channel))
    (samePage :
      channel.pages original.client.receiver.currentRecvShmem =
        original.pages original.client.receiver.currentRecvShmem)
    (views : Views bare lost channel other) :
    Similar bare lost (original.withChannel channel)
      (rebuilt.withChannel other) where
  settled := settled
  views := views
  receiver := by
    obtain ⟨highest, counted, same⟩ := similar.receiver
    exact ⟨highest, counted.trans_eq
      (congrArg LlmpPage.currentMsgId samePage.symm), same⟩

theorem samePage
    (similar : Similar bare lost original rebuilt)
    {channel : Channel}
    (advances : Channel.Advances original.channel channel) :
    channel.pages original.client.receiver.currentRecvShmem =
      original.pages original.client.receiver.currentRecvShmem :=
  advances.confined.pages _
    (similar.settled.seated.proper _ similar.settled.standing.magic).1
    similar.settled.apart

theorem recv
    (similar : Similar bare lost original rebuilt)
    (mapped : Bool) :
    ∃ highest ≤
      ((original.recv mapped).pages
        (original.recv mapped).receiver.currentRecvShmem).currentMsgId,
      rebuilt.recv mapped =
        ⟨(original.recv mapped).received, (original.recv mapped).pages,
          { (original.recv mapped).receiver with
            highestMsgId := highest }⟩ := by
  obtain ⟨highest, counted, receiver⟩ := similar.receiver
  have samePages : rebuilt.pages = original.pages := similar.views.pages
  have standing := similar.settled.standing
  obtain ⟨highestThen, passes⟩ :=
    recv_withHighest standing.counted counted mapped
  have standingThen :
      Standing original.pages
        { original.client.receiver with highestMsgId := highest } :=
    ⟨standing.magic, standing.onPage, counted, standing.receiverId⟩
  have countedThen := (standingThen.recv mapped).counted
  rw [passes] at countedThen
  refine ⟨highestThen, countedThen, ?_⟩
  rw [System.recv, samePages, receiver]
  exact passes

/-- Whatever the original does, the rebuilt client does as well. -/
theorem step
    (similar : Similar bare lost original rebuilt)
    (taken : (Step maps).guarded (Unmissed maps bare) original event next) :
    ∃ rebuiltNext,
      Step maps rebuilt event rebuiltNext ∧
        Similar bare lost next rebuiltNext := by
  obtain ⟨unmissed, taken⟩ := taken
  have settledNext := similar.settled.step taken
  have seated := similar.settled.seated
  have views := similar.views
  cases taken with
  | sendBufWithFlags _ tag flags buf granted =>
      obtain ⟨ended, viewsNext⟩ :=
        views.sendBufWithFlags tag flags granted unmissed
      have taken :=
        @Step.sendBufWithFlags maps rebuilt tag flags buf granted
      rw [ended] at taken
      exact ⟨_, taken,
        similar.withChannel settledNext
          (similar.samePage
            (Channel.advances_sendBufWithFlags maps seated tag flags buf
              granted)) viewsNext⟩
  | allocNext _ bufLen granted =>
      obtain ⟨ended, viewsNext⟩ := views.allocNext granted unmissed
      have taken := @Step.allocNext maps rebuilt bufLen granted
      rw [ended] at taken
      exact ⟨_, taken,
        similar.withChannel settledNext
          (similar.samePage
            (Channel.advances_allocNext maps seated bufLen granted))
          viewsNext⟩
  | fill _ msg tag flags buf =>
      exact ⟨_, .fill rebuilt msg tag flags buf,
        similar.withChannel settledNext
          (similar.samePage
            ((Channel.writes_fill _ msg tag flags buf).advances seated))
          (views.fill msg tag flags buf)⟩
  | send _ msg =>
      obtain ⟨ended, viewsNext⟩ := views.send msg
      have taken := @Step.send maps rebuilt msg
      rw [ended] at taken
      exact ⟨_, taken,
        similar.withChannel settledNext
          (similar.samePage ((Channel.writes_send _ msg).advances seated))
          viewsNext⟩
  | recv _ mapped apart =>
      obtain ⟨highestThen, countedThen, passes⟩ := similar.recv mapped
      have received :
          (rebuilt.recv mapped).received =
            (original.recv mapped).received := by
        rw [passes]
      have pages :
          (rebuilt.recv mapped).pages = (original.recv mapped).pages := by
        rw [passes]
      have receiver :
          (rebuilt.recv mapped).receiver =
            { (original.recv mapped).receiver with
              highestMsgId := highestThen } := by
        rw [passes]
      have taken :=
        @Step.recv maps rebuilt mapped fun held =>
          apart (views.held _ (by
            rw [receiver] at held
            exact held))
      rw [received] at taken
      exact ⟨_, taken, settledNext, views.withPages pages views.fresh,
        highestThen, countedThen, receiver⟩
  | others _ pages fresh undisturbed =>
      obtain ⟨highest, counted, receiver⟩ := similar.receiver
      have samePages : rebuilt.pages = original.pages := views.pages
      have sameFresh : rebuilt.fresh = original.fresh := views.fresh
      have counts := undisturbed.counts
      refine ⟨_, .others rebuilt pages fresh ⟨undisturbed.proper, ?_, ?_, ?_⟩,
        settledNext, views.withPages rfl rfl, highest,
        counted.trans counts, receiver⟩
      · exact sameFresh ▸ undisturbed.grows
      · exact samePages ▸ undisturbed.frame
      · rw [samePages, receiver]
        exact counts

end Similar

theorem Similar.run
    {maps : Maps}
    {bare : Prop}
    {lost : Nat}
    {original rebuilt final : System}
    {events : List Event}
    (similar : Similar bare lost original rebuilt)
    (run :
      Run ((Step maps).guarded (Unmissed maps bare)) original events final) :
    ∃ other,
      Run (Step maps) rebuilt events other ∧
        Similar bare lost final other := by
  obtain ⟨other, otherRun, similarThen⟩ :=
    @Run.simulation System Event _ System Event (Step maps)
      (Similar bare lost) (fun event => [event])
      (fun related taken => by
        obtain ⟨next, takenToo, relatedNext⟩ := related.step taken
        exact ⟨next, .single takenToo, relatedNext⟩)
      original final events run rebuilt similar
  rw [List.flatMap_singleton'] at otherRun
  exact ⟨other, otherRun, similarThen⟩

/--
The same page, last message and identity to send with, and the same page and
last message to receive from.
-/
structure Resumes (client rebuilt : LlmpClient) : Prop where
  current : rebuilt.sender.current = client.sender.current
  lastMsgSent : rebuilt.sender.lastMsgSent = client.sender.lastMsgSent
  id : rebuilt.sender.id = client.sender.id
  currentRecvShmem :
    rebuilt.receiver.currentRecvShmem = client.receiver.currentRecvShmem
  lastMsgRecvd :
    rebuilt.receiver.lastMsgRecvd = client.receiver.lastMsgRecvd

theorem Similar.resumes
    {bare : Prop}
    {lost : Nat}
    {original rebuilt : System}
    (similar : Similar bare lost original rebuilt) :
    Resumes original.client rebuilt.client := by
  obtain ⟨highest, _, receiver⟩ := similar.receiver
  have sender :
      rebuilt.channel.sender.current = original.channel.sender.current ∧
        rebuilt.channel.sender.lastMsgSent =
          original.channel.sender.lastMsgSent ∧
        rebuilt.channel.sender.id = original.channel.sender.id := by
    by_cases isBare : bare
    · rw [similar.views.whole isBare]
      exact ⟨rfl, rfl, rfl⟩
    · rw [(similar.views.rest isBare).2]
      exact ⟨rfl, rfl, rfl⟩
  obtain ⟨current, lastMsgSent, id⟩ := sender
  exact ⟨current, lastMsgSent, id, by rw [receiver], by rw [receiver]⟩

theorem rebuilt_sender
    {client : LlmpClient}
    (prunes : client.sender.keepPagesForever = false)
    (idle : client.sender.hasUnsentMessage = false) :
    client.rebuilt.sender =
      { client.sender with earlier := [], unusedShmemCache := [] } := by
  simp only [rebuilt, prunes, idle]

theorem rebuilt_sender_bare
    {client : LlmpClient}
    (prunes : client.sender.keepPagesForever = false)
    (idle : client.sender.hasUnsentMessage = false)
    (isBare : Bare client) :
    client.rebuilt.sender = client.sender := by
  obtain ⟨⟨id, last, earlier, current, cache, keeps, unsent⟩, receiver⟩ :=
    client
  obtain ⟨noEarlier, noneUnused⟩ := isBare
  cases noEarlier
  cases noneUnused
  exact rebuilt_sender prunes idle

theorem Settled.similar_rebuilt
    {system : System}
    (settled : Settled system)
    (idle : system.client.sender.hasUnsentMessage = false) :
    Similar (Bare system.client) system.client.sender.earlier.length system
      { system with client := system.client.rebuilt } where
  settled := settled
  views := by
    have prunes : system.client.sender.keepPagesForever = false :=
      settled.seated.prunes
    constructor
    · intro isBare
      rw [System.channel, rebuilt_sender_bare prunes idle isBare]
      rfl
    · intro _
      refine ⟨Nat.le_refl _, ?_⟩
      rw [System.channel, rebuilt_sender prunes idle]
      simp [System.channel, Channel.forget]
  receiver := by
    refine ⟨0, Nat.zero_le _, ?_⟩
    simp [LlmpClient.rebuilt, ← settled.standing.receiverId]

/--
A client resumes where it stopped if and only if it is rebuilt from its
description or from the environment, and not from its maps.  It then does in
every run what the original would have done, as long as the original would not
have used the pages besides its current one.
-/
theorem reattach_resumes_iff
    {maps : Maps}
    {system : System}
    (reachable : Reachable maps system)
    (idle : system.client.sender.hasUnsentMessage = false)
    {canMap : ShMemDescription → Bool}
    (mappable : Mappable system.pages canMap system.client)
    (env : Env)
    (path : Path) :
    (∃ rebuilt,
      reattach system.pages canMap env system.client path = .ok rebuilt ∧
        Resumes system.client rebuilt ∧
        ∀ events final,
          Run
              ((Step maps).guarded (Unmissed maps (Bare system.client)))
              system events final →
            ∃ other,
              Run (Step maps) { system with client := rebuilt } events
                  other ∧
                other.pages = final.pages ∧
                other.fresh = final.fresh ∧
                Resumes final.client other.client) ↔
      path ≠ .existingShmem := by
  have settled := reachable.settled
  constructor
  · rintro ⟨rebuilt, built, resumes, _⟩ rfl
    have misplaced :=
      @reattach_existingShmem system.pages canMap system.client
        settled.attached env
    obtain rfl := Except.ok.inj (misplaced.symm.trans built)
    exact settled.apart (List.mem_cons.mpr (.inl resumes.current))
  · intro kept
    have similar := settled.similar_rebuilt idle
    refine ⟨system.client.rebuilt,
      reattach_eq settled.attached mappable env kept, similar.resumes, ?_⟩
    intro events final run
    obtain ⟨other, otherRun, similarThen⟩ := similar.run run
    exact ⟨other, otherRun, similarThen.views.pages,
      similarThen.views.fresh, similarThen.resumes⟩

/-- The broker's first page, and no other map. -/
def brokerPages : ShMemId → LlmpPage :=
  Function.update (fun _ => .zeroed 0) 0
    { LlmpPage.zeroed 1048576 with
      magic := true
      sizeTotal := 1048528 }

/-- A new client of that broker. -/
def newClient : System :=
  (LlmpClient.new .small brokerPages 1 0 7).get rfl

theorem newClient_reachable : Reachable .small newClient := by
  refine .new ?_ (rfl : (brokerPages 0).magic = true)
    (Option.some_get _).symm
  intro id isPage
  by_cases first : id = 0
  · subst first
    exact ⟨Nat.zero_lt_one, rfl⟩
  · rw [brokerPages, Function.update_of_ne first] at isPage
    cases isPage

theorem newClient_mappable :
    Mappable newClient.pages (fun _ => true) newClient.client :=
  ⟨rfl, rfl⟩

/-- A broker that has sent a message. -/
def brokerSent : Channel :=
  (((Channel.new .small 0 false).get Channel.isSome_new_client).sendBufWithFlags .small 1 0
    [7] true).channel

/-- Its page, and no other map. -/
def sentPages : ShMemId → LlmpPage :=
  Function.update (fun _ => .zeroed 0) 0 (brokerSent.pages 0)

/-- A client of that broker that has sent a message of its own. -/
def sendingClient : System :=
  let started := (LlmpClient.new .small sentPages 1 0 7).get rfl
  started.withChannel (started.channel.sendBufWithFlags .small 2 0 [8] true).channel

/-- It has received the broker's message as well. -/
def busyClient : System :=
  sendingClient.afterRecv true

theorem busyClient_reachable : Reachable .small busyClient := by
  have started : Reachable .small ((LlmpClient.new .small sentPages 1 0 7).get rfl) := by
    refine .new ?_ (by decide +kernel : (sentPages 0).magic = true) (Option.some_get _).symm
    intro id isPage
    by_cases first : id = 0
    · subst first
      exact ⟨Nat.zero_lt_one, by decide +kernel⟩
    · rw [sentPages, Function.update_of_ne first] at isPage
      cases isPage
  exact
    .step (.step started (.sendBufWithFlags _ 2 0 [8] true))
      (.recv sendingClient true (by decide +kernel))

theorem reattach_resumes_iff_busy_client :
    busyClient.client.sender.lastMsgSent.isSome ∧
      busyClient.client.receiver.lastMsgRecvd.isSome ∧
      ∃ rebuilt,
        reattach busyClient.pages (fun _ => true) (fun _ => none)
            busyClient.client (.env "_AFL_ENV_FUZZER_BROKER_CLIENT") = .ok rebuilt ∧
          Resumes busyClient.client rebuilt := by
  obtain ⟨rebuilt, built, resumes, _⟩ :=
    (@reattach_resumes_iff .small busyClient busyClient_reachable (by decide +kernel)
      (fun _ => true) ⟨rfl, rfl⟩ (fun _ => none) (.env "_AFL_ENV_FUZZER_BROKER_CLIENT")).mpr (by decide)
  exact ⟨by decide +kernel, by decide +kernel, rebuilt, built, resumes⟩

/-- A client put where its maps are sends on the broker's page. -/
theorem reattached_sender_on_broker_page :
    ∃ rebuilt,
      Reachable .small newClient ∧
        newClient.client.sender.hasUnsentMessage = false ∧
        Mappable newClient.pages (fun _ => true) newClient.client ∧
        reattach newClient.pages (fun _ => true) (fun _ => none)
            newClient.client .existingShmem = .ok rebuilt ∧
        rebuilt.sender.current =
          newClient.client.receiver.currentRecvShmem ∧
        ¬Resumes newClient.client rebuilt := by
  refine ⟨_, newClient_reachable, rfl, newClient_mappable,
    reattach_existingShmem newClient_reachable.settled.attached _, rfl, ?_⟩
  intro resumes
  have same : (0 : ShMemId) = 1 := resumes.current
  cases same

end LlmpClient

end MeFuzz.Llmp
