import MeFuzz.LlmpMemory

namespace MeFuzz.Llmp

/-!
# The sending end

A sender fills its current page, links it to a new page when it is full, and
keeps old pages to use them again.  Old pages go to the cache once their
`safe_to_unmap` flag is set, which the receiver does when it maps a page.
-/

/--
`LlmpSender`.  The source's `out_shmems` are `earlier` followed by `current`;
the cache lists the page that was put in last first.
-/
structure LlmpSender where
  id : ClientId
  lastMsgSent : Option Nat
  earlier : List ShMemId
  current : ShMemId
  unusedShmemCache : List ShMemId
  keepPagesForever : Bool
  hasUnsentMessage : Bool
  deriving Repr, DecidableEq

/--
A sender and the shared maps of the system.  Maps from `fresh` on do not exist
yet.
-/
structure Channel where
  pages : ShMemId → LlmpPage
  fresh : ShMemId
  sender : LlmpSender

/-- How a call on the sender ends. -/
inductive Outcome where
  | ok (channel : Channel)
  | error (channel : Channel)
  | panicked (channel : Channel)

/-- The channel that a call leaves behind. -/
def Outcome.channel : Outcome → Channel
  | .ok channel => channel
  | .error channel => channel
  | .panicked channel => channel

/-- How an allocation ends; `full` leaves everything as it was. -/
inductive Alloc where
  | allocated (channel : Channel) (msg : Nat)
  | full
  | error (channel : Channel)
  | panicked (channel : Channel)

/-- The `buf_len_padded` of a payload behind the used part of a page. -/
def paddedLength (sizeUsed bufLen : Nat) : Nat :=
  let msgStart := llmpPageHeaderLen + sizeUsed
  llmpAlign (msgStart + bufLen + llmpMsgHeaderLen) - msgStart -
    llmpMsgHeaderLen

/-- Tags that `send_buf` refuses. -/
def Reserved (tag : Tag) : Prop :=
  tag = llmpTagNewShmClient ∨ tag = llmpTagEndOfPage ∨
    tag = llmpTagUninitialized ∨ tag = llmpTagUnset

instance (tag : Tag) : Decidable (Reserved tag) :=
  inferInstanceAs (Decidable (_ ∨ _))

namespace Channel

/-- `LlmpSender::new`, on a system that has no shared maps yet. -/
def new
    (maps : Maps)
    (id : ClientId)
    (keepPagesForever : Bool) : Option Channel :=
  (llmpPageInit (.zeroed maps.initialMapSize) id false).map fun page =>
    { pages := Function.update (fun _ => .zeroed 0) 0 page
      fresh := 1
      sender :=
        { id := id
          lastMsgSent := none
          earlier := []
          current := 0
          unusedShmemCache := []
          keepPagesForever := keepPagesForever
          hasUnsentMessage := false } }

theorem isSome_new_client : (new .small 1 false).isSome = true :=
  rfl

theorem isSome_new_broker : (new .small 0 true).isSome = true :=
  rfl

/-- The sender's current page. -/
def outPage (channel : Channel) : LlmpPage :=
  channel.pages channel.sender.current

/-- Write a page. -/
def setPage
    (channel : Channel)
    (id : ShMemId)
    (page : LlmpPage) : Channel :=
  { channel with pages := Function.update channel.pages id page }

/-- The current page has no room for a payload of this length. -/
def PageFull (channel : Channel) (bufLen : Nat) : Prop :=
  channel.outPage.sizeTotal <
    channel.outPage.sizeUsed + llmpMsgHeaderLen +
      paddedLength channel.outPage.sizeUsed bufLen + eopMsgSize

instance (channel : Channel) (bufLen : Nat) :
    Decidable (channel.PageFull bufLen) :=
  inferInstanceAs (Decidable (_ < _))

/-- The id of the next message; `none` when the last one was never committed. -/
def nextMessageId (channel : Channel) : Option Nat :=
  match channel.sender.lastMsgSent with
  | none => some 1
  | some lastMsg =>
      let lastId := (channel.outPage.msgAt lastMsg).messageId
      if channel.outPage.currentMsgId = lastId then some (lastId + 1) else none

/-- `alloc_next_if_space`. -/
def allocNextIfSpace (channel : Channel) (bufLen : Nat) : Alloc :=
  if channel.sender.hasUnsentMessage then .panicked channel
  else if channel.PageFull bufLen then .full
  else
    match channel.nextMessageId with
    | none => .panicked channel
    | some messageId =>
        let page := channel.outPage
        let ret := page.sizeUsed
        let bufLenPadded := paddedLength page.sizeUsed bufLen
        let written :=
          ((page.overwrite ret (ret + llmpMsgHeaderLen + bufLen)).updateMsg ret
            fun msg =>
              { msg with
                messageId := messageId
                bufLen := bufLen
                bufLenPadded := bufLenPadded
                tag := llmpTagUninitialized }).updateMsg
            (ret + llmpMsgHeaderLen + bufLenPadded)
            fun msg => { msg with tag := llmpTagUnset }
        let channel := channel.setPage channel.sender.current
          { written with
            sizeUsed := page.sizeUsed + llmpMsgHeaderLen + bufLenPadded
            maxAllocSize :=
              max page.maxAllocSize (llmpMsgHeaderLen + bufLenPadded) }
        .allocated
          { channel with
            sender := { channel.sender with hasUnsentMessage := true } }
          ret

/-- Tag, flags and payload of the message that was allocated. -/
def fill
    (channel : Channel)
    (msg : Nat)
    (tag : Tag)
    (flags : Flags)
    (buf : Buf) : Channel :=
  channel.setPage channel.sender.current
    (channel.outPage.updateMsg msg fun header =>
      { header with tag := tag, flags := flags, buf := buf })

/-- `send`: commit the message that was allocated. -/
def send (channel : Channel) (msg : Nat) : Outcome :=
  if channel.sender.lastMsgSent = some msg then .panicked channel
  else if (channel.outPage.msgAt msg).tag = llmpTagUnset then
    .panicked channel
  else
    let page := channel.outPage.updateMsg msg fun header =>
      { header with sender := channel.sender.id }
    if llmpPageHeaderLen + msg < page.sizeTotal then
      let messageId := page.currentMsgId + 1
      let page := page.updateMsg msg fun header =>
        { header with messageId := messageId }
      let channel := channel.setPage channel.sender.current
        { page with currentMsgId := messageId }
      .ok
        { channel with
          sender :=
            { channel.sender with
              lastMsgSent := some msg
              hasUnsentMessage := false } }
    else .error (channel.setPage channel.sender.current page)

/--
`prune_old_pages`.  When too many pages are unread, the sender sends one last
message and panics; without room for it, it prunes again without end.
-/
def pruneOldPages (channel : Channel) : Outcome :=
  let unmap := channel.sender.earlier.takeWhile fun id =>
    (channel.pages id).safeToUnmap
  if unmap = [] ∧
      llmpCfgMaxPendingUnreadPages < channel.sender.earlier.length + 1 then
    match channel.allocNextIfSpace 0 with
    | .allocated channel msg =>
        match (channel.fill msg llmpSlowReceiverPanic llmpFlagInitialized
          (.bytes [])).send msg with
        | .ok channel => .panicked channel
        | .error channel => .panicked channel
        | .panicked channel => .panicked channel
    | .full => .panicked channel
    | .error channel => .panicked channel
    | .panicked channel => .panicked channel
  else
    .ok
      { channel with
        sender :=
          { channel.sender with
            earlier := channel.sender.earlier.drop unmap.length
            unusedShmemCache :=
              unmap.reverse ++ channel.sender.unusedShmemCache } }

/-- The first cached page that is large enough; the ones before it are dropped. -/
def findCached
    (pages : ShMemId → LlmpPage)
    (nextMinShmemSize : Nat) :
    List ShMemId → Option (ShMemId × List ShMemId)
  | [] => none
  | id :: rest =>
      if (pages id).mapSize < nextMinShmemSize then
        findCached pages nextMinShmemSize rest
      else some (id, rest)

/--
`new_or_unused_shmem`, as an allocation whose result is the page; `granted` is
whether the system hands out a new map.
-/
def newOrUnusedShmem
    (channel : Channel)
    (senderId : ClientId)
    (nextMinShmemSize : Nat)
    (granted : Bool) : Alloc :=
  match findCached channel.pages nextMinShmemSize
    channel.sender.unusedShmemCache with
  | some (id, rest) =>
      let channel :=
        { channel with
          sender := { channel.sender with unusedShmemCache := rest } }
      match llmpPageInit (channel.pages id) senderId true with
      | some page => .allocated (channel.setPage id page) id
      | none => .panicked channel
  | none =>
      let channel :=
        { channel with
          sender := { channel.sender with unusedShmemCache := [] } }
      if granted then
        match llmpPageInit (.zeroed nextMinShmemSize) senderId false with
        | some page =>
            .allocated
              { channel.setPage channel.fresh page with
                fresh := channel.fresh + 1 }
              channel.fresh
        | none => .panicked channel
      else .error channel

/-- `alloc_eop`. -/
def allocEop (channel : Channel) : Alloc :=
  let page := channel.outPage
  if page.sizeTotal < page.sizeUsed + eopMsgSize then .panicked channel
  else
    let ret :=
      match channel.sender.lastMsgSent with
      | none => some 0
      | some lastMsg =>
          nextMsgPtrChecked page.mapSize lastMsg (page.msgAt lastMsg)
            eopMsgSize
    match ret with
    | none => .error channel
    | some ret =>
        if (page.msgAt ret).tag = llmpTagUninitialized then .panicked channel
        else
          let messageId :=
            match channel.sender.lastMsgSent with
            | none => 1
            | some lastMsg => (page.msgAt lastMsg).messageId + 1
          let written :=
            (page.overwrite ret
              (ret + llmpMsgHeaderLen + sharedMapInfoLen)).updateMsg ret
              fun msg =>
                { msg with
                  bufLen := sharedMapInfoLen
                  bufLenPadded := sharedMapInfoLen
                  messageId := messageId
                  tag := llmpTagEndOfPage }
          .allocated
            (channel.setPage channel.sender.current
              { written with sizeUsed := page.sizeUsed + eopMsgSize })
            ret

/-- The end of `handle_out_eop`: close the current page with a link to a new one. -/
def linkTo (channel : Channel) (newMap : ShMemId) : Outcome :=
  match channel.allocEop with
  | .allocated allocated out =>
      let info : Buf :=
        .sharedMapInfo (allocated.pages newMap).mapSize newMap
      match (allocated.setPage allocated.sender.current
        (allocated.outPage.updateMsg out fun header =>
          { header with buf := info })).send out with
      | .ok closed =>
          .ok
            { closed with
              sender :=
                { closed.sender with
                  earlier := closed.sender.earlier ++ [closed.sender.current]
                  current := newMap
                  lastMsgSent := none } }
      | .error closed => .error closed
      | .panicked closed => .panicked closed
  | .full => .error channel
  | .error allocated => .error allocated
  | .panicked allocated => .panicked allocated

section

variable (maps : Maps)

/-- What `handle_out_eop` does once it has pruned: get a page and link to it. -/
def linkNewPage (channel : Channel) (granted : Bool) : Outcome :=
  let oldMap := channel.outPage
  match channel.newOrUnusedShmem oldMap.senderId
    (nextShmemSize maps oldMap.maxAllocSize) granted with
  | .allocated channel newMap =>
      (channel.setPage newMap
        { channel.pages newMap with
          currentMsgId := 0
          maxAllocSize := oldMap.maxAllocSize }).linkTo newMap
  | .full => .error channel
  | .error channel => .error channel
  | .panicked channel => .panicked channel

/-- `handle_out_eop`. -/
def handleOutEop (channel : Channel) (granted : Bool) : Outcome :=
  if channel.sender.keepPagesForever then channel.linkNewPage maps granted
  else
    match channel.pruneOldPages with
    | .ok channel => channel.linkNewPage maps granted
    | .error channel => .error channel
    | .panicked channel => .panicked channel

/-- `alloc_next`. -/
def allocNext
    (channel : Channel)
    (bufLen : Nat)
    (granted : Bool) : Alloc :=
  match channel.allocNextIfSpace bufLen with
  | .full =>
      match channel.handleOutEop maps granted with
      | .ok channel =>
          match channel.allocNextIfSpace bufLen with
          | .full => .error channel
          | .allocated channel msg => .allocated channel msg
          | .error channel => .error channel
          | .panicked channel => .panicked channel
      | .error channel => .error channel
      | .panicked channel => .panicked channel
  | .allocated channel msg => .allocated channel msg
  | .error channel => .error channel
  | .panicked channel => .panicked channel

/-- `send_buf_with_flags`. -/
def sendBufWithFlags
    (channel : Channel)
    (tag : Tag)
    (flags : Flags)
    (buf : Bytes)
    (granted : Bool) : Outcome :=
  if Reserved tag then .error channel
  else
    match channel.allocNext maps buf.length granted with
    | .allocated channel msg =>
        (channel.fill msg tag flags (.bytes buf)).send msg
    | .full => .error channel
    | .error channel => .error channel
    | .panicked channel => .panicked channel

/-- `send_buf`. -/
def sendBuf
    (channel : Channel)
    (tag : Tag)
    (buf : Bytes)
    (granted : Bool) : Outcome :=
  channel.sendBufWithFlags maps tag llmpFlagInitialized buf granted

end

/-- The messages that a call with this outcome has committed. -/
def committed
    (channel : Channel)
    (message : Message) : Outcome → List Message
  | .ok _ => [message]
  | .error _ => []
  | .panicked after =>
      if after.outPage.currentMsgId = channel.outPage.currentMsgId then []
      else [⟨llmpSlowReceiverPanic, llmpFlagInitialized, []⟩]

end Channel

end MeFuzz.Llmp
