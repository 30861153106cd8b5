import MeFuzz.LlmpSender

namespace MeFuzz.Llmp

/-!
# The receiving end

A receiver follows the messages of its current page until it finds an end of
page, and goes on with the page that this message names.  `recv` calls itself
after it has changed the page; here that call is a pass of its own, so that
other parties may also act in between.
-/

/-- `LlmpReceiver`, without the time of its last message. -/
structure LlmpReceiver where
  id : ClientId
  lastMsgRecvd : Option Nat
  currentRecvShmem : ShMemId
  highestMsgId : Nat
  deriving Repr, DecidableEq

/-- A receiver that has read nothing of a page. -/
def LlmpReceiver.atStart (id : ClientId) (page : ShMemId) : LlmpReceiver where
  id := id
  lastMsgRecvd := none
  currentRecvShmem := page
  highestMsgId := 0

/-- What a pass of `recv` ends with; `again` is its call of itself. -/
inductive Received where
  | nothing
  | message (msg : LlmpMsg)
  | again
  | shuttingDown
  | error
  | panicked
  deriving Repr, DecidableEq

/-- A receiver together with the shared maps, and what it has just received. -/
structure Reading where
  received : Received
  pages : ShMemId → LlmpPage
  receiver : LlmpReceiver

/-- The page is marked `safe_to_unmap`. -/
def LlmpPage.markSafeToUnmap (page : LlmpPage) : LlmpPage :=
  { page with safeToUnmap := true }

namespace LlmpReceiver

/-- The highest message id, from the receiver's cache or else from the page. -/
def latestMsgId (receiver : LlmpReceiver) (page : LlmpPage) : Nat :=
  match receiver.lastMsgRecvd with
  | none => page.currentMsgId
  | some lastMsg =>
      if (page.msgAt lastMsg).messageId < receiver.highestMsgId then
        receiver.highestMsgId
      else page.currentMsgId

/-- Where the next message is, if there is one; `none` when it is off the page. -/
def nextMsg
    (receiver : LlmpReceiver)
    (page : LlmpPage)
    (currentMsgId : Nat) : Option (Option Nat) :=
  if currentMsgId = 0 then some none
  else
    match receiver.lastMsgRecvd with
    | none => some (some 0)
    | some lastMsg =>
        if (page.msgAt lastMsg).messageId = currentMsgId then some none
        else
          (nextMsgPtrChecked page.mapSize lastMsg (page.msgAt lastMsg)
            llmpMsgHeaderLen).map some

/--
Follow an end of page.  The position on the old page is given up before the
new page is mapped; `mapped` is whether the system can map it.
-/
def followEop
    (pages : ShMemId → LlmpPage)
    (receiver : LlmpReceiver)
    (msg : LlmpMsg)
    (mapped : Bool) : Reading :=
  let receiver := { receiver with lastMsgRecvd := none, highestMsgId := 0 }
  let pages :=
    Function.update pages receiver.currentRecvShmem
      (pages receiver.currentRecvShmem).markSafeToUnmap
  match msg.buf, mapped with
  | .sharedMapInfo _ shmStr, true =>
      if (pages shmStr).magic then
        ⟨.again,
          Function.update pages shmStr (pages shmStr).markSafeToUnmap,
          { receiver with currentRecvShmem := shmStr }⟩
      else ⟨.panicked, pages, receiver⟩
  | _, _ => ⟨.error, pages, receiver⟩

/-- `recv`, up to its call of itself. -/
def recv
    (pages : ShMemId → LlmpPage)
    (receiver : LlmpReceiver)
    (mapped : Bool) : Reading :=
  let page := pages receiver.currentRecvShmem
  let currentMsgId := receiver.latestMsgId page
  let receiver := { receiver with highestMsgId := currentMsgId }
  match receiver.nextMsg page currentMsgId with
  | none => ⟨.error, pages, receiver⟩
  | some none => ⟨.nothing, pages, receiver⟩
  | some (some offset) =>
      let msg := page.msgAt offset
      if !msg.inShmem offset page.mapSize then ⟨.error, pages, receiver⟩
      else if msg.tag = llmpTagUnset then ⟨.panicked, pages, receiver⟩
      else if msg.tag = llmpTagExiting then
        if msg.bufLen = 0 then ⟨.shuttingDown, pages, receiver⟩
        else ⟨.panicked, pages, receiver⟩
      else if msg.tag = llmpTagEndOfPage then
        if msg.bufLen < sharedMapInfoLen then ⟨.panicked, pages, receiver⟩
        else followEop pages receiver msg mapped
      else
        ⟨.message msg, pages, { receiver with lastMsgRecvd := some offset }⟩

end LlmpReceiver

end MeFuzz.Llmp
