import MeFuzz.ByteStream
import Mathlib.Logic.Function.Basic

namespace MeFuzz.Llmp

/-!
# Shared maps of the message channel

A sender and a receiver share pages of memory.  A page is a header followed by
messages; a message is a header followed by its payload, padded so that the
next message is aligned.  A pointer to a message is its offset from the first
message of the page.  What a page holds is kept by offsets: an offset has an
entry if a message header was written there and not overwritten since.
-/

abbrev Tag := UInt32

abbrev ClientId := UInt32

abbrev Flags := UInt32

/-- The identity under which a shared map can be mapped again. -/
abbrev ShMemId := Nat

def llmpTagUnset : Tag := 0xDEADAF

def llmpTagUninitialized : Tag := 0xA143AF11

def llmpTagEndOfPage : Tag := 0xAF1E0F1

def llmpTagNewShmClient : Tag := 0xC11E471

def llmpTagExiting : Tag := 0x13C5171

def llmpSlowReceiverPanic : Tag := 0x70051041

def llmpFlagInitialized : Flags := 0

/-- `LLMP_CFG_INITIAL_MAP_SIZE` with and without the feature `llmp_small_maps`. -/
inductive Maps where
  | small
  | large
  deriving Repr, DecidableEq

def Maps.initialMapSize : Maps → Nat
  | .small => 2 ^ 20
  | .large => 2 ^ 28

def llmpCfgMaxPendingUnreadPages : Nat := 3

def llmpCfgAlignment : Nat := 64

/-- `size_of::<LlmpPage>()`. -/
def llmpPageHeaderLen : Nat := 48

/-- `size_of::<LlmpMsg>()`. -/
def llmpMsgHeaderLen : Nat := 40

/-- `size_of::<LlmpPayloadSharedMapInfo>()`. -/
def sharedMapInfoLen : Nat := 32

/-- `llmp_align`. -/
def llmpAlign (toAlign : Nat) : Nat :=
  if toAlign % llmpCfgAlignment = 0 then toAlign
  else toAlign + llmpCfgAlignment - toAlign % llmpCfgAlignment

/-- `EOP_MSG_SIZE`. -/
def eopMsgSize : Nat :=
  llmpAlign (llmpMsgHeaderLen + sharedMapInfoLen)

/-- `usize::next_power_of_two`. -/
def nextPowerOfTwo (n : Nat) : Nat :=
  if n ≤ 1 then 1 else 2 ^ ((n - 1).log2 + 1)

/-- `next_shmem_size`. -/
def nextShmemSize (maps : Maps) (maxAlloc : Nat) : Nat :=
  nextPowerOfTwo
    (max (maxAlloc * 2 + eopMsgSize + llmpPageHeaderLen)
      (maps.initialMapSize - 1))

/-- A payload: bytes, or the `LlmpPayloadSharedMapInfo` of an end of page. -/
inductive Buf where
  | bytes (buf : Bytes)
  | sharedMapInfo (mapSize : Nat) (shmStr : ShMemId)
  deriving Repr, DecidableEq

/-- `LlmpMsg`, without the identity of a broker, which nothing here reads. -/
structure LlmpMsg where
  tag : Tag
  sender : ClientId
  flags : Flags
  messageId : Nat
  bufLen : Nat
  bufLenPadded : Nat
  buf : Buf
  deriving Repr, DecidableEq

/-- Memory that no message was written to. -/
def LlmpMsg.zeroed : LlmpMsg where
  tag := 0
  sender := 0
  flags := 0
  messageId := 0
  bufLen := 0
  bufLenPadded := 0
  buf := .bytes []

/-- The bytes from the start of a message to the start of the next. -/
def LlmpMsg.extent (msg : LlmpMsg) : Nat :=
  llmpMsgHeaderLen + msg.bufLenPadded

/-- What a sender puts into a message and a receiver gets out of it. -/
structure Message where
  tag : Tag
  flags : Flags
  payload : Bytes
  deriving Repr, DecidableEq

/-- The message as `recv_buf_with_flags` returns it. -/
def LlmpMsg.content (msg : LlmpMsg) : Message where
  tag := msg.tag
  flags := msg.flags
  payload :=
    match msg.buf with
    | .bytes buf => buf.take msg.bufLen
    | .sharedMapInfo _ _ => []

/-- `LlmpPage`, with the length of the map that it lies in. -/
structure LlmpPage where
  mapSize : Nat
  magic : Bool
  senderId : ClientId
  safeToUnmap : Bool
  currentMsgId : Nat
  sizeTotal : Nat
  sizeUsed : Nat
  maxAllocSize : Nat
  messages : Nat → Option LlmpMsg

namespace LlmpPage

/-- A new map. -/
def zeroed (mapSize : Nat) : LlmpPage where
  mapSize := mapSize
  magic := false
  senderId := 0
  safeToUnmap := false
  currentMsgId := 0
  sizeTotal := 0
  sizeUsed := 0
  maxAllocSize := 0
  messages := fun _ => none

/-- The header at an offset; stale or fresh memory reads as zeroes here. -/
def msgAt (page : LlmpPage) (offset : Nat) : LlmpMsg :=
  (page.messages offset).getD .zeroed

/-- Change the header at an offset. -/
def updateMsg
    (page : LlmpPage)
    (offset : Nat)
    (change : LlmpMsg → LlmpMsg) : LlmpPage :=
  { page with
    messages :=
      Function.update page.messages offset
        (some (change (page.msgAt offset))) }

/-- Headers whose memory is written over are gone. -/
def overwrite (page : LlmpPage) (first last : Nat) : LlmpPage :=
  { page with
    messages := fun offset =>
      if first < offset ∧ offset < last then none else page.messages offset }

end LlmpPage

/-- `llmp_page_init`; `none` when one of its assertions fails. -/
def llmpPageInit
    (page : LlmpPage)
    (senderId : ClientId)
    (allowReinit : Bool) : Option LlmpPage :=
  if !allowReinit && page.magic then none
  else if page.mapSize - llmpPageHeaderLen = 0 then none
  else
    some
      ({ page with
          magic := true
          senderId := senderId
          safeToUnmap := false
          currentMsgId := 0
          sizeTotal := page.mapSize - llmpPageHeaderLen
          sizeUsed := 0
          maxAllocSize := 0 }.updateMsg 0
        fun msg => { msg with messageId := 0, tag := llmpTagUnset })

/-- `LlmpMsg::in_shmem` for the message at an offset. -/
def LlmpMsg.inShmem
    (msg : LlmpMsg)
    (offset mapSize : Nat) : Bool :=
  let bufPtr := llmpPageHeaderLen + offset + llmpMsgHeaderLen
  if llmpPageHeaderLen < bufPtr ∧ bufPtr + llmpMsgHeaderLen ≤ mapSize then
    bufPtr + (msg.bufLenPadded + llmpMsgHeaderLen) ≤ mapSize
  else false

/-- `_llmp_next_msg_ptr`. -/
def nextMsgPtr (lastMsg : Nat) (msg : LlmpMsg) : Nat :=
  lastMsg + msg.extent

/-- `llmp_next_msg_ptr_checked`. -/
def nextMsgPtrChecked
    (mapSize lastMsg : Nat)
    (msg : LlmpMsg)
    (allocSize : Nat) : Option Nat :=
  let next := nextMsgPtr lastMsg msg
  if llmpPageHeaderLen + next + allocSize ≤ mapSize then some next else none

/-- `next_power_of_two` is no smaller than its argument. -/
theorem le_nextPowerOfTwo (n : Nat) : n ≤ nextPowerOfTwo n := by
  unfold nextPowerOfTwo
  split
  · assumption
  · have below := @Nat.lt_log2_self (n - 1)
    omega

theorem eop_fits_nextShmemSize
    (maps : Maps)
    (maxAlloc : Nat) :
    llmpPageHeaderLen + eopMsgSize ≤ nextShmemSize maps maxAlloc := by
  refine Nat.le_trans ?_ (le_nextPowerOfTwo _)
  omega

theorem eopMsgSize_eq : eopMsgSize = 128 := by
  decide

theorem llmpPageHeaderLen_eq : llmpPageHeaderLen = 48 :=
  rfl

theorem llmpMsgHeaderLen_eq : llmpMsgHeaderLen = 40 :=
  rfl

theorem nextMsgPtrChecked_eq
    {mapSize lastMsg allocSize : Nat}
    {msg : LlmpMsg}
    (room :
      llmpPageHeaderLen + (lastMsg + msg.extent) + allocSize ≤ mapSize) :
    nextMsgPtrChecked mapSize lastMsg msg allocSize =
      some (lastMsg + msg.extent) :=
  if_pos room

theorem le_llmpAlign (toAlign : Nat) : toAlign ≤ llmpAlign toAlign := by
  unfold llmpAlign llmpCfgAlignment
  split
  · exact Nat.le_refl _
  · omega

end MeFuzz.Llmp
