import MeFuzz.LlmpReading

namespace MeFuzz.Llmp

/-!
# What a call of the sender does

Between two calls a sender is ready: its current page holds the messages that
it has sent on it, and has room for an end of page behind them.  A call then
places one message, or first links the page to a new one; nothing else that is
an assertion in the source can fail.
-/

/-- The sender is between two calls; its current page holds these messages. -/
structure Ready (channel : Channel) (opened : List LlmpMsg) : Prop where
  holds : Holds channel.outPage opened
  used : channel.outPage.sizeUsed = endOf opened
  room : endOf opened + eopMsgSize ≤ channel.outPage.sizeTotal
  total :
    channel.outPage.sizeTotal + llmpPageHeaderLen = channel.outPage.mapSize
  position : channel.sender.lastMsgSent = lastOffset opened
  free : (channel.outPage.msgAt (endOf opened)).tag = llmpTagUnset
  committed : channel.sender.hasUnsentMessage = false

namespace LlmpPage

variable (page : LlmpPage)
variable (offset : Nat)
variable (change : LlmpMsg → LlmpMsg)

@[simp] theorem updateMsg_same :
    (page.updateMsg offset change).messages offset =
      some (change (page.msgAt offset)) := by
  simp [updateMsg]

theorem updateMsg_other
    {other : Nat}
    (different : other ≠ offset) :
    (page.updateMsg offset change).messages other =
      page.messages other := by
  simp [updateMsg, different]

@[simp] theorem msgAt_updateMsg_same :
    (page.updateMsg offset change).msgAt offset =
      change (page.msgAt offset) := by
  simp [msgAt]

theorem msgAt_updateMsg_other
    {other : Nat}
    (different : other ≠ offset) :
    (page.updateMsg offset change).msgAt other = page.msgAt other := by
  rw [msgAt, updateMsg_other _ _ _ different, msgAt]

@[simp] theorem updateMsg_magic :
    (page.updateMsg offset change).magic = page.magic :=
  rfl

@[simp] theorem updateMsg_mapSize :
    (page.updateMsg offset change).mapSize = page.mapSize :=
  rfl

@[simp] theorem updateMsg_safeToUnmap :
    (page.updateMsg offset change).safeToUnmap = page.safeToUnmap :=
  rfl

@[simp] theorem updateMsg_sizeTotal :
    (page.updateMsg offset change).sizeTotal = page.sizeTotal :=
  rfl

@[simp] theorem updateMsg_currentMsgId :
    (page.updateMsg offset change).currentMsgId = page.currentMsgId :=
  rfl

@[simp] theorem updateMsg_sizeUsed :
    (page.updateMsg offset change).sizeUsed = page.sizeUsed :=
  rfl

section

variable (first last : Nat)

@[simp] theorem overwrite_magic :
    (page.overwrite first last).magic = page.magic :=
  rfl

@[simp] theorem overwrite_mapSize :
    (page.overwrite first last).mapSize = page.mapSize :=
  rfl

@[simp] theorem overwrite_safeToUnmap :
    (page.overwrite first last).safeToUnmap = page.safeToUnmap :=
  rfl

@[simp] theorem overwrite_sizeTotal :
    (page.overwrite first last).sizeTotal = page.sizeTotal :=
  rfl

@[simp] theorem overwrite_currentMsgId :
    (page.overwrite first last).currentMsgId = page.currentMsgId :=
  rfl

@[simp] theorem overwrite_sizeUsed :
    (page.overwrite first last).sizeUsed = page.sizeUsed :=
  rfl

end

theorem overwrite_below
    {first last below : Nat}
    (isBelow : below ≤ first) :
    (page.overwrite first last).messages below = page.messages below := by
  simp [overwrite, Nat.not_lt.mpr isBelow]

end LlmpPage

@[simp] theorem outPage_setPage
    (channel : Channel)
    (page : LlmpPage) :
    (channel.setPage channel.sender.current page).outPage = page := by
  simp [Channel.outPage, Channel.setPage]

@[simp] theorem setPage_sender
    (channel : Channel)
    (id : ShMemId)
    (page : LlmpPage) :
    (channel.setPage id page).sender = channel.sender :=
  rfl

theorem setPage_other
    (channel : Channel)
    {id other : ShMemId}
    (page : LlmpPage)
    (different : other ≠ id) :
    (channel.setPage id page).pages other = channel.pages other := by
  simp [Channel.setPage, different]

theorem nextMessageId_eq
    {channel : Channel}
    {opened : List LlmpMsg}
    (ready : Ready channel opened) :
    channel.nextMessageId = some (opened.length + 1) := by
  have position := ready.position
  have holds := ready.holds
  unfold Channel.nextMessageId
  induction opened using List.reverseRecOn with
  | nil =>
      rw [position]
      rfl
  | append_singleton front last _ =>
      obtain ⟨here, number, -⟩ := holds.msgAt_endOf
      have count := holds.count
      rw [List.length_append, List.length_singleton] at count
      simp [position, here, number, count]

theorem Holds.snoc
    {page other : LlmpPage}
    {opened : List LlmpMsg}
    {msg : LlmpMsg}
    (holds : Holds page opened)
    (magic : other.magic = page.magic)
    (count : other.currentMsgId = opened.length + 1)
    (sameSize : other.mapSize = page.mapSize)
    (sameBelow :
      ∀ below, below < endOf opened →
        other.messages below = page.messages below)
    (here : other.messages (endOf opened) = some msg)
    (number : msg.messageId = opened.length + 1)
    (room :
      llmpPageHeaderLen + (endOf opened + msg.extent) + llmpMsgHeaderLen ≤
        page.mapSize) :
    Holds other (opened ++ [msg]) where
  initialized := magic.trans holds.initialized
  count := by
    rw [count, List.length_append, List.length_singleton]
  layout := by
    refine holdsFrom_append.mpr
      ⟨holds.layout.frame sameSize (by simpa using sameBelow), ?_⟩
    rw [Nat.zero_add, Nat.zero_add]
    exact ⟨here, number, sameSize ▸ room, trivial⟩

/-- A call has placed one message behind those of the current page. -/
structure Placed
    (before : Channel)
    (opened : List LlmpMsg)
    (msg : LlmpMsg)
    (after : Channel) : Prop where
  ready : Ready after (opened ++ [msg])
  sender :
    after.sender =
      { before.sender with lastMsgSent := some (endOf opened) }
  elsewhere :
    ∀ id, id ≠ before.sender.current → after.pages id = before.pages id
  flag : after.outPage.safeToUnmap = before.outPage.safeToUnmap
  mapSize : after.outPage.mapSize = before.outPage.mapSize
  fresh : after.fresh = before.fresh

/-- The page after the message at an offset was committed on it. -/
def LlmpPage.commit
    (page : LlmpPage)
    (offset : Nat)
    (sender : ClientId) : LlmpPage :=
  { (page.updateMsg offset fun header =>
      { header with sender := sender }).updateMsg offset fun header =>
        { header with messageId := page.currentMsgId + 1 } with
    currentMsgId := page.currentMsgId + 1 }

theorem commit_same
    (page : LlmpPage)
    (offset : Nat)
    (sender : ClientId) :
    (page.commit offset sender).messages offset =
      some
        { page.msgAt offset with
          sender := sender
          messageId := page.currentMsgId + 1 } := by
  simp [LlmpPage.commit]

theorem commit_other
    (page : LlmpPage)
    {offset other : Nat}
    (sender : ClientId)
    (different : other ≠ offset) :
    (page.commit offset sender).messages other = page.messages other := by
  unfold LlmpPage.commit
  rw [LlmpPage.updateMsg_other _ _ _ different,
    LlmpPage.updateMsg_other _ _ _ different]

theorem send_eq
    {channel : Channel}
    {offset : Nat}
    (notSent : channel.sender.lastMsgSent ≠ some offset)
    (tagged : (channel.outPage.msgAt offset).tag ≠ llmpTagUnset)
    (onPage : llmpPageHeaderLen + offset < channel.outPage.sizeTotal) :
    channel.send offset =
      .ok
        { channel.setPage channel.sender.current
            (channel.outPage.commit offset channel.sender.id) with
          sender :=
            { channel.sender with
              lastMsgSent := some offset
              hasUnsentMessage := false } } := by
  unfold Channel.send
  rw [if_neg notSent, if_neg tagged]
  exact if_pos onPage

/-- The page after a message was allocated behind its used part. -/
def LlmpPage.allocate
    (page : LlmpPage)
    (messageId bufLen : Nat) : LlmpPage :=
  let ret := page.sizeUsed
  let bufLenPadded := paddedLength page.sizeUsed bufLen
  { ((page.overwrite ret (ret + llmpMsgHeaderLen + bufLen)).updateMsg ret
      fun msg =>
        { msg with
          messageId := messageId
          bufLen := bufLen
          bufLenPadded := bufLenPadded
          tag := llmpTagUninitialized }).updateMsg
      (ret + llmpMsgHeaderLen + bufLenPadded)
      fun msg => { msg with tag := llmpTagUnset } with
    sizeUsed := page.sizeUsed + llmpMsgHeaderLen + bufLenPadded
    maxAllocSize :=
      max page.maxAllocSize (llmpMsgHeaderLen + bufLenPadded) }

section

variable (page : LlmpPage)
variable (messageId bufLen : Nat)

theorem allocate_here :
    (page.allocate messageId bufLen).msgAt page.sizeUsed =
      { page.msgAt page.sizeUsed with
        messageId := messageId
        bufLen := bufLen
        bufLenPadded := paddedLength page.sizeUsed bufLen
        tag := llmpTagUninitialized } := by
  have notBehind :
      page.sizeUsed ≠
        page.sizeUsed + llmpMsgHeaderLen +
          paddedLength page.sizeUsed bufLen := by
    simp only [llmpMsgHeaderLen]
    omega
  simp only [LlmpPage.allocate, LlmpPage.msgAt]
  rw [LlmpPage.updateMsg_other _ _ _ notBehind, LlmpPage.updateMsg_same,
    LlmpPage.msgAt, LlmpPage.overwrite_below _ (Nat.le_refl _),
    Option.getD_some]

theorem allocate_below
    {below : Nat}
    (isBelow : below < page.sizeUsed) :
    (page.allocate messageId bufLen).messages below =
      page.messages below := by
  simp only [LlmpPage.allocate]
  rw [LlmpPage.updateMsg_other _ _ _ (by omega),
    LlmpPage.updateMsg_other _ _ _ (by omega),
    LlmpPage.overwrite_below _ isBelow.le]

theorem allocate_behind :
    ((page.allocate messageId bufLen).msgAt
      (page.sizeUsed + llmpMsgHeaderLen +
        paddedLength page.sizeUsed bufLen)).tag = llmpTagUnset := by
  simp [LlmpPage.allocate, LlmpPage.msgAt]

end

theorem allocNextIfSpace_eq
    {channel : Channel}
    {opened : List LlmpMsg}
    {bufLen : Nat}
    (ready : Ready channel opened)
    (fits : ¬channel.PageFull bufLen) :
    channel.allocNextIfSpace bufLen =
      .allocated
        { channel.setPage channel.sender.current
            (channel.outPage.allocate (opened.length + 1) bufLen) with
          sender := { channel.sender with hasUnsentMessage := true } }
        (endOf opened) := by
  unfold Channel.allocNextIfSpace
  rw [ready.committed, if_neg Bool.false_ne_true, if_neg fits,
    nextMessageId_eq ready]
  simp only [ready.used, LlmpPage.allocate]
  rfl

/-- The page after the allocated message was filled. -/
def LlmpPage.filled
    (page : LlmpPage)
    (messageId : Nat)
    (tag : Tag)
    (flags : Flags)
    (buf : Bytes) : LlmpPage :=
  (page.allocate messageId buf.length).updateMsg page.sizeUsed fun header =>
    { header with tag := tag, flags := flags, buf := .bytes buf }

namespace Placed

variable {before after : Channel}
variable {opened : List LlmpMsg}
variable {msg : LlmpMsg}

theorem current
    (placed : Placed before opened msg after) :
    after.sender.current = before.sender.current := by
  rw [placed.sender]

theorem sameContents
    (placed : Placed before opened msg after)
    {id : ShMemId}
    (notCurrent : id ≠ before.sender.current) :
    SameContents (after.pages id) (before.pages id) :=
  placed.elsewhere id notCurrent ▸ SameContents.refl _

theorem safeToUnmap
    (placed : Placed before opened msg after)
    (id : ShMemId) :
    (after.pages id).safeToUnmap = (before.pages id).safeToUnmap := by
  by_cases isCurrent : id = before.sender.current
  · have flag := placed.flag
    unfold Channel.outPage at flag
    rw [placed.current] at flag
    rw [isCurrent, flag]
  · rw [placed.elsewhere id isCurrent]

theorem hasRead
    (placed : Placed before opened msg after)
    (holds : Holds before.outPage opened)
    {receiver : LlmpReceiver}
    {id : ShMemId}
    {read : List LlmpMsg}
    (hasRead : HasRead receiver (before.pages id) read) :
    HasRead receiver (after.pages id) read := by
  refine hasRead.grow ?_
  by_cases isCurrent : id = before.sender.current
  · have count := placed.ready.holds.count
    rw [Channel.outPage, placed.current, List.length_append] at count
    rw [isCurrent, count, ← Channel.outPage, holds.count]
    exact Nat.le_add_right _ _
  · rw [placed.elsewhere id isCurrent]

end Placed

/-- The header that an allocation and a commit leave behind. -/
def placedMsg
    (channel : Channel)
    (opened : List LlmpMsg)
    (tag : Tag)
    (flags : Flags)
    (buf : Bytes) : LlmpMsg where
  tag := tag
  sender := channel.sender.id
  flags := flags
  messageId := opened.length + 1
  bufLen := buf.length
  bufLenPadded := paddedLength (endOf opened) buf.length
  buf := .bytes buf

/-- The page after a message was allocated, filled and committed on it. -/
def LlmpPage.place
    (page : LlmpPage)
    (messageId : Nat)
    (tag : Tag)
    (flags : Flags)
    (buf : Bytes)
    (sender : ClientId) : LlmpPage :=
  (page.filled messageId tag flags buf).commit page.sizeUsed sender

theorem placedMsg_content
    (channel : Channel)
    (opened : List LlmpMsg)
    (tag : Tag)
    (flags : Flags)
    (buf : Bytes) :
    (placedMsg channel opened tag flags buf).content = ⟨tag, flags, buf⟩ := by
  simp [placedMsg, LlmpMsg.content]

variable {channel : Channel}
variable {opened : List LlmpMsg}

theorem isData_placedMsg
    {tag : Tag}
    {flags : Flags}
    {buf : Bytes}
    (notReserved : ¬Reserved tag) :
    IsData (placedMsg channel opened tag flags buf) :=
  ⟨notReserved, buf, rfl, rfl⟩

theorem place_messages
    (ready : Ready channel opened)
    (tag : Tag)
    (flags : Flags)
    (buf : Bytes) :
    let page :=
      channel.outPage.place (opened.length + 1) tag flags buf
        channel.sender.id
    let msg := placedMsg channel opened tag flags buf
    page.messages (endOf opened) = some msg ∧
      (∀ below, below < endOf opened →
        page.messages below = channel.outPage.messages below) ∧
      (page.msgAt (endOf opened + msg.extent)).tag = llmpTagUnset := by
  intro page msg
  have behind : endOf opened + msg.extent =
      channel.outPage.sizeUsed + llmpMsgHeaderLen +
        paddedLength channel.outPage.sizeUsed buf.length := by
    rw [ready.used, Nat.add_assoc]
    rfl
  have notHere :
      endOf opened ≠ endOf opened + msg.extent := by
    have positive := extent_pos msg
    omega
  have count := ready.holds.count
  refine ⟨?_, ?_, ?_⟩
  · change (LlmpPage.place _ _ _ _ _ _).messages _ = _
    unfold LlmpPage.place LlmpPage.filled
    rw [← ready.used, commit_same, LlmpPage.msgAt_updateMsg_same,
      allocate_here]
    simp only [msg, placedMsg, ready.used, Option.some.injEq,
      LlmpMsg.mk.injEq, true_and, and_true]
    exact congrArg (· + 1) count
  · intro below isBelow
    have notUsed : below ≠ channel.outPage.sizeUsed := by
      rw [ready.used]
      omega
    change (LlmpPage.place _ _ _ _ _ _).messages _ = _
    unfold LlmpPage.place LlmpPage.filled
    rw [commit_other _ _ notUsed, LlmpPage.updateMsg_other _ _ _ notUsed,
      allocate_below _ _ _ (by rw [ready.used]; exact isBelow)]
  · have notUsed :
        endOf opened + msg.extent ≠ channel.outPage.sizeUsed := by
      rw [ready.used]
      exact notHere.symm
    change ((LlmpPage.place _ _ _ _ _ _).msgAt _).tag = _
    unfold LlmpPage.place LlmpPage.filled
    rw [LlmpPage.msgAt, commit_other _ _ notUsed, ← LlmpPage.msgAt,
      LlmpPage.msgAt_updateMsg_other _ _ _ notUsed, behind]
    exact allocate_behind _ _ _

/-- The channel after a message was placed on the current page. -/
def Channel.place
    (channel : Channel)
    (opened : List LlmpMsg)
    (tag : Tag)
    (flags : Flags)
    (buf : Bytes) : Channel :=
  { channel.setPage channel.sender.current
      (channel.outPage.place (opened.length + 1) tag flags buf
        channel.sender.id) with
    sender := { channel.sender with lastMsgSent := some (endOf opened) } }

theorem setPage_setPage
    (channel : Channel)
    (id : ShMemId)
    (first second : LlmpPage) :
    (channel.setPage id first).setPage id second =
      channel.setPage id second := by
  simp [Channel.setPage]

theorem room_of_fits
    {bufLen : Nat}
    (ready : Ready channel opened)
    (fits : ¬channel.PageFull bufLen) :
    endOf opened + llmpMsgHeaderLen + paddedLength (endOf opened) bufLen +
        eopMsgSize ≤
      channel.outPage.sizeTotal := by
  unfold Channel.PageFull at fits
  rw [ready.used] at fits
  exact Nat.not_lt.mp fits

theorem place_eq
    {channel : Channel}
    {opened : List LlmpMsg}
    {tag : Tag}
    (ready : Ready channel opened)
    (notUnset : tag ≠ llmpTagUnset)
    (flags : Flags)
    (buf : Bytes)
    (fits : ¬channel.PageFull buf.length) :
    ∃ allocated,
      channel.allocNextIfSpace buf.length =
          .allocated allocated (endOf opened) ∧
        (allocated.fill (endOf opened) tag flags (.bytes buf)).send
            (endOf opened) = .ok (channel.place opened tag flags buf) := by
  refine ⟨_, allocNextIfSpace_eq ready fits, ?_⟩
  have room := room_of_fits ready fits
  have total := ready.total
  let sender := { channel.sender with hasUnsentMessage := true }
  let page :=
    channel.outPage.filled (opened.length + 1) tag flags buf
  have filled :
      Channel.fill
        { channel.setPage channel.sender.current
            (channel.outPage.allocate (opened.length + 1) buf.length) with
          sender := sender }
        (endOf opened) tag flags (.bytes buf) =
      { channel.setPage channel.sender.current page with
        sender := sender } := by
    simp [Channel.fill, Channel.setPage, Channel.outPage, page, sender,
      LlmpPage.filled, ← ready.used]
  have onPage : Channel.outPage
      { channel.setPage channel.sender.current page with
        sender := sender } = page := by
    simp [Channel.outPage, Channel.setPage, sender]
  have tagged : (page.msgAt (endOf opened)).tag = tag := by
    simp [page, LlmpPage.filled, ← ready.used]
  rw [filled, send_eq]
  · rw [onPage]
    simp [Channel.place, Channel.setPage, LlmpPage.place, page, sender,
      ready.used, ready.committed]
  · exact ready.position ▸ lastOffset_ne_endOf opened
  · rw [onPage, tagged]
    exact notUnset
  · rw [onPage]
    change _ < channel.outPage.sizeTotal
    rw [llmpMsgHeaderLen_eq, eopMsgSize_eq] at room
    rw [llmpPageHeaderLen_eq]
    omega

section

variable (page : LlmpPage)
variable (messageId : Nat)
variable (tag : Tag)
variable (flags : Flags)
variable (buf : Bytes)
variable (sender : ClientId)

@[simp] theorem place_magic :
    (page.place messageId tag flags buf sender).magic = page.magic := by
  simp [LlmpPage.place, LlmpPage.commit, LlmpPage.filled, LlmpPage.allocate]

@[simp] theorem place_mapSize :
    (page.place messageId tag flags buf sender).mapSize = page.mapSize := by
  simp [LlmpPage.place, LlmpPage.commit, LlmpPage.filled, LlmpPage.allocate]

@[simp] theorem place_safeToUnmap :
    (page.place messageId tag flags buf sender).safeToUnmap =
      page.safeToUnmap := by
  simp [LlmpPage.place, LlmpPage.commit, LlmpPage.filled, LlmpPage.allocate]

@[simp] theorem place_sizeTotal :
    (page.place messageId tag flags buf sender).sizeTotal =
      page.sizeTotal := by
  simp [LlmpPage.place, LlmpPage.commit, LlmpPage.filled, LlmpPage.allocate]

@[simp] theorem place_currentMsgId :
    (page.place messageId tag flags buf sender).currentMsgId =
      page.currentMsgId + 1 := by
  simp [LlmpPage.place, LlmpPage.commit, LlmpPage.filled, LlmpPage.allocate]

@[simp] theorem place_sizeUsed :
    (page.place messageId tag flags buf sender).sizeUsed =
      page.sizeUsed + llmpMsgHeaderLen +
        paddedLength page.sizeUsed buf.length := by
  simp [LlmpPage.place, LlmpPage.commit, LlmpPage.filled, LlmpPage.allocate]

end

@[simp] theorem outPage_place
    (channel : Channel)
    (opened : List LlmpMsg)
    (tag : Tag)
    (flags : Flags)
    (buf : Bytes) :
    (channel.place opened tag flags buf).outPage =
      channel.outPage.place (opened.length + 1) tag flags buf
        channel.sender.id := by
  simp [Channel.outPage, Channel.place, Channel.setPage]

variable {channel : Channel}
variable {opened : List LlmpMsg}

theorem placed
    (ready : Ready channel opened)
    (tag : Tag)
    (flags : Flags)
    (buf : Bytes)
    (fits : ¬channel.PageFull buf.length) :
    Placed channel opened (placedMsg channel opened tag flags buf)
      (channel.place opened tag flags buf) := by
  have room := room_of_fits ready fits
  obtain ⟨here, below, behind⟩ := place_messages ready tag flags buf
  have extent :
      (placedMsg channel opened tag flags buf).extent =
        llmpMsgHeaderLen + paddedLength (endOf opened) buf.length :=
    rfl
  have grown :
      endOf (opened ++ [placedMsg channel opened tag flags buf]) =
        endOf opened + llmpMsgHeaderLen +
          paddedLength (endOf opened) buf.length := by
    rw [endOf_append, endOf_cons, endOf_nil, extent, Nat.add_zero,
      Nat.add_assoc]
  have fitsBehind :
      llmpPageHeaderLen +
          (endOf opened + (placedMsg channel opened tag flags buf).extent) +
          llmpMsgHeaderLen ≤
        channel.outPage.mapSize := by
    have total := ready.total
    rw [extent]
    rw [eopMsgSize_eq] at room
    rw [llmpMsgHeaderLen_eq] at room ⊢
    omega
  have holds :
      Holds (channel.place opened tag flags buf).outPage
        (opened ++ [placedMsg channel opened tag flags buf]) := by
    rw [outPage_place]
    refine ready.holds.snoc (place_magic ..) ?_ (place_mapSize ..) below here
      rfl fitsBehind
    rw [place_currentMsgId, ready.holds.count]
  refine
    { ready :=
        { holds := holds
          used := ?_
          room := ?_
          total := ?_
          position := ?_
          free := ?_
          committed := ready.committed }
      sender := rfl
      elsewhere := ?_
      flag := by rw [outPage_place, place_safeToUnmap]
      mapSize := by rw [outPage_place, place_mapSize]
      fresh := rfl }
  · rw [outPage_place, place_sizeUsed, ready.used, grown]
  · rw [outPage_place, place_sizeTotal, grown]
    exact room
  · rw [outPage_place, place_sizeTotal, place_mapSize]
    exact ready.total
  · rw [lastOffset_snoc]
    rfl
  · rw [outPage_place, endOf_append, endOf_cons, endOf_nil, Nat.add_zero]
    exact behind
  · intro id different
    simp [Channel.place, Channel.setPage, different]

/-- A page that was just initialized. -/
structure Blank (page : LlmpPage) : Prop where
  magic : page.magic = true
  unmarked : page.safeToUnmap = false
  empty : page.currentMsgId = 0
  unused : page.sizeUsed = 0
  total : page.sizeTotal + llmpPageHeaderLen = page.mapSize
  free : (page.msgAt 0).tag = llmpTagUnset

theorem llmpPageInit_blank
    {page : LlmpPage}
    {senderId : ClientId}
    {allowReinit : Bool}
    (allowed : allowReinit = true ∨ page.magic = false)
    (large : llmpPageHeaderLen < page.mapSize) :
    ∃ blank,
      llmpPageInit page senderId allowReinit = some blank ∧
        Blank blank ∧ blank.mapSize = page.mapSize := by
  have mayInit : (!allowReinit && page.magic) = false := by
    rcases allowed with reinit | notMagic
    · simp [reinit]
    · simp [notMagic]
  have notEmpty : page.mapSize - llmpPageHeaderLen ≠ 0 := by
    omega
  unfold llmpPageInit
  rw [mayInit, if_neg Bool.false_ne_true, if_neg notEmpty]
  refine ⟨_, rfl, ⟨rfl, rfl, rfl, rfl, ?_, ?_⟩, rfl⟩
  · exact Nat.sub_add_cancel large.le
  · simp

/-- The page that a sender goes on to, and what is left of its cache. -/
inductive Acquired
    (channel : Channel)
    (minSize : Nat) :
    ShMemId → List ShMemId → ShMemId → Nat → Prop where
  | reused
      {skipped rest : List ShMemId}
      {new : ShMemId} :
      channel.sender.unusedShmemCache = skipped ++ new :: rest →
      (∀ id ∈ skipped, (channel.pages id).mapSize < minSize) →
      minSize ≤ (channel.pages new).mapSize →
      Acquired channel minSize new rest channel.fresh
        (channel.pages new).mapSize
  | created :
      (∀ id ∈ channel.sender.unusedShmemCache,
        (channel.pages id).mapSize < minSize) →
      Acquired channel minSize channel.fresh [] (channel.fresh + 1) minSize

variable {minSize : Nat}
variable {new : ShMemId}

theorem findCached_some
    {pages : ShMemId → LlmpPage}
    {cache rest : List ShMemId}
    (found : Channel.findCached pages minSize cache = some (new, rest)) :
    ∃ skipped,
      cache = skipped ++ new :: rest ∧
        (∀ id ∈ skipped, (pages id).mapSize < minSize) ∧
        minSize ≤ (pages new).mapSize := by
  induction cache with
  | nil =>
      simp [Channel.findCached] at found
  | cons id others ih =>
      unfold Channel.findCached at found
      split at found
      · rename_i small
        obtain ⟨skipped, split, allSmall, large⟩ := ih found
        refine ⟨id :: skipped, by rw [split]; rfl, ?_, large⟩
        simpa using ⟨small, allSmall⟩
      · rename_i large
        obtain ⟨rfl, rfl⟩ := Prod.mk.inj (Option.some.inj found)
        exact ⟨[], rfl, by simp, Nat.not_lt.mp large⟩

variable {cache : List ShMemId}

theorem findCached_none
    {pages : ShMemId → LlmpPage}
    (notFound : Channel.findCached pages minSize cache = none) :
    ∀ id ∈ cache, (pages id).mapSize < minSize := by
  induction cache with
  | nil =>
      simp
  | cons id others ih =>
      unfold Channel.findCached at notFound
      split at notFound
      · rename_i small
        simpa using ⟨small, ih notFound⟩
      · cases notFound

/-- The channel after a new page was taken into use. -/
def Channel.acquire
    (channel : Channel)
    (new : ShMemId)
    (cache : List ShMemId)
    (fresh : ShMemId)
    (page : LlmpPage) : Channel where
  pages := Function.update channel.pages new page
  fresh := fresh
  sender := { channel.sender with unusedShmemCache := cache }

/-- There is a page to get: a cached one that is large enough, or a new one. -/
def Channel.Available (channel : Channel) (minSize : Nat) (granted : Bool) : Prop :=
  granted = true ∨
    Channel.findCached channel.pages minSize channel.sender.unusedShmemCache ≠
      none

theorem newOrUnusedShmem_cases
    (channel : Channel)
    (senderId : ClientId)
    (granted : Bool)
    (large : llmpPageHeaderLen < minSize) :
    (channel.Available minSize granted ∧
      ∃ new cache fresh size page,
        Acquired channel minSize new cache fresh size ∧
          Blank page ∧ page.mapSize = size ∧
          channel.newOrUnusedShmem senderId minSize granted =
            .allocated (channel.acquire new cache fresh page) new) ∨
    (¬channel.Available minSize granted ∧
      channel.newOrUnusedShmem senderId minSize granted =
        .error
          { channel with
            sender := { channel.sender with unusedShmemCache := [] } }) := by
  unfold Channel.newOrUnusedShmem Channel.Available
  split
  · rename_i new rest found
    obtain ⟨skipped, split, small, isLarge⟩ := findCached_some found
    obtain ⟨page, init, blank, size⟩ :=
      @llmpPageInit_blank (channel.pages new) senderId true (.inl rfl)
        (large.trans_le isLarge)
    refine .inl ⟨.inr (by simp [found]), new, rest, channel.fresh, _, page,
      .reused split small isLarge, blank, size, ?_⟩
    simp only [init]
    rfl
  · rename_i notFound
    cases granted with
    | false =>
        exact .inr ⟨by simp [notFound], rfl⟩
    | true =>
        obtain ⟨page, init, blank, size⟩ :=
          @llmpPageInit_blank (.zeroed minSize) senderId false (.inr rfl)
            large
        refine .inl ⟨.inl rfl, channel.fresh, [], channel.fresh + 1, minSize,
          page, .created (findCached_none notFound), blank, size, ?_⟩
        simp only [init, if_true]
        rfl

theorem Ready.congr
    {before after : Channel}
    {opened : List LlmpMsg}
    (ready : Ready before opened)
    (samePage : after.outPage = before.outPage)
    (samePosition : after.sender.lastMsgSent = before.sender.lastMsgSent)
    (committed : after.sender.hasUnsentMessage = false) :
    Ready after opened where
  holds := samePage ▸ ready.holds
  used := samePage ▸ ready.used
  room := samePage ▸ ready.room
  total := samePage ▸ ready.total
  position := samePosition.trans ready.position
  free := samePage ▸ ready.free
  committed := committed

theorem Ready.marked
    {before after : Channel}
    (ready : Ready before opened)
    (samePage :
      after.outPage = before.outPage ∨
        after.outPage = before.outPage.markSafeToUnmap)
    (sameSender : after.sender = before.sender) :
    Ready after opened := by
  rcases samePage with same | marked
  · exact ready.congr same (by rw [sameSender])
      (by rw [sameSender]; exact ready.committed)
  · exact
      { holds := marked ▸ ready.holds.congr (sameContents_markSafeToUnmap _)
        used := marked ▸ ready.used
        room := marked ▸ ready.room
        total := marked ▸ ready.total
        position := by rw [sameSender]; exact ready.position
        free := by rw [marked]; exact ready.free
        committed := by rw [sameSender]; exact ready.committed }

/-- The page after an end of page was allocated behind its messages. -/
def LlmpPage.allocateEop
    (page : LlmpPage)
    (offset messageId : Nat) : LlmpPage :=
  { (page.overwrite offset
      (offset + llmpMsgHeaderLen + sharedMapInfoLen)).updateMsg offset
      fun msg =>
        { msg with
          bufLen := sharedMapInfoLen
          bufLenPadded := sharedMapInfoLen
          messageId := messageId
          tag := llmpTagEndOfPage } with
    sizeUsed := page.sizeUsed + eopMsgSize }

theorem allocEop_eq
    (ready : Ready channel opened) :
    channel.allocEop =
      .allocated
        (channel.setPage channel.sender.current
          (channel.outPage.allocateEop (endOf opened) (opened.length + 1)))
        (endOf opened) := by
  have fits :
      ¬channel.outPage.sizeTotal <
        channel.outPage.sizeUsed + eopMsgSize := by
    rw [ready.used]
    exact Nat.not_lt.mpr ready.room
  have free : (channel.outPage.msgAt (endOf opened)).tag ≠
      llmpTagUninitialized := by
    rw [ready.free]
    decide
  have position := ready.position
  have holds := ready.holds
  have room := ready.room
  have total := ready.total
  unfold Channel.allocEop
  simp only [fits, if_false]
  induction opened using List.reverseRecOn with
  | nil =>
      rw [endOf_nil] at free
      rw [lastOffset_nil] at position
      simp only [position, free, if_false]
      rfl
  | append_singleton front last _ =>
      obtain ⟨here, number, -⟩ := holds.msgAt_endOf
      rw [endOf_append, endOf_cons, endOf_nil, Nat.add_zero] at free room
      rw [lastOffset_snoc] at position
      have roomBehind :
          llmpPageHeaderLen + (endOf front + last.extent) + eopMsgSize ≤
            channel.outPage.mapSize := by
        omega
      simp only [position, here, nextMsgPtrChecked_eq roomBehind, free,
        if_false, number]
      rw [endOf_append, endOf_cons, endOf_nil, Nat.add_zero,
        List.length_append, List.length_singleton]
      rfl

/-- The header of an end of page that names a page. -/
def eopMsg
    (page : LlmpPage)
    (opened : List LlmpMsg)
    (sender : ClientId)
    (mapSize : Nat)
    (new : ShMemId) : LlmpMsg :=
  { page.msgAt (endOf opened) with
    tag := llmpTagEndOfPage
    sender := sender
    messageId := opened.length + 1
    bufLen := sharedMapInfoLen
    bufLenPadded := sharedMapInfoLen
    buf := .sharedMapInfo mapSize new }

theorem isEop_eopMsg
    (page : LlmpPage)
    (opened : List LlmpMsg)
    (sender : ClientId)
    (mapSize : Nat)
    (new : ShMemId) :
    IsEop (eopMsg page opened sender mapSize new) new :=
  ⟨rfl, Nat.le_refl _, mapSize, rfl⟩

/-- The page after it was linked to a new one. -/
def LlmpPage.close
    (page : LlmpPage)
    (opened : List LlmpMsg)
    (sender : ClientId)
    (mapSize : Nat)
    (new : ShMemId) : LlmpPage :=
  ((page.allocateEop (endOf opened) (opened.length + 1)).updateMsg
    (endOf opened) fun header =>
      { header with buf := .sharedMapInfo mapSize new }).commit
    (endOf opened) sender

theorem holds_close
    (ready : Ready channel opened)
    (sender : ClientId)
    (mapSize : Nat)
    (new : ShMemId) :
    Holds (channel.outPage.close opened sender mapSize new)
      (opened ++ [eopMsg channel.outPage opened sender mapSize new]) := by
  have room := ready.room
  have total := ready.total
  have count := ready.holds.count
  refine ready.holds.snoc ?_ ?_ ?_ ?_ ?_ rfl ?_
  · simp [LlmpPage.close, LlmpPage.commit, LlmpPage.allocateEop]
  · simp [LlmpPage.close, LlmpPage.commit, LlmpPage.allocateEop, count]
  · simp [LlmpPage.close, LlmpPage.commit, LlmpPage.allocateEop]
  · intro below isBelow
    unfold LlmpPage.close LlmpPage.allocateEop
    rw [commit_other _ _ isBelow.ne,
      LlmpPage.updateMsg_other _ _ _ isBelow.ne,
      LlmpPage.updateMsg_other _ _ _ isBelow.ne,
      LlmpPage.overwrite_below _ isBelow.le]
  · unfold LlmpPage.close
    rw [commit_same, LlmpPage.msgAt_updateMsg_same]
    simp only [LlmpPage.allocateEop, LlmpPage.msgAt, LlmpPage.updateMsg_same,
      LlmpPage.overwrite_below _ (Nat.le_refl _), Option.getD_some, eopMsg,
      LlmpPage.updateMsg_currentMsgId, LlmpPage.overwrite_currentMsgId, count]
  · have extent :
        (eopMsg channel.outPage opened sender mapSize new).extent = 72 :=
      rfl
    rw [eopMsgSize_eq] at room
    rw [extent, llmpMsgHeaderLen_eq]
    omega

/-- A call has linked the current page to a new one. -/
structure Linked
    (before : Channel)
    (opened : List LlmpMsg)
    (new : ShMemId)
    (cache : List ShMemId)
    (fresh : ShMemId)
    (size : Nat)
    (after : Channel) : Prop where
  ready : Ready after []
  sender :
    after.sender =
      { before.sender with
        earlier := before.sender.earlier ++ [before.sender.current]
        current := new
        lastMsgSent := none
        unusedShmemCache := cache }
  closed :
    ∃ eop,
      IsEop eop new ∧
        Holds (after.pages before.sender.current) (opened ++ [eop])
  elsewhere :
    ∀ id, id ≠ before.sender.current → id ≠ new →
      after.pages id = before.pages id
  flag :
    (after.pages before.sender.current).safeToUnmap =
      before.outPage.safeToUnmap
  mapSize :
    (after.pages before.sender.current).mapSize = before.outPage.mapSize
  unmarked : after.outPage.safeToUnmap = false
  newSize : after.outPage.mapSize = size
  fresh : after.fresh = fresh

theorem Linked.currentMsgId_le
    {before after : Channel}
    {fresh size : Nat}
    (linked : Linked before opened new cache fresh size after)
    (holds : Holds before.outPage opened)
    {id : ShMemId}
    (elsewhere :
      id ≠ before.sender.current → after.pages id = before.pages id) :
    (before.pages id).currentMsgId ≤ (after.pages id).currentMsgId := by
  by_cases isCurrent : id = before.sender.current
  · obtain ⟨eop, -, closed⟩ := linked.closed
    have count := closed.count
    rw [List.length_append] at count
    rw [isCurrent, count, ← Channel.outPage, holds.count]
    exact Nat.le_add_right _ _
  · rw [elsewhere isCurrent]

theorem Acquired.ne_current
    {fresh size : Nat}
    (acquired : Acquired channel minSize new cache fresh size)
    (notCached :
      channel.sender.current ∉ channel.sender.unusedShmemCache)
    (mapped : channel.sender.current < channel.fresh) :
    new ≠ channel.sender.current := by
  cases acquired with
  | reused split _ _ =>
      intro same
      exact notCached (by rw [split, ← same]; simp)
  | created _ =>
      exact mapped.ne'

/-- The channel after its current page was closed and the next one opened. -/
def Channel.hop
    (channel : Channel)
    (opened : List LlmpMsg)
    (mapSize : Nat)
    (new : ShMemId) : Channel :=
  { channel.setPage channel.sender.current
      (channel.outPage.close opened channel.sender.id mapSize new) with
    sender :=
      { channel.sender with
        earlier := channel.sender.earlier ++ [channel.sender.current]
        current := new
        lastMsgSent := none } }

theorem send_setPage
    {page : LlmpPage}
    {offset : Nat}
    (notSent : channel.sender.lastMsgSent ≠ some offset)
    (tagged : (page.msgAt offset).tag ≠ llmpTagUnset)
    (onPage : llmpPageHeaderLen + offset < page.sizeTotal) :
    (channel.setPage channel.sender.current page).send offset =
      .ok
        { channel.setPage channel.sender.current
            (page.commit offset channel.sender.id) with
          sender :=
            { channel.sender with
              lastMsgSent := some offset
              hasUnsentMessage := false } } := by
  have sent :=
    @send_eq (channel.setPage channel.sender.current page) offset notSent
      (by rw [outPage_setPage]; exact tagged)
      (by rw [outPage_setPage]; exact onPage)
  rw [outPage_setPage] at sent
  rw [sent]
  simp [Channel.setPage]

theorem linkTo_eq
    (ready : Ready channel opened)
    (different : new ≠ channel.sender.current) :
    channel.linkTo new =
      .ok (channel.hop opened (channel.pages new).mapSize new) := by
  have room := ready.room
  let eop :=
    channel.outPage.allocateEop (endOf opened) (opened.length + 1)
  let linked :=
    eop.updateMsg (endOf opened) fun header =>
      { header with buf := .sharedMapInfo (channel.pages new).mapSize new }
  have tagged : (linked.msgAt (endOf opened)).tag ≠ llmpTagUnset := by
    simp only [linked, eop, LlmpPage.msgAt_updateMsg_same]
    simp only [LlmpPage.allocateEop, LlmpPage.msgAt, LlmpPage.updateMsg_same,
      Option.getD_some]
    decide
  have onPage : llmpPageHeaderLen + endOf opened < linked.sizeTotal := by
    simp only [linked, eop, LlmpPage.updateMsg_sizeTotal]
    simp only [LlmpPage.allocateEop, LlmpPage.updateMsg_sizeTotal,
      LlmpPage.overwrite_sizeTotal]
    rw [eopMsgSize_eq] at room
    rw [llmpPageHeaderLen_eq]
    omega
  have sent :=
    send_setPage (ready.position ▸ lastOffset_ne_endOf opened) tagged onPage
  unfold Channel.linkTo
  rw [allocEop_eq ready]
  simp only [outPage_setPage, setPage_sender, setPage_setPage,
    setPage_other _ _ different]
  rw [sent]
  simp only [Channel.hop, LlmpPage.close, linked, eop, ready.committed]

section

variable (page : LlmpPage)
variable (opened : List LlmpMsg)
variable (sender : ClientId)
variable (mapSize : Nat)
variable (new : ShMemId)

@[simp] theorem close_mapSize :
    (page.close opened sender mapSize new).mapSize = page.mapSize := by
  simp [LlmpPage.close, LlmpPage.commit, LlmpPage.allocateEop]

@[simp] theorem close_safeToUnmap :
    (page.close opened sender mapSize new).safeToUnmap =
      page.safeToUnmap := by
  simp [LlmpPage.close, LlmpPage.commit, LlmpPage.allocateEop]

end

variable {channel : Channel}

theorem Blank.ready
    (blank : Blank channel.outPage)
    (room : llmpPageHeaderLen + eopMsgSize ≤ channel.outPage.mapSize)
    (position : channel.sender.lastMsgSent = none)
    (committed : channel.sender.hasUnsentMessage = false) :
    Ready channel [] where
  holds := ⟨blank.magic, blank.empty, trivial⟩
  used := blank.unused
  room := by
    have total := blank.total
    rw [endOf_nil]
    omega
  total := blank.total
  position := position
  free := blank.free
  committed := committed

theorem Blank.withMaxAllocSize
    {page : LlmpPage}
    (blank : Blank page)
    (maxAllocSize : Nat) :
    Blank { page with currentMsgId := 0, maxAllocSize := maxAllocSize } :=
  ⟨blank.magic, blank.unmarked, rfl, blank.unused, blank.total, blank.free⟩

theorem Acquired.size_le
    {minSize : Nat}
    {new : ShMemId}
    {cache : List ShMemId}
    {fresh size : Nat}
    (acquired : Acquired channel minSize new cache fresh size) :
    minSize ≤ size := by
  cases acquired with
  | reused _ _ large =>
      exact large
  | created _ =>
      exact Nat.le_refl _

variable {opened : List LlmpMsg}

theorem linked_hop
    {new : ShMemId}
    {cache : List ShMemId}
    {fresh : ShMemId}
    {page : LlmpPage}
    (ready : Ready channel opened)
    (different : new ≠ channel.sender.current)
    (blank : Blank page)
    (room : llmpPageHeaderLen + eopMsgSize ≤ page.mapSize) :
    Linked channel opened new cache fresh page.mapSize
      ((channel.acquire new cache fresh page).hop opened page.mapSize
        new) := by
  have samePage :
      (channel.acquire new cache fresh page).outPage = channel.outPage := by
    simp [Channel.outPage, Channel.acquire, different.symm]
  have newPage :
      ((channel.acquire new cache fresh page).hop opened page.mapSize
        new).outPage = page := by
    simp [Channel.outPage, Channel.acquire, Channel.hop, Channel.setPage,
      different]
  have oldPage :
      ((channel.acquire new cache fresh page).hop opened page.mapSize
        new).pages channel.sender.current =
        channel.outPage.close opened channel.sender.id page.mapSize new := by
    simp only [Channel.hop, samePage]
    simp [Channel.acquire, Channel.setPage]
  refine
    { ready :=
        Blank.ready (newPage.symm ▸ blank) (newPage.symm ▸ room) rfl
          ready.committed
      sender := rfl
      closed := ⟨_, isEop_eopMsg _ _ _ _ _, oldPage ▸ holds_close ready _ _ _⟩
      elsewhere := ?_
      flag := by rw [oldPage, close_safeToUnmap]
      mapSize := by rw [oldPage, close_mapSize]
      unmarked := by rw [newPage, blank.unmarked]
      newSize := by rw [newPage]
      fresh := rfl }
  intro id notOld notNew
  simp [Channel.hop, Channel.acquire, Channel.setPage, notOld, notNew]

theorem linkNewPage_cases
    (maps : Maps)
    (ready : Ready channel opened)
    (granted : Bool)
    (notCached :
      channel.sender.current ∉ channel.sender.unusedShmemCache)
    (mapped : channel.sender.current < channel.fresh) :
    (channel.Available (nextShmemSize maps channel.outPage.maxAllocSize)
        granted ∧
      ∃ new cache fresh size after,
        Acquired channel (nextShmemSize maps channel.outPage.maxAllocSize)
          new cache fresh size ∧
        Linked channel opened new cache fresh size after ∧
        channel.linkNewPage maps granted = .ok after) ∨
    (¬channel.Available (nextShmemSize maps channel.outPage.maxAllocSize)
        granted ∧
      channel.linkNewPage maps granted =
        .error
          { channel with
            sender := { channel.sender with unusedShmemCache := [] } }) := by
  have large := eop_fits_nextShmemSize maps channel.outPage.maxAllocSize
  unfold Channel.linkNewPage
  rcases newOrUnusedShmem_cases channel channel.outPage.senderId granted
    ((Nat.lt_add_of_pos_right (by decide)).trans_le large) with
    ⟨available, new, cache, fresh, size, page, acquired, blank, isSize,
      result⟩ | ⟨notAvailable, result⟩
  · subst isSize
    have different := acquired.ne_current notCached mapped
    let noted : LlmpPage :=
      { page with
        currentMsgId := 0
        maxAllocSize := channel.outPage.maxAllocSize }
    have blankNoted : Blank noted := blank.withMaxAllocSize _
    have room : llmpPageHeaderLen + eopMsgSize ≤ noted.mapSize :=
      large.trans acquired.size_le
    have written :
        ∀ pageAt, pageAt = page →
          (channel.acquire new cache fresh page).setPage new
              { pageAt with
                currentMsgId := 0
                maxAllocSize := channel.outPage.maxAllocSize } =
            channel.acquire new cache fresh noted := by
      rintro _ rfl
      simp [Channel.acquire, Channel.setPage, noted]
    have samePage :
        (channel.acquire new cache fresh noted).outPage =
          channel.outPage := by
      simp [Channel.outPage, Channel.acquire, different.symm]
    have readyNoted :
        Ready (channel.acquire new cache fresh noted) opened :=
      ready.congr samePage rfl ready.committed
    have notedSize :
        ((channel.acquire new cache fresh noted).pages new).mapSize =
          noted.mapSize := by
      simp [Channel.acquire]
    refine .inl ⟨available, new, cache, fresh, noted.mapSize, _, acquired,
      linked_hop ready different blankNoted room, ?_⟩
    simp only [result]
    rw [written _ (by simp [Channel.acquire]),
      linkTo_eq readyNoted different, notedSize]
  · refine .inr ⟨notAvailable, ?_⟩
    simp only [result]

/-- The pages at the front of the old ones that are marked `safe_to_unmap`. -/
def Channel.unmappable (channel : Channel) : List ShMemId :=
  channel.sender.earlier.takeWhile fun id => (channel.pages id).safeToUnmap

/-- The channel after old pages were moved to the cache, where that is done. -/
def Channel.pruned (channel : Channel) : Channel :=
  if channel.sender.keepPagesForever then channel
  else
    { channel with
      sender :=
        { channel.sender with
          earlier :=
            channel.sender.earlier.drop channel.unmappable.length
          unusedShmemCache :=
            channel.unmappable.reverse ++ channel.sender.unusedShmemCache } }

@[simp] theorem pruned_pages (channel : Channel) :
    channel.pruned.pages = channel.pages := by
  unfold Channel.pruned
  split <;> rfl

@[simp] theorem pruned_fresh (channel : Channel) :
    channel.pruned.fresh = channel.fresh := by
  unfold Channel.pruned
  split <;> rfl

@[simp] theorem pruned_current (channel : Channel) :
    channel.pruned.sender.current = channel.sender.current := by
  unfold Channel.pruned
  split <;> rfl

@[simp] theorem pruned_outPage (channel : Channel) :
    channel.pruned.outPage = channel.outPage := by
  simp [Channel.outPage]

theorem mem_pruned_cache
    {id : ShMemId}
    (member : id ∈ channel.pruned.sender.unusedShmemCache) :
    id ∈ channel.sender.earlier ∨ id ∈ channel.sender.unusedShmemCache := by
  unfold Channel.pruned at member
  split at member
  · exact .inr member
  · rcases List.mem_append.mp member with old | cached
    · exact .inl ((List.takeWhile_prefix _).subset (List.mem_reverse.mp old))
    · exact .inr cached

theorem Ready.pruned
    (ready : Ready channel opened) :
    Ready channel.pruned opened := by
  refine ready.congr (pruned_outPage channel) ?_ ?_
  · unfold Channel.pruned
    split <;> rfl
  · unfold Channel.pruned
    split <;> exact ready.committed

/-- What a call of `send_buf_with_flags` does to a sender that is ready. -/
inductive Sent
    (maps : Maps)
    (channel : Channel)
    (opened : List LlmpMsg)
    (message : Message) : Outcome → Prop where
  | refused :
      Reserved message.tag →
      Sent maps channel opened message (.error channel)
  | here
      {msg : LlmpMsg}
      {after : Channel} :
      msg.content = message →
      IsData msg →
      Placed channel opened msg after →
      Sent maps channel opened message (.ok after)
  | slowReceiver
      {msg : LlmpMsg}
      {after : Channel} :
      msg.content = ⟨llmpSlowReceiverPanic, llmpFlagInitialized, []⟩ →
      IsData msg →
      Placed channel opened msg after →
      Sent maps channel opened message (.panicked after)
  | stuck :
      Sent maps channel opened message (.panicked channel)
  | starved :
      channel.PageFull message.payload.length →
      Sent maps channel opened message
        (.error
          { channel.pruned with
            sender := { channel.pruned.sender with unusedShmemCache := [] } })
  | tooLong
      {new : ShMemId}
      {cache : List ShMemId}
      {fresh size : Nat}
      {middle : Channel} :
      ¬Reserved message.tag →
      channel.PageFull message.payload.length →
      Acquired channel.pruned
        (nextShmemSize maps channel.outPage.maxAllocSize) new cache fresh
        size →
      Linked channel.pruned opened new cache fresh size middle →
      Sent maps channel opened message (.error middle)
  | onNext
      {new : ShMemId}
      {cache : List ShMemId}
      {fresh size : Nat}
      {middle after : Channel}
      {msg : LlmpMsg} :
      channel.PageFull message.payload.length →
      Acquired channel.pruned
        (nextShmemSize maps channel.outPage.maxAllocSize) new cache fresh
        size →
      Linked channel.pruned opened new cache fresh size middle →
      msg.content = message →
      IsData msg →
      Placed middle [] msg after →
      Sent maps channel opened message (.ok after)

theorem allocNextIfSpace_full
    {bufLen : Nat}
    (ready : Ready channel opened)
    (full : channel.PageFull bufLen) :
    channel.allocNextIfSpace bufLen = .full := by
  unfold Channel.allocNextIfSpace
  rw [ready.committed, if_neg Bool.false_ne_true, if_pos full]

theorem pruneOldPages_cases
    (ready : Ready channel opened)
    (prunes : channel.sender.keepPagesForever = false) :
    channel.pruneOldPages = .ok channel.pruned ∨
    channel.pruneOldPages = .panicked channel ∨
    ∃ msg after,
      channel.pruneOldPages = .panicked after ∧
      msg.content = ⟨llmpSlowReceiverPanic, llmpFlagInitialized, []⟩ ∧
      IsData msg ∧
      Placed channel opened msg after := by
  unfold Channel.pruneOldPages
  simp only
  split
  · by_cases full : channel.PageFull 0
    · rw [allocNextIfSpace_full ready full]
      exact .inr (.inl rfl)
    · obtain ⟨allocated, result, sent⟩ :=
        @place_eq _ _ llmpSlowReceiverPanic ready (by decide)
          llmpFlagInitialized [] full
      simp only [List.length_nil] at result
      refine .inr (.inr ⟨_, _, ?_, placedMsg_content .., isData_placedMsg
        (by decide), placed ready _ _ [] full⟩)
      rw [result]
      simp only [sent]
  · refine .inl ?_
    simp only [Channel.pruned, prunes, Bool.false_eq_true, if_false]
    rfl

theorem sendBufWithFlags_fits
    (maps : Maps)
    (ready : Ready channel opened)
    {message : Message}
    (granted : Bool)
    (notReserved : ¬Reserved message.tag)
    (fits : ¬channel.PageFull message.payload.length) :
    channel.sendBufWithFlags maps message.tag message.flags
        message.payload granted =
      .ok
        (channel.place opened message.tag message.flags
          message.payload) := by
  have notUnset : message.tag ≠ llmpTagUnset := by
    intro unset
    exact notReserved (.inr (.inr (.inr unset)))
  obtain ⟨allocated, result, sent⟩ :=
    place_eq ready notUnset message.flags message.payload fits
  unfold Channel.sendBufWithFlags Channel.allocNext
  rw [if_neg notReserved, result]
  simp only [sent]

theorem sendBufWithFlags_full
    (maps : Maps)
    (ready : Ready channel opened)
    {message : Message}
    (granted : Bool)
    (notReserved : ¬Reserved message.tag)
    (full : channel.PageFull message.payload.length) :
    channel.sendBufWithFlags maps message.tag message.flags
        message.payload granted =
      match channel.handleOutEop maps granted with
      | .ok middle =>
          match middle.allocNextIfSpace message.payload.length with
          | .allocated allocated msg =>
              (allocated.fill msg message.tag message.flags
                (.bytes message.payload)).send msg
          | .full => .error middle
          | .error middle => .error middle
          | .panicked middle => .panicked middle
      | .error middle => .error middle
      | .panicked middle => .panicked middle := by
  unfold Channel.sendBufWithFlags Channel.allocNext
  rw [if_neg notReserved, allocNextIfSpace_full ready full]
  cases channel.handleOutEop maps granted with
  | ok middle =>
      simp only
      cases middle.allocNextIfSpace message.payload.length with
      | allocated _ _ => rfl
      | full => rfl
      | error _ => rfl
      | panicked _ => rfl
  | error _ => rfl
  | panicked _ => rfl

theorem handleOutEop_cases
    (maps : Maps)
    (ready : Ready channel opened)
    (granted : Bool) :
    channel.handleOutEop maps granted =
        channel.pruned.linkNewPage maps granted ∨
    channel.handleOutEop maps granted = .panicked channel ∨
    ∃ msg after,
      channel.handleOutEop maps granted = .panicked after ∧
      msg.content = ⟨llmpSlowReceiverPanic, llmpFlagInitialized, []⟩ ∧
      IsData msg ∧
      Placed channel opened msg after := by
  unfold Channel.handleOutEop
  cases keeps : channel.sender.keepPagesForever with
  | true =>
      refine .inl ?_
      simp [Channel.pruned, keeps]
  | false =>
      simp only [Bool.false_eq_true, if_false]
      rcases pruneOldPages_cases ready keeps with
        pruned | stuck | ⟨msg, after, slow, rest⟩
      · rw [pruned]
        exact .inl rfl
      · rw [stuck]
        exact .inr (.inl rfl)
      · rw [slow]
        exact .inr (.inr ⟨msg, after, rfl, rest⟩)

theorem sendBufWithFlags_sent
    (maps : Maps)
    (ready : Ready channel opened)
    (message : Message)
    (granted : Bool)
    (notOld : channel.sender.current ∉ channel.sender.earlier)
    (notCached :
      channel.sender.current ∉ channel.sender.unusedShmemCache)
    (mapped : channel.sender.current < channel.fresh) :
    Sent maps channel opened message
      (channel.sendBufWithFlags maps message.tag message.flags
        message.payload granted) := by
  by_cases reserved : Reserved message.tag
  · unfold Channel.sendBufWithFlags
    rw [if_pos reserved]
    exact .refused reserved
  by_cases full : channel.PageFull message.payload.length
  · rw [sendBufWithFlags_full maps ready granted reserved full]
    rcases handleOutEop_cases maps ready granted with
      pruned | stuck | ⟨msg, after, slow, content, isData, placed⟩
    · rw [pruned]
      have notPruned :
          channel.pruned.sender.current ∉
            channel.pruned.sender.unusedShmemCache := by
        rw [pruned_current]
        intro member
        exact (mem_pruned_cache member).elim notOld notCached
      rcases linkNewPage_cases maps ready.pruned granted notPruned
        (by simpa using mapped) with
        ⟨-, new, cache, fresh, size, middle, acquired, linked, result⟩ |
          ⟨-, result⟩
      · rw [result]
        rw [pruned_outPage] at acquired
        simp only
        by_cases tooLong : middle.PageFull message.payload.length
        · rw [allocNextIfSpace_full linked.ready tooLong]
          exact .tooLong reserved full acquired linked
        · have notUnset : message.tag ≠ llmpTagUnset := by
            intro unset
            exact reserved (.inr (.inr (.inr unset)))
          obtain ⟨allocated, result, sent⟩ :=
            place_eq linked.ready notUnset message.flags message.payload
              tooLong
          rw [endOf_nil] at result sent
          rw [result]
          simp only [sent]
          exact .onNext full acquired linked (placedMsg_content ..)
            (isData_placedMsg reserved)
            (placed linked.ready _ _ _ tooLong)
      · rw [result]
        exact .starved full
    · rw [stuck]
      exact .stuck
    · rw [slow]
      exact .slowReceiver content isData placed
  · rw [sendBufWithFlags_fits maps ready granted reserved full]
    exact .here (placedMsg_content ..) (isData_placedMsg reserved)
      (placed ready _ _ _ full)

theorem new_ready
    {maps : Maps}
    {id : ClientId}
    {keepPagesForever : Bool}
    (started : Channel.new maps id keepPagesForever = some channel) :
    Ready channel [] ∧
      channel.fresh = 1 ∧
      channel.sender =
        { id := id
          lastMsgSent := none
          earlier := []
          current := 0
          unusedShmemCache := []
          keepPagesForever := keepPagesForever
          hasUnsentMessage := false } := by
  have room :
      llmpPageHeaderLen + eopMsgSize ≤
        (LlmpPage.zeroed maps.initialMapSize).mapSize := by
    cases maps <;> decide
  obtain ⟨page, init, blank, size⟩ :=
    @llmpPageInit_blank (.zeroed maps.initialMapSize) id false (.inr rfl)
      ((Nat.lt_add_of_pos_right (by decide)).trans_le room)
  rw [Channel.new, init] at started
  obtain rfl := Option.some.inj started
  have onPage :
      Channel.outPage
        { pages := Function.update (fun _ => LlmpPage.zeroed 0) 0 page
          fresh := 1
          sender :=
            { id := id
              lastMsgSent := none
              earlier := []
              current := 0
              unusedShmemCache := []
              keepPagesForever := keepPagesForever
              hasUnsentMessage := false } } = page := by
    simp [Channel.outPage]
  refine ⟨Blank.ready (onPage.symm ▸ blank) ?_ rfl rfl, rfl, rfl⟩
  rw [onPage, size]
  exact room

theorem committed_placed
    {before after : Channel}
    {msg : LlmpMsg}
    (message : Message)
    (placed : Placed before opened msg after)
    (ready : Ready before opened) :
    before.committed message (.panicked after) =
      [⟨llmpSlowReceiverPanic, llmpFlagInitialized, []⟩] := by
  have count := ready.holds.count
  have countAfter := placed.ready.holds.count
  rw [List.length_append, List.length_singleton] at countAfter
  exact if_neg (by omega)

/-- A payload of half a megabyte; a small map holds two of them. -/
def halfMegabyte : Bytes :=
  List.replicate 500000 0

theorem halfMegabyte_length : halfMegabyte.length = 500000 :=
  List.length_replicate

end MeFuzz.Llmp
