import MeFuzz.LlmpAllocation

namespace MeFuzz.Llmp

/-!
# Cancelling and shrinking an allocation

`cancel_send` gives the room of a slot back, `shrink_alloced` a part of it.
Cancelling leaves the sender with an unsent message, so that it never gets a slot
again.  A message that was shrunk is one of its new length, and the next one lies
right behind it.
-/

namespace Channel

/-- `cancel_send`. -/
def cancelSend (channel : Channel) (msg : Nat) : Channel :=
  let page := channel.outPage
  channel.setPage channel.sender.current
    { page.updateMsg msg fun header =>
        { header with tag := llmpTagUnset } with
      sizeUsed :=
        page.sizeUsed - ((page.msgAt msg).bufLenPadded + llmpMsgHeaderLen) }

/-- `shrink_alloced`; no message stands for a null pointer. -/
def shrinkAlloced
    (channel : Channel)
    (msg : Option Nat)
    (shrinkedLen : Nat) : Outcome :=
  match msg with
  | none => .error channel
  | some msg =>
      if ¬channel.sender.hasUnsentMessage then .error channel
      else
        let page := channel.outPage
        let oldLenPadded := (page.msgAt msg).bufLenPadded
        let bufLenPadded := paddedLength msg shrinkedLen
        if oldLenPadded < bufLenPadded then .error channel
        else
          let shrunk :=
            (page.updateMsg msg fun header =>
              { header with
                bufLen := shrinkedLen
                bufLenPadded := bufLenPadded }).updateMsg
              (msg + llmpMsgHeaderLen + bufLenPadded)
              fun header => { header with tag := llmpTagUnset }
          .ok
            (channel.setPage channel.sender.current
              { shrunk with
                sizeUsed := page.sizeUsed - oldLenPadded + bufLenPadded })

end Channel

/-- Slots are had exactly when they would have been had without the other call. -/
def AsIfNever (maps : Maps) (channel cancelled : Channel) : Prop :=
  ∀ bufLen granted,
    (∃ next msg,
      cancelled.allocNext maps bufLen granted = .allocated next msg) ↔
      ∃ next msg, channel.allocNext maps bufLen granted = .allocated next msg

/-- A tag that messages of users may have and that `recv` returns. -/
def Ordinary (tag : Tag) : Prop :=
  ¬Reserved tag ∧ tag ≠ llmpTagExiting

/-- What a receiver returns in this many passes of `recv`. -/
def LlmpReceiver.receives :
    Nat → (ShMemId → LlmpPage) → LlmpReceiver → List Message
  | 0, _, _ => []
  | passes + 1, pages, receiver =>
      match receiver.recv pages true with
      | ⟨.message msg, pages, receiver⟩ =>
          msg.content :: receiver.receives passes pages
      | ⟨.again, pages, receiver⟩ => receiver.receives passes pages
      | _ => []

/-- The receiver is on the sender's page and has read what lies before the slot. -/
def AtSlot (receiver : LlmpReceiver) (channel : Channel) (msg : Nat) : Prop :=
  receiver.currentRecvShmem = channel.sender.current ∧
    ∃ opened,
      endOf opened = msg ∧
        Holds channel.outPage opened ∧
        HasRead receiver channel.outPage opened

/--
A slot that is filled, shrunk, and sent arrives with its new length, and then the
message that is sent next, and no other.
-/
def ShrinksAndArrives
    (maps : Maps)
    (channel : Channel)
    (msg bufLen : Nat) : Prop :=
  ∀ shrinkedLen tag flags buf,
    shrinkedLen ≤ bufLen →
    Ordinary tag →
    shrinkedLen ≤ buf.length →
    ∃ shrunk sent,
      (channel.fill msg tag flags (.bytes buf)).shrinkAlloced (some msg)
            shrinkedLen = .ok shrunk ∧
        shrunk.send msg = .ok sent ∧
        (sent.outPage.msgAt msg).bufLen = shrinkedLen ∧
        ∀ message granted after receiver passes,
          Ordinary message.tag →
          sent.sendBufWithFlags maps message.tag message.flags
              message.payload granted = .ok after →
          AtSlot receiver channel msg →
          LlmpReceiver.receives (passes + 3) after.pages receiver =
            [⟨tag, flags, buf.take shrinkedLen⟩, message]

section

variable {channel : Channel}
variable {opened : List LlmpMsg}

/-- The sender stayed on its page, or closed it and went on to another one. -/
inductive WentOn
    (channel : Channel)
    (opened : List LlmpMsg) : Channel → List LlmpMsg → Prop where
  | stayed : WentOn channel opened channel opened
  | linked
      {next : Channel}
      {eop : LlmpMsg} :
      channel.sender.current ≠ next.sender.current →
      IsEop eop next.sender.current →
      Holds (next.pages channel.sender.current) (opened ++ [eop]) →
      WentOn channel opened next []

theorem allocNext_base
    {maps : Maps}
    {bufLen : Nat}
    {granted : Bool}
    {next : Channel}
    {msg : Nat}
    (settled : Settled channel opened)
    (result : channel.allocNext maps bufLen granted = .allocated next msg) :
    ∃ base openedNow,
      Settled base openedNow ∧
        WentOn channel opened base openedNow ∧
        ¬base.PageFull bufLen ∧
        next = base.allocated openedNow bufLen ∧ msg = endOf openedNow := by
  by_cases full : channel.PageFull bufLen
  · by_cases slow : channel.SlowReceiver
    · obtain ⟨after, panics⟩ :=
        @allocNext_slow _ _ maps settled.ready _ granted full slow
      cases result.symm.trans panics
    · by_cases hasNext : channel.HasNext maps granted
      · obtain ⟨new, cache, fresh, middle, acquired, linked, goesOn⟩ :=
          allocNext_linked maps settled full slow hasNext
        by_cases fullThere : middle.PageFull bufLen
        · rw [allocNextIfSpace_full linked.ready fullThere] at goesOn
          cases result.symm.trans goesOn
        · rw [allocNextIfSpace_eq linked.ready fullThere] at goesOn
          cases result.symm.trans goesOn
          have pruned := settled.pruned
          have onNew : middle.sender.current = new := by
            rw [linked.sender]
          have isNew : new ≠ channel.sender.current := by
            rw [← pruned_current]
            exact
              acquired.ne_current pruned.notCached
                (pruned.mapped _ List.mem_cons_self)
          obtain ⟨eop, isEop, closed⟩ := linked.closed
          rw [pruned_current] at closed
          rw [← onNew] at isEop isNew
          exact ⟨middle, [], pruned.linked acquired linked,
            .linked isNew.symm isEop closed, fullThere, rfl, rfl⟩
      · cases result.symm.trans (allocNext_starved maps settled full slow hasNext)
  · cases result.symm.trans (allocNext_here maps granted settled full).1
    exact ⟨channel, opened, settled, .stayed, full, rfl, rfl⟩

theorem allocNext_of_unsent
    (maps : Maps)
    (bufLen : Nat)
    (granted : Bool)
    (unsent : channel.sender.hasUnsentMessage = true) :
    channel.allocNext maps bufLen granted = .panicked channel := by
  unfold Channel.allocNext Channel.allocNextIfSpace
  rw [if_pos unsent]

theorem not_asIfNever
    {maps : Maps}
    {bufLen : Nat}
    {granted : Bool}
    {next : Channel}
    {msg : Nat}
    (settled : Settled channel opened)
    (result : channel.allocNext maps bufLen granted = .allocated next msg) :
    ¬AsIfNever maps channel (next.cancelSend msg) := by
  obtain ⟨base, openedNow, -, -, -, rfl, -⟩ := allocNext_base settled result
  intro asIfNever
  obtain ⟨other, slot, again⟩ :=
    (asIfNever bufLen granted).mpr ⟨_, _, result⟩
  rw [allocNext_of_unsent maps bufLen granted rfl] at again
  cases again

theorem llmpAlign_eq (toAlign : Nat) :
    llmpAlign toAlign = (toAlign + 63) / 64 * 64 := by
  unfold llmpAlign llmpCfgAlignment
  split <;> omega

theorem paddedLength_mono
    (sizeUsed : Nat)
    {shorter longer : Nat}
    (isShorter : shorter ≤ longer) :
    paddedLength sizeUsed shorter ≤ paddedLength sizeUsed longer := by
  unfold paddedLength
  simp only [llmpAlign_eq]
  omega

theorem placed_of_page
    {page : LlmpPage}
    {msg : LlmpMsg}
    (ready : Ready channel opened)
    (frame : page.SameFrame channel.outPage)
    (flag : page.safeToUnmap = channel.outPage.safeToUnmap)
    (count : page.currentMsgId = channel.outPage.currentMsgId + 1)
    (used : page.sizeUsed = endOf opened + msg.extent)
    (below :
      ∀ offset, offset < endOf opened →
        page.messages offset = channel.outPage.messages offset)
    (here : page.messages (endOf opened) = some msg)
    (number : msg.messageId = opened.length + 1)
    (free :
      (page.msgAt (endOf opened + msg.extent)).tag = llmpTagUnset)
    (room :
      endOf opened + msg.extent + eopMsgSize ≤ channel.outPage.sizeTotal) :
    Placed channel opened msg
      { channel.setPage channel.sender.current page with
        sender :=
          { channel.sender with lastMsgSent := some (endOf opened) } } := by
  have total := ready.total
  have onPage :
      Channel.outPage
          { channel.setPage channel.sender.current page with
            sender :=
              { channel.sender with lastMsgSent := some (endOf opened) } } =
        page := by
    simp [Channel.outPage, Channel.setPage]
  have grown : endOf (opened ++ [msg]) = endOf opened + msg.extent := by
    simp
  have fitsBehind :
      llmpPageHeaderLen + (endOf opened + msg.extent) + llmpMsgHeaderLen ≤
        channel.outPage.mapSize := by
    rw [eopMsgSize_eq] at room
    rw [llmpMsgHeaderLen_eq]
    omega
  refine
    { ready :=
        { holds := ?_
          used := ?_
          room := ?_
          total := ?_
          position := ?_
          free := ?_
          committed := ready.committed }
      sender := rfl
      elsewhere := ?_
      flag := by rw [onPage, flag]
      mapSize := by rw [onPage, frame.mapSize]
      fresh := rfl }
  · rw [onPage]
    refine ready.holds.snoc frame.magic ?_ frame.mapSize below here number
      fitsBehind
    rw [count, ready.holds.count]
  · rw [onPage, used, grown]
  · rw [onPage, frame.sizeTotal, grown]
    exact room
  · rw [onPage, frame.sizeTotal, frame.mapSize]
    exact total
  · rw [lastOffset_snoc]
  · rw [onPage, grown]
    exact free
  · intro id different
    simp [Channel.setPage, different]

@[simp] theorem updateMsg_senderId
    (page : LlmpPage)
    (offset : Nat)
    (change : LlmpMsg → LlmpMsg) :
    (page.updateMsg offset change).senderId = page.senderId :=
  rfl

@[simp] theorem overwrite_senderId (page : LlmpPage) (first last : Nat) :
    (page.overwrite first last).senderId = page.senderId :=
  rfl

/-- The page after the message at an offset was shrunk. -/
def LlmpPage.shrunk (page : LlmpPage) (msg shrinkedLen : Nat) : LlmpPage :=
  { (page.updateMsg msg fun header =>
        { header with
          bufLen := shrinkedLen
          bufLenPadded := paddedLength msg shrinkedLen }).updateMsg
      (msg + llmpMsgHeaderLen + paddedLength msg shrinkedLen)
      fun header => { header with tag := llmpTagUnset } with
    sizeUsed :=
      page.sizeUsed - (page.msgAt msg).bufLenPadded +
        paddedLength msg shrinkedLen }

theorem shrinkAlloced_eq
    {msg shrinkedLen : Nat}
    (unsent : channel.sender.hasUnsentMessage = true)
    (smaller :
      paddedLength msg shrinkedLen ≤ (channel.outPage.msgAt msg).bufLenPadded) :
    channel.shrinkAlloced (some msg) shrinkedLen =
      .ok
        (channel.setPage channel.sender.current
          (channel.outPage.shrunk msg shrinkedLen)) := by
  unfold Channel.shrinkAlloced
  refine (if_neg (not_not.mpr unsent)).trans ?_
  exact if_neg (Nat.not_lt.mpr smaller)

/-- The page after a slot was taken and filled. -/
def LlmpPage.taken
    (page : LlmpPage)
    (messageId bufLen : Nat)
    (tag : Tag)
    (flags : Flags)
    (buf : Bytes) : LlmpPage :=
  (page.allocate messageId bufLen).updateMsg page.sizeUsed fun header =>
    { header with tag := tag, flags := flags, buf := .bytes buf }

/-- The header of a message that was filled, shrunk, and sent. -/
def shrunkMsg
    (channel : Channel)
    (opened : List LlmpMsg)
    (tag : Tag)
    (flags : Flags)
    (buf : Bytes)
    (shrinkedLen : Nat) : LlmpMsg :=
  { placedMsg channel opened tag flags buf with
    bufLen := shrinkedLen
    bufLenPadded := paddedLength (endOf opened) shrinkedLen }

section

variable (bufLen shrinkedLen : Nat)
variable (tag : Tag)
variable (flags : Flags)
variable (buf : Bytes)

theorem msgAt_shrunk_taken (ready : Ready channel opened) :
    ((channel.outPage.taken (opened.length + 1) bufLen tag flags buf).shrunk
        (endOf opened) shrinkedLen).msgAt (endOf opened) =
      { channel.outPage.msgAt (endOf opened) with
        messageId := opened.length + 1
        bufLen := shrinkedLen
        bufLenPadded := paddedLength (endOf opened) shrinkedLen
        tag := tag
        flags := flags
        buf := .bytes buf } := by
  have notBehind :
      endOf opened ≠
        endOf opened + llmpMsgHeaderLen +
          paddedLength (endOf opened) shrinkedLen := by
    rw [llmpMsgHeaderLen_eq]
    omega
  unfold LlmpPage.shrunk LlmpPage.taken
  simp only [LlmpPage.msgAt]
  rw [LlmpPage.updateMsg_other _ _ _ notBehind, LlmpPage.updateMsg_same]
  rw [← ready.used, LlmpPage.msgAt_updateMsg_same, allocate_here]
  rfl

theorem shrunk_taken_below
    (ready : Ready channel opened)
    {below : Nat}
    (isBelow : below < endOf opened) :
    ((channel.outPage.taken (opened.length + 1) bufLen tag flags buf).shrunk
        (endOf opened) shrinkedLen).messages below =
      channel.outPage.messages below := by
  have notUsed : below ≠ channel.outPage.sizeUsed := by
    rw [ready.used]
    exact isBelow.ne
  unfold LlmpPage.shrunk LlmpPage.taken
  dsimp only
  rw [LlmpPage.updateMsg_other _ _ _ (by omega),
    LlmpPage.updateMsg_other _ _ _ isBelow.ne,
    LlmpPage.updateMsg_other _ _ _ notUsed,
    allocate_below _ _ _ (by rw [ready.used]; exact isBelow)]

theorem sizeUsed_shrunk_taken (ready : Ready channel opened) :
    ((channel.outPage.taken (opened.length + 1) bufLen tag flags buf).shrunk
        (endOf opened) shrinkedLen).sizeUsed =
      endOf opened +
        (llmpMsgHeaderLen + paddedLength (endOf opened) shrinkedLen) := by
  have header :
      ((channel.outPage.taken (opened.length + 1) bufLen tag flags buf).msgAt
          (endOf opened)).bufLenPadded =
        paddedLength (endOf opened) bufLen := by
    unfold LlmpPage.taken
    rw [← ready.used, LlmpPage.msgAt_updateMsg_same, allocate_here]
  have used :
      (channel.outPage.taken (opened.length + 1) bufLen tag flags
          buf).sizeUsed =
        endOf opened + llmpMsgHeaderLen +
          paddedLength (endOf opened) bufLen := by
    rw [← ready.used]
    rfl
  change _ - _ + _ = _
  rw [header, used]
  omega

end

section

variable (bufLen shrinkedLen : Nat)
variable (tag : Tag)
variable (flags : Flags)
variable (buf : Bytes)

/-- The page of a message that was filled and shrunk. -/
def LlmpPage.takenAndShrunk (page : LlmpPage) (messageId : Nat) : LlmpPage :=
  (page.taken messageId bufLen tag flags buf).shrunk page.sizeUsed shrinkedLen

theorem sameFrame_takenAndShrunk (page : LlmpPage) (messageId : Nat) :
    (page.takenAndShrunk bufLen shrinkedLen tag flags buf messageId).SameFrame
      page := by
  constructor <;>
    simp [LlmpPage.takenAndShrunk, LlmpPage.shrunk, LlmpPage.taken,
      LlmpPage.allocate]

theorem placed_shrunk
    (ready : Ready channel opened)
    (fits : ¬channel.PageFull bufLen)
    (smaller : shrinkedLen ≤ bufLen) :
    Placed channel opened
      (shrunkMsg channel opened tag flags buf shrinkedLen)
      { channel.setPage channel.sender.current
          ((channel.outPage.takenAndShrunk bufLen shrinkedLen tag flags buf
            (opened.length + 1)).commit (endOf opened) channel.sender.id) with
        sender :=
          { channel.sender with lastMsgSent := some (endOf opened) } } := by
  have room := room_of_fits ready fits
  have lessPadded := paddedLength_mono (endOf opened) smaller
  have header := msgAt_shrunk_taken bufLen shrinkedLen tag flags buf ready
  have below := @shrunk_taken_below _ _ bufLen shrinkedLen tag flags buf ready
  have used := sizeUsed_shrunk_taken bufLen shrinkedLen tag flags buf ready
  have free :
      (((channel.outPage.taken (opened.length + 1) bufLen tag flags buf).shrunk
          (endOf opened) shrinkedLen).msgAt
        (endOf opened + llmpMsgHeaderLen +
          paddedLength (endOf opened) shrinkedLen)).tag = llmpTagUnset := by
    simp [LlmpPage.shrunk, LlmpPage.msgAt]
  have frame :=
    sameFrame_takenAndShrunk bufLen shrinkedLen tag flags buf channel.outPage
      (opened.length + 1)
  have count :
      (channel.outPage.takenAndShrunk bufLen shrinkedLen tag flags buf
        (opened.length + 1)).currentMsgId = channel.outPage.currentMsgId := by
    simp [LlmpPage.takenAndShrunk, LlmpPage.shrunk, LlmpPage.taken,
      LlmpPage.allocate]
  have flag :
      (channel.outPage.takenAndShrunk bufLen shrinkedLen tag flags buf
        (opened.length + 1)).safeToUnmap = channel.outPage.safeToUnmap := by
    simp [LlmpPage.takenAndShrunk, LlmpPage.shrunk, LlmpPage.taken,
      LlmpPage.allocate]
  have isPage :
      channel.outPage.takenAndShrunk bufLen shrinkedLen tag flags buf
          (opened.length + 1) =
        (channel.outPage.taken (opened.length + 1) bufLen tag flags buf).shrunk
          (endOf opened) shrinkedLen := by
    rw [LlmpPage.takenAndShrunk, ready.used]
  rw [← isPage] at header below used free
  generalize
    channel.outPage.takenAndShrunk bufLen shrinkedLen tag flags buf
      (opened.length + 1) = page at header below used free frame count flag
  have extent :
      (shrunkMsg channel opened tag flags buf shrinkedLen).extent =
        llmpMsgHeaderLen + paddedLength (endOf opened) shrinkedLen :=
    rfl
  have notHere :
      endOf opened +
          (shrunkMsg channel opened tag flags buf shrinkedLen).extent ≠
        endOf opened := by
    have positive :=
      extent_pos (shrunkMsg channel opened tag flags buf shrinkedLen)
    omega
  refine placed_of_page ready ?_ flag (congrArg (· + 1) count) ?_ ?_ ?_ rfl ?_ ?_
  · exact ⟨frame.magic, frame.mapSize, frame.senderId, frame.sizeTotal⟩
  · rw [extent]
    exact used
  · intro offset isBelow
    rw [commit_other _ _ isBelow.ne]
    exact below isBelow
  · rw [commit_same, header, count, ready.holds.count]
    rfl
  · rw [LlmpPage.msgAt, commit_other _ _ notHere, ← LlmpPage.msgAt, extent,
      ← Nat.add_assoc]
    exact free
  · rw [extent]
    omega

end

/-! ### The calls on an unsent message -/

/-- The channel with an unsent message on this page. -/
def Channel.unsentOn (channel : Channel) (page : LlmpPage) : Channel :=
  { channel.setPage channel.sender.current page with
    sender := { channel.sender with hasUnsentMessage := true } }

theorem outPage_unsentOn (page : LlmpPage) :
    (channel.unsentOn page).outPage = page := by
  simp [Channel.unsentOn, Channel.outPage, Channel.setPage]

theorem fill_allocated
    (ready : Ready channel opened)
    (bufLen : Nat)
    (tag : Tag)
    (flags : Flags)
    (buf : Bytes) :
    (channel.allocated opened bufLen).fill (endOf opened) tag flags
        (.bytes buf) =
      channel.unsentOn
        (channel.outPage.taken (opened.length + 1) bufLen tag flags buf) := by
  simp [Channel.fill, Channel.allocated, Channel.setPage, Channel.outPage,
    Channel.unsentOn, LlmpPage.taken, ← ready.used]

theorem shrinkAlloced_unsentOn
    {page : LlmpPage}
    {msg shrinkedLen : Nat}
    (smaller :
      paddedLength msg shrinkedLen ≤ (page.msgAt msg).bufLenPadded) :
    (channel.unsentOn page).shrinkAlloced (some msg) shrinkedLen =
      .ok (channel.unsentOn (page.shrunk msg shrinkedLen)) := by
  rw [← @outPage_unsentOn channel page] at smaller
  rw [shrinkAlloced_eq rfl smaller, outPage_unsentOn]
  simp [Channel.unsentOn, Channel.setPage]

theorem send_unsentOn
    {page : LlmpPage}
    (ready : Ready channel opened)
    (tagged : (page.msgAt (endOf opened)).tag ≠ llmpTagUnset)
    (onPage : llmpPageHeaderLen + endOf opened < page.sizeTotal) :
    (channel.unsentOn page).send (endOf opened) =
      .ok
        { channel.setPage channel.sender.current
            (page.commit (endOf opened) channel.sender.id) with
          sender :=
            { channel.sender with lastMsgSent := some (endOf opened) } } := by
  have notSent :
      (channel.unsentOn page).sender.lastMsgSent ≠ some (endOf opened) := by
    change channel.sender.lastMsgSent ≠ _
    exact ready.position ▸ lastOffset_ne_endOf opened
  rw [send_eq notSent (by rwa [outPage_unsentOn])
    (by rwa [outPage_unsentOn]), outPage_unsentOn]
  simp [Channel.unsentOn, Channel.setPage, ready.committed]

theorem shrunk_sent
    {bufLen shrinkedLen : Nat}
    {tag : Tag}
    (ready : Ready channel opened)
    (fits : ¬channel.PageFull bufLen)
    (smaller : shrinkedLen ≤ bufLen)
    (notUnset : tag ≠ llmpTagUnset)
    (flags : Flags)
    (buf : Bytes) :
    ∃ shrunk sent,
      ((channel.allocated opened bufLen).fill (endOf opened) tag flags
            (.bytes buf)).shrinkAlloced (some (endOf opened)) shrinkedLen =
          .ok shrunk ∧
        shrunk.send (endOf opened) = .ok sent ∧
        Placed channel opened
          (shrunkMsg channel opened tag flags buf shrinkedLen) sent := by
  have room := room_of_fits ready fits
  have placed :=
    placed_shrunk bufLen shrinkedLen tag flags buf ready fits smaller
  have header := msgAt_shrunk_taken bufLen shrinkedLen tag flags buf ready
  have frame :=
    sameFrame_takenAndShrunk bufLen shrinkedLen tag flags buf channel.outPage
      (opened.length + 1)
  have padded :
      paddedLength (endOf opened) shrinkedLen ≤
        ((channel.outPage.taken (opened.length + 1) bufLen tag flags
          buf).msgAt (endOf opened)).bufLenPadded := by
    unfold LlmpPage.taken
    rw [← ready.used, LlmpPage.msgAt_updateMsg_same, allocate_here]
    exact paddedLength_mono _ smaller
  rw [LlmpPage.takenAndShrunk, ready.used] at placed frame
  refine ⟨_, _, ?_, send_unsentOn ready ?_ ?_, placed⟩
  · rw [fill_allocated ready, shrinkAlloced_unsentOn padded]
  · rw [header]
    exact notUnset
  · rw [frame.sizeTotal, llmpPageHeaderLen_eq]
    rw [llmpMsgHeaderLen_eq, eopMsgSize_eq] at room
    omega

section

variable {pages : ShMemId → LlmpPage}
variable {receiver : LlmpReceiver}
variable {read rest : List LlmpMsg}
variable {msg : LlmpMsg}

theorem receives_message
    (hasRead : HasRead receiver (pages receiver.currentRecvShmem) read)
    (holds :
      Holds (pages receiver.currentRecvShmem) (read ++ msg :: rest))
    (ordinary : Ordinary msg.tag)
    (passes : Nat) :
    ∃ after,
      after.currentRecvShmem = receiver.currentRecvShmem ∧
        HasRead after (pages receiver.currentRecvShmem) (read ++ [msg]) ∧
        receiver.receives (passes + 1) pages =
          msg.content :: after.receives passes pages := by
  obtain ⟨notReserved, notExiting⟩ := ordinary
  unfold Reserved at notReserved
  push Not at notReserved
  refine ⟨{ receiver.refreshed pages with lastMsgRecvd := some (endOf read) },
    rfl, ⟨?_, hasRead.latestMsgId_le⟩, ?_⟩
  · rw [lastOffset_snoc]
  · rw [LlmpReceiver.receives, recv_finds hasRead holds,
      if_neg notReserved.2.2.2, if_neg notExiting, if_neg notReserved.2.1]

theorem receives_nothing
    (hasRead : HasRead receiver (pages receiver.currentRecvShmem) read)
    (holds : Holds (pages receiver.currentRecvShmem) read)
    (passes : Nat) :
    receiver.receives passes pages = [] := by
  cases passes with
  | zero =>
      rfl
  | succ passes =>
      rw [LlmpReceiver.receives, recv_nothing hasRead holds]

theorem receives_link
    {eop : LlmpMsg}
    {new : ShMemId}
    (hasRead : HasRead receiver (pages receiver.currentRecvShmem) read)
    (holds : Holds (pages receiver.currentRecvShmem) (read ++ [eop]))
    (isEop : IsEop eop new)
    (different : receiver.currentRecvShmem ≠ new)
    (inUse : (pages new).magic = true)
    (passes : Nat) :
    receiver.receives (passes + 1) pages =
      (LlmpReceiver.atStart receiver.id new).receives passes
        (markBoth pages receiver.currentRecvShmem new) := by
  obtain ⟨isTag, length, mapSize, isInfo⟩ := isEop
  rw [LlmpReceiver.receives, recv_finds hasRead holds, isTag,
    if_neg (by decide), if_neg (by decide), if_pos rfl,
    if_neg (Nat.not_lt.mpr length)]
  simp only [LlmpReceiver.followEop, isInfo, LlmpReceiver.refreshed,
    Function.update_of_ne different.symm, inUse, if_true]
  rw [← update_markBoth, Function.update_of_ne different.symm]
  rfl

end

section

variable {pages : ShMemId → LlmpPage}
variable {receiver : LlmpReceiver}
variable {read : List LlmpMsg}
variable {first second : LlmpMsg}

theorem receives_two
    (hasRead : HasRead receiver (pages receiver.currentRecvShmem) read)
    (holds :
      Holds (pages receiver.currentRecvShmem) (read ++ [first, second]))
    (ordinary : Ordinary first.tag)
    (ordinaryNext : Ordinary second.tag)
    (passes : Nat) :
    receiver.receives (passes + 2) pages = [first.content, second.content] := by
  obtain ⟨one, onSame, hasReadOne, finds⟩ :=
    receives_message hasRead holds ordinary (passes + 1)
  have holdsOne :
      Holds (pages one.currentRecvShmem) ((read ++ [first]) ++ [second]) := by
    rw [onSame]
    simpa using holds
  obtain ⟨two, onSameTwo, hasReadTwo, findsNext⟩ :=
    receives_message (onSame ▸ hasReadOne) holdsOne ordinaryNext passes
  have nothing := receives_nothing (onSameTwo ▸ hasReadTwo)
    (onSameTwo ▸ holdsOne) passes
  rw [finds, findsNext, nothing]

theorem receives_over
    {eop : LlmpMsg}
    {new : ShMemId}
    (hasRead : HasRead receiver (pages receiver.currentRecvShmem) read)
    (holds : Holds (pages receiver.currentRecvShmem) (read ++ [first, eop]))
    (isEop : IsEop eop new)
    (different : receiver.currentRecvShmem ≠ new)
    (holdsNew : Holds (pages new) [second])
    (ordinary : Ordinary first.tag)
    (ordinaryNext : Ordinary second.tag)
    (passes : Nat) :
    receiver.receives (passes + 3) pages = [first.content, second.content] := by
  obtain ⟨one, onSame, hasReadOne, finds⟩ :=
    receives_message hasRead holds ordinary (passes + 2)
  have holdsOne :
      Holds (pages one.currentRecvShmem) ((read ++ [first]) ++ [eop]) := by
    rw [onSame]
    simpa using holds
  have follows :=
    receives_link (onSame ▸ hasReadOne) holdsOne isEop (onSame ▸ different)
      holdsNew.initialized (passes + 1)
  have holdsMarked :
      Holds (markBoth pages one.currentRecvShmem new new) ([] ++ [second]) :=
    holdsNew.congr sameContents_markBoth
  obtain ⟨two, onSameTwo, hasReadTwo, findsNext⟩ :=
    @receives_message _ (.atStart one.id new) [] [] second
      (hasRead_atStart one.id new _) holdsMarked ordinaryNext passes
  have nothing := receives_nothing (onSameTwo ▸ hasReadTwo)
    (onSameTwo ▸ holdsMarked) passes
  rw [finds, follows, findsNext, nothing]

end

theorem AtSlot.hasRead
    {receiver : LlmpReceiver}
    {bufLen : Nat}
    (ready : Ready channel opened)
    (atSlot :
      AtSlot receiver (channel.allocated opened bufLen) (endOf opened)) :
    HasRead receiver channel.outPage opened := by
  obtain ⟨-, read, -, holds, hasRead⟩ := atSlot
  have allocated := holds_allocated ready bufLen
  have same : read = opened :=
    holds.layout.unique allocated.layout
      (holds.count.symm.trans allocated.count)
  subst same
  refine hasRead.grow ?_
  rw [allocated.count, ready.holds.count]

theorem receives_both
    {maps : Maps}
    {msg : LlmpMsg}
    {sent after : Channel}
    {message : Message}
    {granted : Bool}
    {receiver : LlmpReceiver}
    (settled : Settled channel opened)
    (placed : Placed channel opened msg sent)
    (ordinary : Ordinary msg.tag)
    (ordinaryNext : Ordinary message.tag)
    (sends :
      sent.sendBufWithFlags maps message.tag message.flags message.payload
        granted = .ok after)
    (here : receiver.currentRecvShmem = channel.sender.current)
    (hasRead : HasRead receiver channel.outPage opened)
    (passes : Nat) :
    receiver.receives (passes + 3) after.pages = [msg.content, message] := by
  have settledSent := settled.placed placed
  have outcome :=
    sendBufWithFlags_sent maps settledSent.ready message granted
      settledSent.notOld settledSent.notCached
      (settledSent.mapped _ List.mem_cons_self)
  have grown :
      ∀ {page : LlmpPage} {last : LlmpMsg},
        Holds page (opened ++ [msg, last]) → HasRead receiver page opened := by
    intro page last holds
    refine hasRead.grow ?_
    rw [settled.ready.holds.count, holds.count]
    simp
  have sameTag :
      ∀ {second : LlmpMsg}, second.content = message → Ordinary second.tag := by
    rintro second rfl
    exact ordinaryNext
  rw [sends] at outcome
  cases outcome with
  | @here second _ content _ placedNext =>
      have holds :
          Holds (after.pages receiver.currentRecvShmem)
            (opened ++ [msg, second]) := by
        have onPage := placedNext.ready.holds
        rw [Channel.outPage, placedNext.current, placed.current, ← here,
          List.append_assoc] at onPage
        exact onPage
      rw [receives_two (grown holds) holds ordinary (sameTag content)
        (passes + 1), content]
  | @onNext new cache fresh size middle _ second _ acquired linked content _
      placedNext =>
      have pruned := settledSent.pruned
      have different :=
        acquired.ne_current pruned.notCached
          (pruned.mapped _ List.mem_cons_self)
      have isNew : middle.sender.current = new := by
        rw [linked.sender]
      rw [pruned_current, placed.current, ← here] at different
      obtain ⟨eop, isEop, closed⟩ := linked.closed
      rw [pruned_current, placed.current, ← here] at closed
      have holds :
          Holds (after.pages receiver.currentRecvShmem)
            (opened ++ [msg, eop]) := by
        rw [placedNext.elsewhere _ (isNew.symm ▸ different.symm)]
        simpa using closed
      have holdsNew : Holds (after.pages new) [second] := by
        have onPage := placedNext.ready.holds
        rw [Channel.outPage, placedNext.current, isNew] at onPage
        exact onPage
      rw [receives_over (grown holds) holds isEop different.symm holdsNew
        ordinary (sameTag content) passes, content]

/-- Shrinking works for every slot. -/
theorem shrinksAndArrives
    (maps : Maps)
    {bufLen : Nat}
    (settled : Settled channel opened)
    (fits : ¬channel.PageFull bufLen) :
    ShrinksAndArrives maps (channel.allocated opened bufLen) (endOf opened)
      bufLen := by
  intro shrinkedLen tag flags buf smaller ordinary _
  have notUnset : tag ≠ llmpTagUnset := fun unset =>
    ordinary.1 (.inr (.inr (.inr unset)))
  obtain ⟨shrunk, sent, shrinks, sends, placed⟩ :=
    shrunk_sent settled.ready fits smaller notUnset flags buf
  refine ⟨shrunk, sent, shrinks, sends, ?_, ?_⟩
  · rw [placed.ready.holds.msgAt_endOf.1]
    rfl
  · intro message granted after receiver passes ordinaryNext sendsNext atSlot
    exact receives_both settled placed ordinary ordinaryNext sendsNext
      atSlot.1 (atSlot.hasRead settled.ready) passes

end

/--
Whenever an allocation has returned a slot: cancelling it is not as if it had never
been, and shrinking it works.
-/
theorem cancel_never_restores_but_shrinking_works
    {maps : Maps}
    {channel : Channel}
    {opened : List LlmpMsg}
    {bufLen : Nat}
    {granted : Bool}
    {next : Channel}
    {msg : Nat}
    (settled : Settled channel opened)
    (result : channel.allocNext maps bufLen granted = .allocated next msg) :
    ¬AsIfNever maps channel (next.cancelSend msg) ∧
      ShrinksAndArrives maps next msg bufLen := by
  refine ⟨not_asIfNever settled result, ?_⟩
  obtain ⟨base, openedNow, settledBase, -, fits, rfl, rfl⟩ :=
    allocNext_base settled result
  exact shrinksAndArrives maps settledBase fits

theorem cancel_never_restores_but_shrinking_works_new_sender :
    ∃ next msg,
      smallChannel.allocNext .small 100 true = .allocated next msg ∧
        ¬AsIfNever .small smallChannel (next.cancelSend msg) ∧
        ShrinksAndArrives .small next msg 100 := by
  have settled := Settled.new smallChannel_new
  obtain ⟨result, -⟩ :=
    allocNext_here .small true settled
      (show ¬smallChannel.PageFull 100 by decide +kernel)
  exact ⟨_, _, result,
    cancel_never_restores_but_shrinking_works settled result⟩

/--
A new sender gets a slot of a hundred bytes and cancels it; asked for another one,
it panics.
-/
theorem cancelled_slot_is_the_last_one :
    Channel.new .small 1 false = some smallChannel ∧
      ∃ next msg,
        smallChannel.allocNext .small 100 true = .allocated next msg ∧
          (next.cancelSend msg).allocNext .small 100 true =
            .panicked (next.cancelSend msg) :=
  ⟨smallChannel_new, _, _, rfl, rfl⟩

end MeFuzz.Llmp
