import MeFuzz.LlmpCancelShrink

namespace MeFuzz.Llmp

/-!
# Forwarding a message

The broker copies a message of a client to its own page.  The slot is padded for its
own place, so it may be longer than the message: the copy takes the header and what
lies behind it, up to the length of the slot.  The padded length and the id are the
ones of the slot again; all else is the client's.
-/

namespace Channel

/-- `send`; the message gets the sender's id only if that is asked for. -/
def sendMsg (channel : Channel) (msg : Nat) (overwriteClientId : Bool) : Outcome :=
  if channel.sender.lastMsgSent = some msg then .panicked channel
  else if (channel.outPage.msgAt msg).tag = llmpTagUnset then
    .panicked channel
  else
    let page :=
      if overwriteClientId then
        channel.outPage.updateMsg msg fun header =>
          { header with sender := channel.sender.id }
      else channel.outPage
    if llmpPageHeaderLen + msg < page.sizeTotal then
      let messageId := page.currentMsgId + 1
      let page := page.updateMsg msg fun header =>
        { header with messageId := messageId }
      let channel := channel.setPage channel.sender.current
        { page with currentMsgId := messageId }
      .ok
        { channel with
          sender :=
            { channel.sender with
              lastMsgSent := some msg
              hasUnsentMessage := false } }
    else .error (channel.setPage channel.sender.current page)

/--
The copy of a message to a slot.  The bytes from the message's payload on, to the end
of the map that it lies in, are `memory`.
-/
def copyMsg
    (channel : Channel)
    (msg : LlmpMsg)
    (memory : Bytes)
    (out : Nat) : Channel :=
  let page := channel.outPage
  let actualSize := (page.msgAt out).bufLenPadded
  let completeSize := actualSize + llmpMsgHeaderLen
  channel.setPage channel.sender.current
    (((page.overwrite out (out + completeSize)).updateMsg out fun _ =>
        { msg with buf := .bytes (memory.take actualSize) }).updateMsg out
      fun header => { header with bufLenPadded := actualSize })

/-- `forward_msg`. -/
def forwardMsg
    (maps : Maps)
    (channel : Channel)
    (msg : LlmpMsg)
    (memory : Bytes)
    (granted : Bool) : Outcome :=
  match channel.allocNext maps msg.bufLenPadded granted with
  | .allocated allocated out =>
      match (allocated.copyMsg msg memory out).sendMsg out false with
      | .ok sent =>
          .ok { sent with sender := { sent.sender with lastMsgSent := some out } }
      | .error sent => .panicked sent
      | .panicked sent => .panicked sent
  | .full => .error channel
  | .error allocated => .error allocated
  | .panicked allocated => .panicked allocated

end Channel

/-- A message with a tag, whose payload lies in its padded length. -/
structure Forwardable (msg : LlmpMsg) : Prop where
  tagged : msg.tag ≠ llmpTagUnset
  payload : ∃ buf, msg.buf = .bytes buf ∧ msg.bufLen ≤ buf.length
  fits : msg.bufLen ≤ msg.bufLenPadded

/-- The memory from a message's payload on begins with the payload. -/
def BeginsWith (msg : LlmpMsg) (memory : Bytes) : Prop :=
  ∀ buf, msg.buf = .bytes buf → buf <+: memory

section

variable {client : Channel}
variable {opened : List LlmpMsg}
variable {tag : Tag}
variable {flags : Flags}
variable {buf : Bytes}

theorem forwardable_placedMsg (notUnset : tag ≠ llmpTagUnset) :
    Forwardable (placedMsg client opened tag flags buf) :=
  ⟨notUnset, ⟨buf, rfl, le_rfl⟩, le_paddedLength _ _⟩

end

/--
Where a message of a client lies: on a page with another one behind it, or at the end
of the page that the client is on.
-/
inductive LiesOn : LlmpPage → Nat → LlmpMsg → Prop where
  | followed
      {page : LlmpPage}
      {front back : List LlmpMsg}
      {msg next : LlmpMsg} :
      Holds page (front ++ msg :: next :: back) →
      LiesOn page (endOf front) msg
  | last
      {client : Channel}
      {front : List LlmpMsg}
      {msg : LlmpMsg} :
      Ready client (front ++ [msg]) →
      LiesOn client.outPage (endOf front) msg

theorem LiesOn.room
    {page : LlmpPage}
    {offset : Nat}
    {msg : LlmpMsg}
    (lies : LiesOn page offset msg) :
    llmpPageHeaderLen + offset + msg.extent + llmpCfgAlignment ≤ page.mapSize := by
  cases lies with
  | @followed _ front back _ next holds =>
      have behind : front ++ msg :: next :: back = (front ++ [msg]) ++ next :: back := by
        simp
      rw [behind] at holds
      obtain ⟨-, -, room⟩ := holds.msgAt_endOf
      rw [endOf_append, endOf_cons, endOf_nil, Nat.add_zero] at room
      unfold LlmpMsg.extent llmpMsgHeaderLen at room
      unfold LlmpMsg.extent llmpMsgHeaderLen llmpCfgAlignment
      omega
  | @last client front _ ready =>
      have room := ready.room
      have total := ready.total
      rw [endOf_append, endOf_cons, endOf_nil, Nat.add_zero, eopMsgSize_eq] at room
      unfold llmpCfgAlignment
      omega

/-- The header of a message that was forwarded. -/
def forwardedMsg
    (opened : List LlmpMsg)
    (msg : LlmpMsg)
    (memory : Bytes) : LlmpMsg :=
  let actualSize := paddedLength (endOf opened) msg.bufLenPadded
  { msg with
    messageId := opened.length + 1
    bufLenPadded := actualSize
    buf := .bytes (memory.take actualSize) }

/-- A copy that is as good as the message. -/
structure Faithful (msg copy : LlmpMsg) : Prop where
  sender : copy.sender = msg.sender
  tag : copy.tag = msg.tag
  flags : copy.flags = msg.flags
  bufLen : copy.bufLen = msg.bufLen
  content : copy.content = msg.content
  inSlot : copy.bufLen ≤ copy.bufLenPadded
  padding :
    msg.bufLenPadded ≤ copy.bufLenPadded ∧
      copy.bufLenPadded < msg.bufLenPadded + llmpCfgAlignment

theorem paddedLength_lt (sizeUsed bufLen : Nat) :
    paddedLength sizeUsed bufLen < bufLen + llmpCfgAlignment := by
  unfold paddedLength llmpCfgAlignment
  simp only [llmpAlign_eq]
  omega

theorem faithful_forwardedMsg
    {msg : LlmpMsg}
    {memory : Bytes}
    (opened : List LlmpMsg)
    (forwardable : Forwardable msg)
    (begins : BeginsWith msg memory) :
    Faithful msg (forwardedMsg opened msg memory) := by
  have padded := le_paddedLength (endOf opened) msg.bufLenPadded
  have inSlot := forwardable.fits.trans padded
  refine ⟨rfl, rfl, rfl, rfl, ?_, inSlot, padded, paddedLength_lt _ _⟩
  obtain ⟨buf, isBuf, isWhole⟩ := forwardable.payload
  obtain ⟨behind, split⟩ := begins buf isBuf
  unfold LlmpMsg.content forwardedMsg
  rw [isBuf]
  dsimp only
  rw [List.take_take, min_eq_left inSlot, ← split,
    List.take_append_of_le_length isWhole]

section

variable {base : Channel}
variable {opened : List LlmpMsg}
variable {msg : LlmpMsg}
variable {memory : Bytes}

/-- The page once a message was copied to the slot that was allocated for it. -/
def LlmpPage.copied
    (page : LlmpPage)
    (opened : List LlmpMsg)
    (msg : LlmpMsg)
    (memory : Bytes) : LlmpPage :=
  let actualSize := paddedLength (endOf opened) msg.bufLenPadded
  (((page.allocate (opened.length + 1) msg.bufLenPadded).overwrite (endOf opened)
      (endOf opened + (actualSize + llmpMsgHeaderLen))).updateMsg (endOf opened)
        fun _ => { msg with buf := .bytes (memory.take actualSize) }).updateMsg
    (endOf opened) fun header => { header with bufLenPadded := actualSize }

/-- The page once the copy was committed. -/
def LlmpPage.forwarded
    (page : LlmpPage)
    (opened : List LlmpMsg)
    (msg : LlmpMsg)
    (memory : Bytes) : LlmpPage :=
  { (page.copied opened msg memory).updateMsg (endOf opened) fun header =>
      { header with messageId := opened.length + 1 } with
    currentMsgId := opened.length + 1 }

theorem forwarded_here :
    (base.outPage.forwarded opened msg memory).messages (endOf opened) =
      some (forwardedMsg opened msg memory) := by
  simp [LlmpPage.forwarded, LlmpPage.copied, forwardedMsg]

theorem forwarded_below
    (ready : Ready base opened)
    {offset : Nat}
    (isBelow : offset < endOf opened) :
    (base.outPage.forwarded opened msg memory).messages offset =
      base.outPage.messages offset := by
  have below : offset < base.outPage.sizeUsed := by
    rw [ready.used]
    exact isBelow
  unfold LlmpPage.forwarded LlmpPage.copied
  dsimp only
  rw [LlmpPage.updateMsg_other _ _ _ isBelow.ne,
    LlmpPage.updateMsg_other _ _ _ isBelow.ne,
    LlmpPage.updateMsg_other _ _ _ isBelow.ne,
    LlmpPage.overwrite_below _ isBelow.le, allocate_below _ _ _ below]

theorem forwarded_behind (ready : Ready base opened) :
    ((base.outPage.forwarded opened msg memory).msgAt
      (endOf opened + (forwardedMsg opened msg memory).extent)).tag =
        llmpTagUnset := by
  have free := @allocate_behind base.outPage (opened.length + 1) msg.bufLenPadded
  rw [ready.used] at free
  have isBehind :
      endOf opened + (forwardedMsg opened msg memory).extent =
        endOf opened + llmpMsgHeaderLen +
          paddedLength (endOf opened) msg.bufLenPadded := by
    rw [Nat.add_assoc]
    rfl
  have notHere :
      endOf opened + llmpMsgHeaderLen +
          paddedLength (endOf opened) msg.bufLenPadded ≠ endOf opened := by
    rw [llmpMsgHeaderLen_eq]
    omega
  have notOverwritten :
      ¬(endOf opened + llmpMsgHeaderLen +
          paddedLength (endOf opened) msg.bufLenPadded <
        endOf opened +
          (paddedLength (endOf opened) msg.bufLenPadded + llmpMsgHeaderLen)) := by
    omega
  rw [isBehind, ← free]
  unfold LlmpPage.forwarded LlmpPage.copied LlmpPage.msgAt
  dsimp only
  rw [LlmpPage.updateMsg_other _ _ _ notHere,
    LlmpPage.updateMsg_other _ _ _ notHere,
    LlmpPage.updateMsg_other _ _ _ notHere]
  unfold LlmpPage.overwrite
  dsimp only
  rw [if_neg fun both => notOverwritten both.2]

theorem forwarded_sameFrame (page : LlmpPage) :
    (page.forwarded opened msg memory).SameFrame page := by
  constructor <;> simp [LlmpPage.forwarded, LlmpPage.copied, LlmpPage.allocate]

theorem forwarded_safeToUnmap (page : LlmpPage) :
    (page.forwarded opened msg memory).safeToUnmap = page.safeToUnmap := by
  simp [LlmpPage.forwarded, LlmpPage.copied, LlmpPage.allocate]

theorem forwarded_currentMsgId (page : LlmpPage) :
    (page.forwarded opened msg memory).currentMsgId = opened.length + 1 :=
  rfl

theorem forwarded_sizeUsed (page : LlmpPage) :
    (page.forwarded opened msg memory).sizeUsed =
      page.sizeUsed + llmpMsgHeaderLen +
        paddedLength page.sizeUsed msg.bufLenPadded := by
  simp [LlmpPage.forwarded, LlmpPage.copied, LlmpPage.allocate]

theorem extent_forwardedMsg :
    (forwardedMsg opened msg memory).extent =
      llmpMsgHeaderLen + paddedLength (endOf opened) msg.bufLenPadded :=
  rfl

theorem placed_forwarded
    (ready : Ready base opened)
    (fits : ¬base.PageFull msg.bufLenPadded) :
    Placed base opened (forwardedMsg opened msg memory)
      { base.setPage base.sender.current
          (base.outPage.forwarded opened msg memory) with
        sender := { base.sender with lastMsgSent := some (endOf opened) } } := by
  have room := room_of_fits ready fits
  refine
    placed_of_page ready (forwarded_sameFrame _) (forwarded_safeToUnmap _) ?_ ?_
      (fun _ => forwarded_below ready) forwarded_here rfl (forwarded_behind ready) ?_
  · rw [forwarded_currentMsgId, ready.holds.count]
  · rw [forwarded_sizeUsed, extent_forwardedMsg, ready.used, Nat.add_assoc]
  · rw [extent_forwardedMsg, ← Nat.add_assoc]
    exact room

theorem copyMsg_eq (ready : Ready base opened) :
    (base.allocated opened msg.bufLenPadded).copyMsg msg memory (endOf opened) =
      { base.setPage base.sender.current
          (base.outPage.copied opened msg memory) with
        sender := { base.sender with hasUnsentMessage := true } } := by
  have actualSize :
      ((base.outPage.allocate (opened.length + 1) msg.bufLenPadded).msgAt
          (endOf opened)).bufLenPadded =
        paddedLength (endOf opened) msg.bufLenPadded := by
    rw [← ready.used, allocate_here]
  unfold Channel.copyMsg
  rw [outPage_allocated]
  dsimp only
  rw [actualSize]
  simp [Channel.allocated, Channel.setPage, LlmpPage.copied]

theorem sendMsg_copyMsg
    (ready : Ready base opened)
    (notUnset : msg.tag ≠ llmpTagUnset)
    (fits : ¬base.PageFull msg.bufLenPadded) :
    ((base.allocated opened msg.bufLenPadded).copyMsg msg memory
        (endOf opened)).sendMsg (endOf opened) false =
      .ok
        { base.setPage base.sender.current
            (base.outPage.forwarded opened msg memory) with
          sender :=
            { base.sender with lastMsgSent := some (endOf opened) } } := by
  have room := room_of_fits ready fits
  have notSent : base.sender.lastMsgSent ≠ some (endOf opened) := by
    rw [ready.position]
    exact lastOffset_ne_endOf opened
  have tagged :
      ((base.outPage.copied opened msg memory).msgAt (endOf opened)).tag =
        msg.tag := by
    simp [LlmpPage.copied]
  have onPage :
      llmpPageHeaderLen + endOf opened <
        (base.outPage.copied opened msg memory).sizeTotal := by
    have same :
        (base.outPage.copied opened msg memory).sizeTotal =
          base.outPage.sizeTotal := by
      simp [LlmpPage.copied, LlmpPage.allocate]
    rw [same, llmpPageHeaderLen_eq]
    rw [eopMsgSize_eq] at room
    omega
  have count :
      (base.outPage.copied opened msg memory).currentMsgId = opened.length := by
    rw [← ready.holds.count]
    simp [LlmpPage.copied, LlmpPage.allocate]
  have page :
      Channel.outPage
          { base.setPage base.sender.current
              (base.outPage.copied opened msg memory) with
            sender := { base.sender with hasUnsentMessage := true } } =
        base.outPage.copied opened msg memory := by
    simp [Channel.outPage, Channel.setPage]
  rw [copyMsg_eq ready]
  unfold Channel.sendMsg
  rw [page, tagged]
  simp only [notSent, notUnset, onPage, count, if_true, if_false,
    Bool.false_eq_true]
  simp [Channel.setPage, LlmpPage.forwarded, ready.committed]

end

/--
The broker's messages on its page, with a faithful copy behind them.  The copy fills
its slot, and the next slot on the page is the one behind it.
-/
structure Appended
    (channel : Channel)
    (opened : List LlmpMsg)
    (msg : LlmpMsg)
    (base : Channel)
    (openedNow : List LlmpMsg)
    (copy : LlmpMsg)
    (after : Channel) : Prop where
  wentOn : WentOn channel opened base openedNow
  placed : Placed base openedNow copy after
  settled : Settled after (openedNow ++ [copy])
  faithful : Faithful msg copy
  slot : after.outPage.sizeUsed = endOf openedNow + copy.extent
  next :
    ∀ bufLen,
      ¬after.PageFull bufLen →
      ∃ next,
        after.allocNextIfSpace bufLen =
          .allocated next (endOf openedNow + copy.extent)

section

variable {maps : Maps}
variable {channel : Channel}
variable {opened : List LlmpMsg}
variable {msg : LlmpMsg}
variable {memory : Bytes}
variable {granted : Bool}

theorem forwardMsg_of_allocated
    {allocated : Channel}
    {out : Nat}
    (settled : Settled channel opened)
    (forwardable : Forwardable msg)
    (begins : BeginsWith msg memory)
    (result :
      channel.allocNext maps msg.bufLenPadded granted =
        .allocated allocated out) :
    ∃ base openedNow after,
      channel.forwardMsg maps msg memory granted = .ok after ∧
        Appended channel opened msg base openedNow
          (forwardedMsg openedNow msg memory) after := by
  obtain ⟨base, openedNow, isSettled, wentOn, fits, rfl, rfl⟩ :=
    allocNext_base settled result
  have sent :=
    @sendMsg_copyMsg base openedNow msg memory isSettled.ready forwardable.tagged fits
  have placed := @placed_forwarded base openedNow msg memory isSettled.ready fits
  have used := placed.ready.used
  have next := fun bufLen => @allocNextIfSpace_eq _ _ bufLen placed.ready
  rw [endOf_append, endOf_cons, endOf_nil, Nat.add_zero] at used next
  have appended : Appended channel opened msg base openedNow _ _ :=
    { wentOn := wentOn
      placed := placed
      settled := isSettled.placed placed
      faithful := faithful_forwardedMsg openedNow forwardable begins
      slot := used
      next := fun bufLen hasRoom => ⟨_, next bufLen hasRoom⟩ }
  refine ⟨base, openedNow, _, ?_, appended⟩
  unfold Channel.forwardMsg
  rw [result]
  dsimp only
  rw [sent]

theorem forwardMsg_of_not_allocated
    (noSlot :
      ∀ allocated out,
        channel.allocNext maps msg.bufLenPadded granted ≠
          .allocated allocated out)
    (settled : Settled channel opened) :
    (∀ after, channel.forwardMsg maps msg memory granted ≠ .ok after) ∧
      (∀ next,
        channel.forwardMsg maps msg memory granted = .error next →
          NothingLost channel opened next ∧ ∃ openedNow, Settled next openedNow) ∧
      ∀ next,
        channel.forwardMsg maps msg memory granted = .panicked next →
          channel.SlowReceiver := by
  obtain ⟨-, fails, panics⟩ :=
    allocNext_outcome maps settled msg.bufLenPadded granted
  unfold Channel.forwardMsg
  cases result : channel.allocNext maps msg.bufLenPadded granted with
  | allocated allocated out =>
      exact absurd result (noSlot allocated out)
  | full =>
      refine ⟨fun _ => nofun, ?_, fun _ => nofun⟩
      rintro _ ⟨⟩
      exact
        ⟨nothingLost_of_holds settled.ready.holds fun _ _ => rfl, opened, settled⟩
  | error next =>
      refine ⟨fun _ => nofun, ?_, fun _ => nofun⟩
      rintro _ ⟨⟩
      exact fails next result
  | panicked next =>
      exact ⟨fun _ => nofun, fun _ => nofun, fun _ _ => (panics next result).2⟩

variable {source : LlmpPage}
variable {offset : Nat}

/--
A message that is forwarded is appended as a faithful copy, made of bytes of the map
that it lies in.  An error appends nothing and leaves a broker that can go on, and a
broker that keeps its pages does not panic.
-/
theorem forwarded_message_is_faithful
    (maps : Maps)
    (settled : Settled channel opened)
    (forwardable : Forwardable msg)
    (begins : BeginsWith msg memory)
    (lies : LiesOn source offset msg)
    (granted : Bool) :
    (∀ after,
      channel.forwardMsg maps msg memory granted = .ok after →
        ∃ base openedNow copy,
          Appended channel opened msg base openedNow copy after ∧
            llmpPageHeaderLen + offset + copy.extent ≤ source.mapSize) ∧
      (∀ next,
        channel.forwardMsg maps msg memory granted = .error next →
          NothingLost channel opened next ∧ ∃ openedNow, Settled next openedNow) ∧
      (channel.sender.keepPagesForever = true →
        ∀ next, channel.forwardMsg maps msg memory granted ≠ .panicked next) := by
  by_cases hasSlot :
      ∃ allocated out,
        channel.allocNext maps msg.bufLenPadded granted = .allocated allocated out
  · obtain ⟨allocated, out, result⟩ := hasSlot
    obtain ⟨base, openedNow, after, forwards, appended⟩ :=
      forwardMsg_of_allocated settled forwardable begins result
    rw [forwards]
    refine ⟨?_, fun _ => nofun, fun _ _ => nofun⟩
    rintro _ ⟨⟩
    refine ⟨base, openedNow, _, appended, ?_⟩
    have room := lies.room
    have longer := appended.faithful.padding.2
    unfold LlmpMsg.extent at room ⊢
    omega
  · obtain ⟨never, fails, panics⟩ :=
      @forwardMsg_of_not_allocated maps channel opened msg memory granted
        (fun allocated out result => hasSlot ⟨allocated, out, result⟩) settled
    refine ⟨fun after forwards => absurd forwards (never after), fails, ?_⟩
    intro keeps next panicked
    have prunes := (panics next panicked).1
    rw [keeps] at prunes
    cases prunes

end

/-- A broker on its first small map. -/
def smallBroker : Channel :=
  (Channel.new .small 0 true).get Channel.isSome_new_broker

theorem smallBroker_new : Channel.new .small 0 true = some smallBroker :=
  (Option.some_get _).symm

/-- The first message of a client on its page. -/
def firstMsg : LlmpMsg :=
  placedMsg smallChannel [] 1 0 [1, 2, 3]

theorem forwarded_message_is_faithful_first :
    ∃ after base openedNow copy,
      smallBroker.forwardMsg .small firstMsg [1, 2, 3] true = .ok after ∧
        Appended smallBroker [] firstMsg base openedNow copy after := by
  have begins : BeginsWith firstMsg [1, 2, 3] := by
    rintro buf ⟨⟩
    exact List.prefix_rfl
  have isFirst : Ready (smallChannel.place [] 1 0 [1, 2, 3]) ([] ++ [firstMsg]) :=
    (placed (Settled.new smallChannel_new).ready 1 0 [1, 2, 3] (by decide +kernel)).ready
  obtain ⟨appends, -, -⟩ :=
    forwarded_message_is_faithful .small (Settled.new smallBroker_new)
      (forwardable_placedMsg (by decide)) begins (.last isFirst) true
  obtain ⟨base, openedNow, copy, appended, -⟩ := appends _ rfl
  exact ⟨_, base, openedNow, copy, rfl, appended⟩

end MeFuzz.Llmp
