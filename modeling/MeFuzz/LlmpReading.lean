import MeFuzz.LlmpPageContents

namespace MeFuzz.Llmp

/-!
# Reading along a chain of pages

Closed pages end with an end of page that names the next one, up to the page
that the sender fills.  A receiver stands somewhere on this chain; what it has
still to read is a list of messages, and a pass of `recv` takes the first of
them, finds none, or goes on to the next page.
-/

/-- An end of page that names a page. -/
def IsEop (msg : LlmpMsg) (next : ShMemId) : Prop :=
  msg.tag = llmpTagEndOfPage ∧
    sharedMapInfoLen ≤ msg.bufLen ∧
    ∃ mapSize, msg.buf = .sharedMapInfo mapSize next

/-- A message of a user of the channel. -/
def IsData (msg : LlmpMsg) : Prop :=
  ¬Reserved msg.tag ∧ ∃ buf, msg.buf = .bytes buf ∧ msg.bufLen = buf.length

/--
What is ahead of a receiver on a page from which it has read some messages:
the messages, and the pages that it has still to go to.  The last page of the
chain is `current`, which holds the messages `opened`.
-/
inductive Ahead
    (pages : ShMemId → LlmpPage)
    (current : ShMemId)
    (opened : List LlmpMsg) :
    ShMemId → List LlmpMsg → List LlmpMsg → List ShMemId → Prop where
  | last
      (read unread : List LlmpMsg) :
      opened = read ++ unread →
      Ahead pages current opened current read unread []
  | link
      {id next : ShMemId}
      {read rest later : List LlmpMsg}
      {eop : LlmpMsg}
      {onward : List ShMemId} :
      id ≠ current →
      Holds (pages id) (read ++ rest ++ [eop]) →
      IsEop eop next →
      Ahead pages current opened next [] later onward →
      Ahead pages current opened id read (rest ++ later) (next :: onward)

namespace Ahead

variable {pages other : ShMemId → LlmpPage}
variable {current id : ShMemId}
variable {opened read unread : List LlmpMsg}
variable {onward : List ShMemId}

theorem frame
    (ahead : Ahead pages current opened id read unread onward)
    (same :
      ∀ page ∈ id :: onward,
        page ≠ current → SameContents (other page) (pages page)) :
    Ahead other current opened id read unread onward := by
  induction ahead with
  | last read unread split =>
      exact .last read unread split
  | link before holds isEop _ ih =>
      refine .link before (holds.congr (same _ (by simp) before)) isEop ?_
      exact ih fun page member =>
        same page (List.mem_cons_of_mem _ member)

theorem ends_at_current
    (ahead : Ahead pages current opened id read unread onward) :
    ∃ front, id :: onward = front ++ [current] := by
  induction ahead with
  | last read unread split =>
      exact ⟨[], rfl⟩
  | link before holds isEop _ ih =>
      obtain ⟨front, ends⟩ := ih
      exact ⟨_ :: front, by rw [ends]; rfl⟩

theorem current_mem
    (ahead : Ahead pages current opened id read unread onward) :
    current ∈ id :: onward := by
  obtain ⟨front, ends⟩ := ahead.ends_at_current
  rw [ends]
  simp

theorem put
    (ahead : Ahead pages current opened id read unread onward)
    (msg : LlmpMsg)
    (same :
      ∀ page ∈ id :: onward,
        page ≠ current → SameContents (other page) (pages page)) :
    Ahead other current (opened ++ [msg]) id read (unread ++ [msg])
      onward := by
  induction ahead with
  | last read unread split =>
      exact .last read _ (by rw [split, List.append_assoc])
  | link before holds isEop _ ih =>
      rw [List.append_assoc]
      refine .link before (holds.congr (same _ (by simp) before)) isEop ?_
      exact ih fun page member =>
        same page (List.mem_cons_of_mem _ member)

theorem extend
    (ahead : Ahead pages current opened id read unread onward)
    {eop : LlmpMsg}
    {new : ShMemId}
    (isNew : new ∉ id :: onward)
    (closed : Holds (other current) (opened ++ [eop]))
    (isEop : IsEop eop new)
    (same :
      ∀ page ∈ id :: onward,
        page ≠ current → SameContents (other page) (pages page)) :
    Ahead other new [] id read unread (onward ++ [new]) := by
  induction ahead with
  | last read unread split =>
      rw [split] at closed
      rw [← List.append_nil unread]
      refine .link ?_ closed isEop (.last [] [] rfl)
      intro isCurrent
      exact isNew (by simp [isCurrent])
  | link before holds isEopHere _ ih =>
      refine .link ?_ (holds.congr (same _ (by simp) before)) isEopHere ?_
      · intro isHere
        exact isNew (by simp [isHere])
      · exact ih
          (fun member => isNew (List.mem_cons_of_mem _ member))
          fun page member => same page (List.mem_cons_of_mem _ member)

theorem magic
    (ahead : Ahead pages current opened id read unread onward)
    (holds : Holds (pages current) opened) :
    (pages id).magic = true := by
  cases ahead with
  | last _ _ _ =>
      exact holds.initialized
  | link _ closed _ _ =>
      exact closed.initialized

end Ahead

/-- The receiver has read these messages of its page. -/
structure HasRead
    (receiver : LlmpReceiver)
    (page : LlmpPage)
    (read : List LlmpMsg) : Prop where
  position : receiver.lastMsgRecvd = lastOffset read
  cached : receiver.highestMsgId ≤ page.currentMsgId

theorem hasRead_atStart
    (id : ClientId)
    (shmem : ShMemId)
    (page : LlmpPage) :
    HasRead (.atStart id shmem) page [] :=
  ⟨rfl, Nat.zero_le _⟩

namespace HasRead

variable {receiver : LlmpReceiver}
variable {page : LlmpPage}
variable {read rest : List LlmpMsg}

theorem grow
    {other : LlmpPage}
    (hasRead : HasRead receiver page read)
    (grown : page.currentMsgId ≤ other.currentMsgId) :
    HasRead receiver other read :=
  ⟨hasRead.position, hasRead.cached.trans grown⟩

theorem latestMsgId_le
    (hasRead : HasRead receiver page read) :
    receiver.latestMsgId page ≤ page.currentMsgId := by
  unfold LlmpReceiver.latestMsgId
  split
  · exact Nat.le_refl _
  · split
    · exact hasRead.cached
    · exact Nat.le_refl _

theorem nextMsg_eq
    (hasRead : HasRead receiver page read)
    (holds : Holds page (read ++ rest)) :
    receiver.nextMsg page (receiver.latestMsgId page) =
      some (rest.head?.map fun _ => endOf read) := by
  have position := hasRead.position
  have cached := hasRead.cached
  have count := holds.count
  unfold LlmpReceiver.nextMsg LlmpReceiver.latestMsgId
  induction read using List.reverseRecOn with
  | nil =>
      rw [lastOffset_nil] at position
      cases rest with
      | nil =>
          simp [position, show page.currentMsgId = 0 from count]
      | cons msg others =>
          have some_ : page.currentMsgId ≠ 0 := by
            rw [count]
            simp
          simp [position, some_]
  | append_singleton front last _ =>
      rw [lastOffset_snoc] at position
      rw [List.append_assoc, List.singleton_append] at holds count
      obtain ⟨here, number, room⟩ := holds.msgAt_endOf
      rw [List.length_append, List.length_cons] at count
      simp only [position, here, number]
      cases rest with
      | nil =>
          simp only [List.length_nil] at count
          have notCached : ¬front.length + 1 < receiver.highestMsgId := by
            omega
          simp only [notCached, if_false, count]
          simp
      | cons msg others =>
          simp only [List.length_cons] at count
          have latest :
              (if front.length + 1 < receiver.highestMsgId then
                receiver.highestMsgId
              else page.currentMsgId) ≠ 0 ∧
              front.length + 1 ≠
                (if front.length + 1 < receiver.highestMsgId then
                  receiver.highestMsgId
                else page.currentMsgId) := by
            split <;> omega
          rw [if_neg latest.1, if_neg latest.2, nextMsgPtrChecked_eq room]
          simp

end HasRead

theorem inShmem_of_room
    {msg : LlmpMsg}
    {offset mapSize : Nat}
    (room :
      llmpPageHeaderLen + (offset + msg.extent) + llmpMsgHeaderLen ≤
        mapSize) :
    msg.inShmem offset mapSize = true := by
  have headerLen := llmpMsgHeaderLen_eq
  unfold LlmpMsg.extent at room
  unfold LlmpMsg.inShmem
  rw [if_pos (by omega), decide_eq_true_eq]
  omega

section

variable {pages : ShMemId → LlmpPage}
variable {receiver : LlmpReceiver}
variable {read rest : List LlmpMsg}
variable {msg : LlmpMsg}
variable {mapped : Bool}

/-- The receiver with the message id that it reads from its page or its cache. -/
def LlmpReceiver.refreshed
    (receiver : LlmpReceiver)
    (pages : ShMemId → LlmpPage) : LlmpReceiver :=
  { receiver with
    highestMsgId :=
      receiver.latestMsgId (pages receiver.currentRecvShmem) }

theorem recv_nothing
    (hasRead : HasRead receiver (pages receiver.currentRecvShmem) read)
    (holds : Holds (pages receiver.currentRecvShmem) read) :
    receiver.recv pages mapped =
      ⟨.nothing, pages, receiver.refreshed pages⟩ := by
  have next := @HasRead.nextMsg_eq _ _ _ [] hasRead (by simpa using holds)
  unfold LlmpReceiver.nextMsg at next
  simp only [LlmpReceiver.recv, LlmpReceiver.nextMsg, next]
  rfl

theorem recv_finds
    (hasRead : HasRead receiver (pages receiver.currentRecvShmem) read)
    (holds :
      Holds (pages receiver.currentRecvShmem) (read ++ msg :: rest)) :
    receiver.recv pages mapped =
      if msg.tag = llmpTagUnset then
        ⟨.panicked, pages, receiver.refreshed pages⟩
      else if msg.tag = llmpTagExiting then
        if msg.bufLen = 0 then
          ⟨.shuttingDown, pages, receiver.refreshed pages⟩
        else ⟨.panicked, pages, receiver.refreshed pages⟩
      else if msg.tag = llmpTagEndOfPage then
        if msg.bufLen < sharedMapInfoLen then
          ⟨.panicked, pages, receiver.refreshed pages⟩
        else
          LlmpReceiver.followEop pages (receiver.refreshed pages) msg mapped
      else
        ⟨.message msg, pages,
          { receiver.refreshed pages with
            lastMsgRecvd := some (endOf read) }⟩ := by
  have next := hasRead.nextMsg_eq holds
  obtain ⟨here, -, room⟩ := holds.msgAt_endOf
  unfold LlmpReceiver.nextMsg at next
  simp only [LlmpReceiver.recv, LlmpReceiver.nextMsg, next, here,
    inShmem_of_room room, List.head?_cons, Option.map_some, Bool.not_true,
    Bool.false_eq_true, if_false]
  rfl

theorem hasRead_refreshed
    (hasRead : HasRead receiver (pages receiver.currentRecvShmem) read) :
    HasRead (receiver.refreshed pages)
      (pages receiver.currentRecvShmem) read :=
  ⟨hasRead.position, hasRead.latestMsgId_le⟩

end

/-- The pages after a receiver has gone from one to another. -/
def markBoth
    (pages : ShMemId → LlmpPage)
    (first second : ShMemId) : ShMemId → LlmpPage :=
  fun id =>
    if id = first ∨ id = second then (pages id).markSafeToUnmap
    else pages id

section

variable {pages : ShMemId → LlmpPage}
variable {first second id : ShMemId}

theorem sameContents_markBoth :
    SameContents (markBoth pages first second id) (pages id) := by
  unfold markBoth
  split
  · exact sameContents_markSafeToUnmap _
  · exact SameContents.refl _

theorem markBoth_second :
    (markBoth pages first second second).safeToUnmap = true := by
  simp [markBoth, LlmpPage.markSafeToUnmap]

theorem markBoth_other
    (notFirst : id ≠ first)
    (notSecond : id ≠ second) :
    markBoth pages first second id = pages id := by
  simp [markBoth, notFirst, notSecond]

theorem markBoth_marked
    (marked : (pages id).safeToUnmap = true) :
    (markBoth pages first second id).safeToUnmap = true := by
  unfold markBoth
  split
  · rfl
  · exact marked

end

/-- What one pass of `recv` does to a receiver on the chain. -/
inductive Pass
    (pages : ShMemId → LlmpPage)
    (current : ShMemId)
    (opened : List LlmpMsg)
    (receiver : LlmpReceiver)
    (read : List LlmpMsg) :
    List LlmpMsg → List ShMemId → Reading → Prop where
  | stays
      {unread : List LlmpMsg}
      {onward : List ShMemId}
      {received : Received} :
      received = .nothing ∨ received = .shuttingDown ∨
        received = .panicked →
      Pass pages current opened receiver read unread onward
        ⟨received, pages, receiver.refreshed pages⟩
  | takes
      {msg : LlmpMsg}
      {unread : List LlmpMsg}
      {onward : List ShMemId} :
      Ahead pages current opened receiver.currentRecvShmem (read ++ [msg])
        unread onward →
      Pass pages current opened receiver read (msg :: unread) onward
        ⟨.message msg, pages,
          { receiver.refreshed pages with
            lastMsgRecvd := some (endOf read) }⟩
  | follows
      {next : ShMemId}
      {unread : List LlmpMsg}
      {onward : List ShMemId} :
      receiver.currentRecvShmem ≠ current →
      Ahead pages current opened next [] unread onward →
      Pass pages current opened receiver read unread (next :: onward)
        ⟨.again,
          markBoth pages receiver.currentRecvShmem next,
          .atStart receiver.id next⟩

theorem update_markBoth
    (pages : ShMemId → LlmpPage)
    (first second : ShMemId) :
    Function.update
        (Function.update pages first (pages first).markSafeToUnmap)
        second
        (Function.update pages first (pages first).markSafeToUnmap
          second).markSafeToUnmap =
      markBoth pages first second := by
  funext id
  unfold markBoth
  by_cases isSecond : id = second
  · subst isSecond
    by_cases isFirst : id = first
    · subst isFirst
      simp [LlmpPage.markSafeToUnmap]
    · simp [isFirst]
  · by_cases isFirst : id = first
    · subst isFirst
      simp [isSecond]
    · simp [isFirst, isSecond]

theorem pass_data
    {pages : ShMemId → LlmpPage}
    {current : ShMemId}
    {opened read rest unread : List LlmpMsg}
    {onward : List ShMemId}
    {receiver : LlmpReceiver}
    {msg : LlmpMsg}
    {mapped : Bool}
    (hasRead : HasRead receiver (pages receiver.currentRecvShmem) read)
    (holds : Holds (pages receiver.currentRecvShmem) (read ++ msg :: rest))
    (isData : IsData msg)
    (ahead :
      Ahead pages current opened receiver.currentRecvShmem (read ++ [msg])
        unread onward) :
    Pass pages current opened receiver read (msg :: unread) onward
      (receiver.recv pages mapped) := by
  have notReserved := isData.1
  unfold Reserved at notReserved
  push Not at notReserved
  rw [recv_finds hasRead holds, if_neg notReserved.2.2.2]
  split
  · split
    · exact .stays (.inr (.inl rfl))
    · exact .stays (.inr (.inr rfl))
  · rw [if_neg notReserved.2.1]
    exact .takes ahead

/-- One pass of `recv` with the system able to map the next page. -/
theorem recv_pass
    {pages : ShMemId → LlmpPage}
    {current : ShMemId}
    {opened read unread : List LlmpMsg}
    {onward : List ShMemId}
    {receiver : LlmpReceiver}
    (open_ : Holds (pages current) opened)
    (hasRead : HasRead receiver (pages receiver.currentRecvShmem) read)
    (ahead :
      Ahead pages current opened receiver.currentRecvShmem read unread
        onward)
    (data : ∀ msg ∈ unread, IsData msg) :
    Pass pages current opened receiver read unread onward
      (receiver.recv pages true) := by
  generalize isHere : receiver.currentRecvShmem = here at ahead
  cases ahead with
  | last _ _ split =>
      subst isHere
      cases unread with
      | nil =>
          rw [List.append_nil] at split
          rw [recv_nothing hasRead (split ▸ open_)]
          exact .stays (.inl rfl)
      | cons msg others =>
          refine pass_data hasRead (split ▸ open_) (data msg (by simp)) ?_
          exact .last _ _ (by rw [split]; simp)
  | @link _ next _ rest later eop onward before closed isEop further =>
      subst isHere
      cases rest with
      | nil =>
          rw [List.append_nil] at closed
          obtain ⟨isTag, length, mapSize, isInfo⟩ := isEop
          have mapped : (pages next).magic = true := further.magic open_
          rw [recv_finds hasRead closed, isTag]
          rw [if_neg (by decide), if_neg (by decide), if_pos rfl,
            if_neg (Nat.not_lt.mpr length)]
          simp only [LlmpReceiver.followEop, isInfo]
          rw [if_pos]
          · simp only [LlmpReceiver.refreshed]
            rw [update_markBoth]
            exact .follows before further
          · simp only [LlmpReceiver.refreshed, Function.update_apply]
            split
            · rename_i same
              rw [LlmpPage.markSafeToUnmap, ← same]
              exact mapped
            · exact mapped
      | cons msg others =>
          rw [List.append_assoc, List.cons_append] at closed
          refine pass_data hasRead closed (data msg (by simp)) ?_
          exact .link before (by simpa using closed) isEop further

end MeFuzz.Llmp
