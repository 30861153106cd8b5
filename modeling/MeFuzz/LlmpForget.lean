import MeFuzz.LlmpSenderFrame

namespace MeFuzz.Llmp

/-!
# A sender without its old pages

A sender that was rebuilt has lost the pages that it had filled or kept.  As
long as it would not have looked at them, every call does the same with and
without them.
-/

/-- Change the channel that an allocation leaves behind. -/
def Alloc.map (change : Channel → Channel) : Alloc → Alloc
  | .allocated channel msg => .allocated (change channel) msg
  | .full => .full
  | .error channel => .error (change channel)
  | .panicked channel => .panicked (change channel)

/-- Change the channel that a call leaves behind. -/
def Outcome.map (change : Channel → Channel) : Outcome → Outcome
  | .ok channel => .ok (change channel)
  | .error channel => .error (change channel)
  | .panicked channel => .panicked (change channel)

namespace Channel

/-- The sender without its oldest pages and without its unused ones. -/
def forget (lost : Nat) (channel : Channel) : Channel :=
  { channel with
    sender :=
      { channel.sender with
        earlier := channel.sender.earlier.drop lost
        unusedShmemCache := [] } }

section

variable (lost : Nat)
variable (channel : Channel)

@[simp] theorem forget_pages : (channel.forget lost).pages = channel.pages :=
  rfl

@[simp] theorem forget_fresh : (channel.forget lost).fresh = channel.fresh :=
  rfl

@[simp] theorem forget_outPage :
    (channel.forget lost).outPage = channel.outPage :=
  rfl

@[simp] theorem forget_setPage (id : ShMemId) (page : LlmpPage) :
    (channel.forget lost).setPage id page =
      (channel.setPage id page).forget lost :=
  rfl

theorem allocNextIfSpace_forget (bufLen : Nat) :
    (channel.forget lost).allocNextIfSpace bufLen =
      (channel.allocNextIfSpace bufLen).map (forget lost) := by
  unfold allocNextIfSpace
  by_cases unsent : channel.sender.hasUnsentMessage
  · rw [if_pos unsent, if_pos (by exact unsent)]
    rfl
  · rw [if_neg unsent, if_neg (by exact unsent)]
    by_cases pageFull : channel.PageFull bufLen
    · rw [if_pos pageFull, if_pos (by exact pageFull)]
      rfl
    · rw [if_neg pageFull, if_neg (by exact pageFull)]
      have sameId : (channel.forget lost).nextMessageId =
          channel.nextMessageId :=
        rfl
      rw [sameId]
      cases channel.nextMessageId with
      | none =>
          rfl
      | some messageId =>
          rfl

theorem send_forget (msg : Nat) :
    (channel.forget lost).send msg = (channel.send msg).map (forget lost) := by
  unfold send
  by_cases again : channel.sender.lastMsgSent = some msg
  · rw [if_pos again, if_pos (by exact again)]
    rfl
  · rw [if_neg again, if_neg (by exact again)]
    by_cases unset : (channel.outPage.msgAt msg).tag = llmpTagUnset
    · rw [if_pos unset, if_pos (by exact unset)]
      rfl
    · rw [if_neg unset, if_neg (by exact unset)]
      by_cases onPage : llmpPageHeaderLen + msg < channel.outPage.sizeTotal
      · rw [if_pos (by exact onPage), if_pos (by exact onPage)]
        rfl
      · rw [if_neg (by exact onPage), if_neg (by exact onPage)]
        rfl

theorem allocEop_forget :
    (channel.forget lost).allocEop = channel.allocEop.map (forget lost) := by
  unfold allocEop
  by_cases room :
      channel.outPage.sizeTotal < channel.outPage.sizeUsed + eopMsgSize
  · rw [if_pos (by exact room), if_pos (by exact room)]
    rfl
  · rw [if_neg (by exact room), if_neg (by exact room)]
    have sameLast :
        (channel.forget lost).sender.lastMsgSent =
          channel.sender.lastMsgSent :=
      rfl
    simp only [sameLast, forget_outPage, forget_setPage]
    split
    · rfl
    · split <;> rfl

/--
A new page is wanted and the sender's other pages do not matter: it prunes
none, it does not give up on a slow receiver, and no unused one is large
enough.
-/
structure OpensFresh (maps : Maps) : Prop where
  unread : ∀ id ∈ channel.sender.earlier, (channel.pages id).safeToUnmap = false
  patient :
    channel.sender.earlier.length + 1 ≤ llmpCfgMaxPendingUnreadPages
  noneFits :
    findCached channel.pages
        (nextShmemSize maps channel.outPage.maxAllocSize)
        channel.sender.unusedShmemCache =
      none

variable {lost channel}
variable {maps : Maps}

theorem OpensFresh.forget
    (opensFresh : channel.OpensFresh maps)
    (lost : Nat) :
    (channel.forget lost).OpensFresh maps where
  unread := fun id held =>
    opensFresh.unread id (List.mem_of_mem_drop held)
  patient := by
    have patient := opensFresh.patient
    simp only [Channel.forget, List.length_drop]
    omega
  noneFits := rfl

theorem OpensFresh.pruneOldPages
    (opensFresh : channel.OpensFresh maps) :
    channel.pruneOldPages = .ok channel := by
  have none :
      channel.sender.earlier.takeWhile
          (fun id => (channel.pages id).safeToUnmap) =
        [] := by
    cases held : channel.sender.earlier with
    | nil =>
        rfl
    | cons id rest =>
        have unread :=
          opensFresh.unread id (held ▸ List.mem_cons_self)
        rw [List.takeWhile_cons, unread]
        rfl
  have patient := opensFresh.patient
  unfold Channel.pruneOldPages
  simp only [none]
  rw [if_neg (by omega)]
  rfl

theorem newOrUnusedShmem_forget
    (opensFresh : channel.OpensFresh maps)
    (senderId : ClientId)
    (granted : Bool) :
    (channel.forget lost).newOrUnusedShmem senderId
        (nextShmemSize maps channel.outPage.maxAllocSize) granted =
      (channel.newOrUnusedShmem senderId
        (nextShmemSize maps channel.outPage.maxAllocSize) granted).map
        (forget lost) := by
  have noneFits :
      findCached (channel.forget lost).pages
          (nextShmemSize maps channel.outPage.maxAllocSize)
          (channel.forget lost).sender.unusedShmemCache =
        none :=
    rfl
  unfold newOrUnusedShmem
  rw [opensFresh.noneFits, noneFits]
  cases granted with
  | false =>
      rfl
  | true =>
      simp only [if_true]
      split <;> rfl

theorem linkTo_forget
    (newMap : ShMemId)
    (enough : lost ≤ channel.sender.earlier.length) :
    (channel.forget lost).linkTo newMap =
      (channel.linkTo newMap).map (forget lost) := by
  have allocates := writes_allocEop channel
  unfold linkTo
  rw [allocEop_forget]
  cases allocated : channel.allocEop with
  | full =>
      rfl
  | error after =>
      rfl
  | panicked after =>
      rfl
  | allocated after out =>
      rw [allocated] at allocates
      let linked :=
        after.setPage after.sender.current
          (after.outPage.updateMsg out fun header =>
            { header with
              buf :=
                .sharedMapInfo (after.pages newMap).mapSize newMap })
      have sends := send_forget lost linked out
      have commits :=
        (allocates.trans
          (@WritesCurrent.of_setPage after
            (after.outPage.updateMsg out fun header =>
              { header with
                buf :=
                  .sharedMapInfo (after.pages newMap).mapSize newMap })
            ⟨rfl, rfl, rfl, rfl⟩)).trans (writes_send linked out)
      change
        (match (linked.forget lost).send out with
          | .ok closed => _
          | .error closed => _
          | .panicked closed => _) =
        Outcome.map (forget lost)
          (match linked.send out with
            | .ok closed => _
            | .error closed => _
            | .panicked closed => _)
      rw [sends]
      cases sent : linked.send out with
      | error closed =>
          rfl
      | panicked closed =>
          rfl
      | ok closed =>
          rw [sent] at commits
          have same : closed.sender.earlier = channel.sender.earlier := by
            rw [Outcome.channel] at commits
            rw [commits.sender]
          have dropped :
              closed.sender.earlier.drop lost ++ [closed.sender.current] =
                (closed.sender.earlier ++ [closed.sender.current]).drop
                  lost := by
            rw [List.drop_append_of_le_length (same ▸ enough)]
          simp only [Outcome.map, forget, ← dropped]

theorem linkNewPage_forget
    (opensFresh : channel.OpensFresh maps)
    (enough : lost ≤ channel.sender.earlier.length)
    (granted : Bool) :
    (channel.forget lost).linkNewPage maps granted =
      (channel.linkNewPage maps granted).map (forget lost) := by
  have gets :=
    @newOrUnusedShmem_forget lost channel maps opensFresh
      channel.outPage.senderId granted
  have sameEarlier :
      ∀ next newMap,
        channel.newOrUnusedShmem channel.outPage.senderId
            (nextShmemSize maps channel.outPage.maxAllocSize) granted =
          .allocated next newMap →
        next.sender.earlier = channel.sender.earlier := by
    intro next newMap got
    unfold newOrUnusedShmem at got
    rw [opensFresh.noneFits] at got
    cases granted with
    | false =>
        cases got
    | true =>
        simp only [if_true] at got
        split at got
        · cases got
          rfl
        · cases got
  unfold linkNewPage
  simp only [forget_outPage, gets]
  cases got :
      channel.newOrUnusedShmem channel.outPage.senderId
        (nextShmemSize maps channel.outPage.maxAllocSize) granted with
  | full =>
      rfl
  | error after =>
      rfl
  | panicked after =>
      rfl
  | allocated next newMap =>
      let opened :=
        next.setPage newMap
          { next.pages newMap with
            currentMsgId := 0
            maxAllocSize := channel.outPage.maxAllocSize }
      have enoughThen : lost ≤ opened.sender.earlier.length :=
        (sameEarlier next newMap got).symm ▸ enough
      exact @linkTo_forget lost opened newMap enoughThen

theorem handleOutEop_forget
    (opensFresh : channel.OpensFresh maps)
    (enough : lost ≤ channel.sender.earlier.length)
    (granted : Bool) :
    (channel.forget lost).handleOutEop maps granted =
      (channel.handleOutEop maps granted).map (forget lost) := by
  have links := linkNewPage_forget opensFresh enough granted
  unfold handleOutEop
  rw [opensFresh.pruneOldPages, (opensFresh.forget lost).pruneOldPages]
  cases keeps : channel.sender.keepPagesForever with
  | true =>
      rw [if_pos rfl, if_pos (by exact keeps), links]
  | false =>
      rw [if_neg Bool.false_ne_true,
        if_neg (by exact Bool.eq_false_iff.mp keeps)]
      exact links

/-- The page has room, or what was forgotten does not matter for a new one. -/
def Unaffected
    (maps : Maps)
    (channel : Channel)
    (bufLen : Nat) : Prop :=
  ¬channel.PageFull bufLen ∨ channel.OpensFresh maps

theorem pageFull_of_full
    {bufLen : Nat}
    (full : channel.allocNextIfSpace bufLen = .full) :
    channel.PageFull bufLen := by
  by_contra notFull
  unfold allocNextIfSpace at full
  rw [if_neg notFull] at full
  split at full
  · cases full
  · split at full <;> cases full

theorem allocNext_forget
    {bufLen : Nat}
    (unaffected : channel.Unaffected maps bufLen)
    (enough : lost ≤ channel.sender.earlier.length)
    (granted : Bool) :
    (channel.forget lost).allocNext maps bufLen granted =
      (channel.allocNext maps bufLen granted).map (forget lost) := by
  unfold allocNext
  rw [allocNextIfSpace_forget]
  cases allocates : channel.allocNextIfSpace bufLen with
  | allocated after msg =>
      rfl
  | error after =>
      rfl
  | panicked after =>
      rfl
  | full =>
      have opensFresh :=
        unaffected.resolve_left (not_not.mpr (pageFull_of_full allocates))
      simp only [Alloc.map, handleOutEop_forget opensFresh enough granted]
      cases channel.handleOutEop maps granted with
      | error after =>
          rfl
      | panicked after =>
          rfl
      | ok after =>
          simp only [Outcome.map, allocNextIfSpace_forget]
          cases after.allocNextIfSpace bufLen <;> rfl

theorem sendBufWithFlags_forget
    {buf : Bytes}
    (unaffected : channel.Unaffected maps buf.length)
    (enough : lost ≤ channel.sender.earlier.length)
    (tag : Tag)
    (flags : Flags)
    (granted : Bool) :
    (channel.forget lost).sendBufWithFlags maps tag flags buf granted =
      (channel.sendBufWithFlags maps tag flags buf granted).map
        (forget lost) := by
  unfold sendBufWithFlags
  by_cases reserved : Reserved tag
  · rw [if_pos reserved, if_pos reserved]
    rfl
  · rw [if_neg reserved, if_neg reserved,
      allocNext_forget unaffected enough granted]
    cases channel.allocNext maps buf.length granted with
    | full =>
        rfl
    | error after =>
        rfl
    | panicked after =>
        rfl
    | allocated after msg =>
        exact send_forget lost (after.fill msg tag flags (.bytes buf)) msg

/-! ### Pages are added to the sender's, and none taken away -/

theorem WritesCurrent.earlier
    {next : Channel}
    (writes : WritesCurrent channel next) :
    next.sender.earlier = channel.sender.earlier := by
  rw [writes.sender]

theorem earlier_linkTo (newMap : ShMemId) :
    channel.sender.earlier <+: (channel.linkTo newMap).channel.sender.earlier := by
  have allocates := (writes_allocEop channel).earlier
  unfold linkTo
  split
  · rename_i after out is
    rw [is] at allocates
    have commits :=
      (writes_send
        (after.setPage after.sender.current
          (after.outPage.updateMsg out fun header =>
            { header with
              buf :=
                .sharedMapInfo (after.pages newMap).mapSize newMap }))
        out).earlier
    dsimp only
    split <;>
      (rename_i closed isClosed
       rw [isClosed] at commits
       rw [← allocates]
       change closed.sender.earlier = after.sender.earlier at commits)
    · rw [Alloc.channelAfter, ← commits]
      exact List.prefix_append _ _
    · exact commits ▸ List.prefix_rfl
    · exact commits ▸ List.prefix_rfl
  · exact List.prefix_rfl
  · rename_i after is
    rw [is] at allocates
    exact allocates ▸ List.prefix_rfl
  · rename_i after is
    rw [is] at allocates
    exact allocates ▸ List.prefix_rfl

theorem earlier_newOrUnusedShmem
    (senderId : ClientId)
    (minSize : Nat)
    (granted : Bool) :
    ((channel.newOrUnusedShmem senderId minSize granted).channelAfter
      channel).sender.earlier = channel.sender.earlier := by
  unfold newOrUnusedShmem
  split
  · dsimp only
    split <;> rfl
  · dsimp only
    split
    · split <;> rfl
    · rfl

theorem earlier_handleOutEop
    (opensFresh : channel.OpensFresh maps)
    (granted : Bool) :
    channel.sender.earlier <+:
      (channel.handleOutEop maps granted).channel.sender.earlier := by
  have links :
      channel.sender.earlier <+:
        (channel.linkNewPage maps granted).channel.sender.earlier := by
    have gets :=
      @earlier_newOrUnusedShmem channel channel.outPage.senderId
        (nextShmemSize maps channel.outPage.maxAllocSize) granted
    unfold linkNewPage
    dsimp only
    split
    · rename_i next newMap is
      rw [is] at gets
      rw [← gets]
      exact @earlier_linkTo (next.setPage newMap _) newMap
    · exact List.prefix_rfl
    · rename_i after is
      rw [is] at gets
      exact gets ▸ List.prefix_rfl
    · rename_i after is
      rw [is] at gets
      exact gets ▸ List.prefix_rfl
  unfold handleOutEop
  rw [opensFresh.pruneOldPages]
  split <;> exact links

theorem earlier_allocNext
    {bufLen : Nat}
    (unaffected : channel.Unaffected maps bufLen)
    (granted : Bool) :
    channel.sender.earlier <+:
      ((channel.allocNext maps bufLen granted).channelAfter
        channel).sender.earlier := by
  have allocates := (writes_allocNextIfSpace channel bufLen).earlier
  unfold allocNext
  split
  · rename_i is
    have turns :=
      earlier_handleOutEop
        (unaffected.resolve_left
          (not_not.mpr (pageFull_of_full is))) granted
    split
    · rename_i turned isTurned
      rw [isTurned] at turns
      have allocatesThen := (writes_allocNextIfSpace turned bufLen).earlier
      split <;>
        (rename_i isThen
         rw [isThen] at allocatesThen
         exact turns.trans (allocatesThen ▸ List.prefix_rfl))
    · rename_i after isAfter
      rw [isAfter] at turns
      exact turns
    · rename_i after isAfter
      rw [isAfter] at turns
      exact turns
  all_goals
    rename_i is
    rw [is] at allocates
    exact allocates ▸ List.prefix_rfl

theorem earlier_sendBufWithFlags
    {buf : Bytes}
    (unaffected : channel.Unaffected maps buf.length)
    (tag : Tag)
    (flags : Flags)
    (granted : Bool) :
    channel.sender.earlier <+:
      (channel.sendBufWithFlags maps tag flags buf
        granted).channel.sender.earlier := by
  have allocates := earlier_allocNext unaffected granted
  unfold sendBufWithFlags
  split
  · exact List.prefix_rfl
  · split
    · rename_i after msg is
      rw [is] at allocates
      have commits :=
        ((writes_fill after msg tag flags (.bytes buf)).trans
          (writes_send _ msg)).earlier
      exact allocates.trans (commits ▸ List.prefix_rfl)
    · exact List.prefix_rfl
    · rename_i after is
      rw [is] at allocates
      exact allocates
    · rename_i after is
      rw [is] at allocates
      exact allocates

end

end Channel

end MeFuzz.Llmp
