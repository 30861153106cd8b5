import MeFuzz.LlmpClientChannel
import MeFuzz.LlmpSenderFrame

namespace MeFuzz.Llmp

/-!
# Getting a slot for a message

An allocation takes the next slot of the current page, or goes on to another page
and takes the first slot there.  The size of that other page follows from the
slots taken so far and not from the one that is asked for.  Where no slot is
found, what was sent is still on the current page and on the old ones that are not
marked, and the sender is as good as before on the page that it is on.  A receiver
marks a page when it maps it, so that a marked page may be unread.
-/

/-- A sender between two calls; its maps exist and are all different. -/
structure Settled (channel : Channel) (opened : List LlmpMsg) : Prop where
  ready : Ready channel opened
  distinct : channel.sender.held.Nodup
  mapped : ∀ id ∈ channel.sender.held, id < channel.fresh

/-- Old pages that are not marked keep what they hold, as does the current one. -/
structure NothingLost
    (channel : Channel)
    (opened : List LlmpMsg)
    (next : Channel) : Prop where
  unread :
    ∀ id ∈ channel.sender.earlier,
      channel.sender.keepPagesForever = true ∨
          (channel.pages id).safeToUnmap = false →
        next.pages id = channel.pages id
  sent :
    ∃ links,
      Holds (next.pages channel.sender.current) (opened ++ links) ∧
        ∀ link ∈ links, IsEop link next.sender.current

/-- A slot for a payload behind the committed messages of the current page. -/
structure Slot (channel : Channel) (msg bufLen : Nat) : Prop where
  length : (channel.outPage.msgAt msg).bufLen = bufLen
  padded : bufLen ≤ (channel.outPage.msgAt msg).bufLenPadded
  room :
    llmpPageHeaderLen + (msg + (channel.outPage.msgAt msg).extent) +
        eopMsgSize ≤
      channel.outPage.mapSize
  behind : ∃ opened, endOf opened = msg ∧ Holds channel.outPage opened
  unsent : channel.sender.hasUnsentMessage = true

namespace Channel

/-- The sender gives up on a receiver that has not mapped its oldest page. -/
def SlowReceiver (channel : Channel) : Prop :=
  channel.sender.keepPagesForever = false ∧
    channel.unmappable = [] ∧
    llmpCfgMaxPendingUnreadPages < channel.sender.earlier.length + 1

instance (channel : Channel) : Decidable channel.SlowReceiver :=
  inferInstanceAs (Decidable (_ ∧ _))

section

variable (maps : Maps)
variable (channel : Channel)

/-- There is a page to go on to: a cached one, or one that the system grants. -/
def HasNext (granted : Bool) : Prop :=
  channel.pruned.Available (nextShmemSize maps channel.outPage.maxAllocSize)
    granted

/-- The size of the page that the sender would go on to. -/
def nextMapSize : Nat :=
  match
      findCached channel.pages
        (nextShmemSize maps channel.outPage.maxAllocSize)
        channel.pruned.sender.unusedShmemCache with
  | some (id, _) => (channel.pages id).mapSize
  | none => nextShmemSize maps channel.outPage.maxAllocSize

/-- The payload fits as the first one of the page that the sender would go on to. -/
def FitsNext (bufLen : Nat) : Prop :=
  llmpPageHeaderLen + llmpMsgHeaderLen + paddedLength 0 bufLen + eopMsgSize ≤
    channel.nextMapSize maps

end

end Channel

section

variable {channel : Channel}
variable {opened : List LlmpMsg}

theorem le_paddedLength (sizeUsed bufLen : Nat) :
    bufLen ≤ paddedLength sizeUsed bufLen := by
  have aligned := le_llmpAlign (llmpPageHeaderLen + sizeUsed + bufLen + llmpMsgHeaderLen)
  unfold paddedLength
  dsimp only
  omega

namespace Settled

theorem new
    {maps : Maps}
    {id : ClientId}
    {keepPagesForever : Bool}
    (started : Channel.new maps id keepPagesForever = some channel) :
    Settled channel [] := by
  obtain ⟨ready, fresh, sender⟩ := new_ready started
  refine ⟨ready, ?_, ?_⟩
  · simp [sender, LlmpSender.held]
  · simp [sender, LlmpSender.held, fresh]

theorem notCached (settled : Settled channel opened) :
    channel.sender.current ∉ channel.sender.unusedShmemCache := by
  intro member
  exact (List.nodup_cons.mp settled.distinct).1 (List.mem_append_right _ member)

theorem notOld (settled : Settled channel opened) :
    channel.sender.current ∉ channel.sender.earlier := by
  intro member
  exact (List.nodup_cons.mp settled.distinct).1 (List.mem_append_left _ member)

theorem of_held
    {next : Channel}
    {openedNow : List LlmpMsg}
    (settled : Settled channel opened)
    (ready : Ready next openedNow)
    (held : next.sender.held.Subperm channel.sender.held)
    (fresh : channel.fresh ≤ next.fresh) :
    Settled next openedNow where
  ready := ready
  distinct := by
    obtain ⟨same, isPerm, isPart⟩ := held
    exact isPerm.nodup_iff.mp (settled.distinct.sublist isPart)
  mapped := fun id member =>
    (settled.mapped id (held.subset member)).trans_le fresh

theorem placed
    {msg : LlmpMsg}
    {after : Channel}
    (settled : Settled channel opened)
    (placed : Placed channel opened msg after) :
    Settled after (opened ++ [msg]) := by
  refine settled.of_held placed.ready ?_ placed.fresh.ge
  rw [placed.sender]
  exact List.Subperm.refl _

end Settled

theorem held_pruned (channel : Channel) :
    channel.pruned.sender.held.Perm channel.sender.held := by
  unfold Channel.pruned
  split
  · exact .refl _
  · obtain ⟨rest, split⟩ :=
      @List.takeWhile_prefix _ channel.sender.earlier
        fun id => (channel.pages id).safeToUnmap
    have isUnmappable :
        (channel.sender.earlier.takeWhile fun id =>
          (channel.pages id).safeToUnmap) = channel.unmappable :=
      rfl
    rw [isUnmappable] at split
    have left :
        channel.sender.earlier.drop channel.unmappable.length = rest := by
      rw [← split, List.drop_left]
    refine List.Perm.cons _ ?_
    rw [left, ← split, List.append_assoc]
    exact
      (((List.reverse_perm _).append_right _).append_left rest).trans
        (List.perm_append_comm_assoc _ _ _)

theorem Settled.pruned (settled : Settled channel opened) :
    Settled channel.pruned opened :=
  settled.of_held settled.ready.pruned (held_pruned channel).subperm
    (pruned_fresh channel).ge

variable {cache : List ShMemId}
variable {minSize : Nat}
variable {new : ShMemId}
variable {fresh size : Nat}

theorem Settled.linked
    {after : Channel}
    (settled : Settled channel opened)
    (acquired : Acquired channel minSize new cache fresh size)
    (linked : Linked channel opened new cache fresh size after) :
    Settled after [] := by
  have held :
      after.sender.held =
        new :: ((channel.sender.earlier ++ [channel.sender.current]) ++ cache) := by
    rw [linked.sender]
    rfl
  have moved :
      (new :: ((channel.sender.earlier ++ [channel.sender.current]) ++ cache)).Perm
        (channel.sender.current :: (channel.sender.earlier ++ (new :: cache))) := by
    rw [List.append_assoc, List.singleton_append]
    refine (List.Perm.cons new List.perm_middle).trans ?_
    exact (List.Perm.swap _ _ _).trans
      (List.Perm.cons _ List.perm_middle.symm)
  cases acquired with
  | @reused skipped _ _ split _ _ =>
      refine settled.of_held linked.ready ?_ linked.fresh.ge
      rw [held]
      refine moved.subperm.trans (List.Sublist.subperm ?_)
      refine (List.Sublist.append_left ?_ _).cons_cons _
      rw [split]
      exact List.sublist_append_right _ _
  | created _ =>
      have isFresh : channel.fresh ∉ channel.sender.held := fun member =>
        Nat.lt_irrefl _ (settled.mapped _ member)
      have kept :
          (channel.sender.current :: (channel.sender.earlier ++ [])).Sublist
            channel.sender.held :=
        (List.Sublist.append_left (List.nil_sublist _) _).cons_cons _
      have appended :
          (channel.sender.current ::
              (channel.sender.earlier ++ [channel.fresh])).Perm
            (channel.fresh ::
              (channel.sender.current :: (channel.sender.earlier ++ []))) := by
        rw [List.append_nil]
        exact (List.Perm.cons _ (List.perm_append_singleton _ _)).trans
          (List.Perm.swap _ _ _)
      refine ⟨linked.ready, ?_, ?_⟩
      · rw [held]
        refine (moved.trans appended).nodup_iff.mpr (List.nodup_cons.mpr ⟨?_, ?_⟩)
        · exact fun member => isFresh (kept.subset member)
        · exact settled.distinct.sublist kept
      · intro id member
        rw [held] at member
        rw [linked.fresh]
        cases List.mem_cons.mp ((moved.trans appended).subset member) with
        | inl isNew =>
            rw [isNew]
            exact Nat.lt_succ_self _
        | inr old =>
            exact Nat.lt_succ_of_lt (settled.mapped id (kept.subset old))

theorem Settled.emptied (settled : Settled channel opened) :
    Settled
      { channel with sender := { channel.sender with unusedShmemCache := [] } }
      opened := by
  refine settled.of_held (settled.ready.congr rfl rfl settled.ready.committed) ?_
    (Nat.le_refl _)
  exact List.Sublist.subperm
    ((List.Sublist.append_left (List.nil_sublist _) _).cons_cons _)

theorem Acquired.size_eq
    (acquired : Acquired channel minSize new cache fresh size) :
    size =
      match
          Channel.findCached channel.pages minSize
            channel.sender.unusedShmemCache with
      | some (id, _) => (channel.pages id).mapSize
      | none => minSize := by
  cases acquired with
  | @reused skipped _ _ split small large =>
      rw [split]
      clear split
      induction skipped with
      | nil =>
          rw [List.nil_append, Channel.findCached,
            if_neg (Nat.not_lt.mpr large)]
      | cons id rest ih =>
          rw [List.cons_append, Channel.findCached,
            if_pos (small id List.mem_cons_self)]
          exact ih fun other member =>
            small other (List.mem_cons_of_mem id member)
  | created small =>
      generalize channel.sender.unusedShmemCache = spares at small
      induction spares with
      | nil =>
          rfl
      | cons id rest ih =>
          rw [Channel.findCached, if_pos (small id List.mem_cons_self)]
          exact ih fun other member =>
            small other (List.mem_cons_of_mem id member)

theorem pruneOldPages_eq
    (prunes : channel.sender.keepPagesForever = false)
    (notSlow : ¬channel.SlowReceiver) :
    channel.pruneOldPages = .ok channel.pruned := by
  have goesOn :
      ¬(channel.unmappable = [] ∧
        llmpCfgMaxPendingUnreadPages < channel.sender.earlier.length + 1) :=
    fun givesUp => notSlow ⟨prunes, givesUp⟩
  unfold Channel.pruneOldPages
  refine (if_neg goesOn).trans ?_
  simp only [Channel.pruned, prunes, Bool.false_eq_true, if_false]
  rfl

theorem handleOutEop_eq
    (maps : Maps)
    (granted : Bool)
    (notSlow : ¬channel.SlowReceiver) :
    channel.handleOutEop maps granted =
      channel.pruned.linkNewPage maps granted := by
  unfold Channel.handleOutEop
  cases keeps : channel.sender.keepPagesForever with
  | true =>
      simp [Channel.pruned, keeps]
  | false =>
      rw [if_neg Bool.false_ne_true, pruneOldPages_eq keeps notSlow]

theorem handleOutEop_slow
    (maps : Maps)
    (granted : Bool)
    (ready : Ready channel opened)
    (slow : channel.SlowReceiver) :
    ∃ after, channel.handleOutEop maps granted = .panicked after := by
  obtain ⟨prunes, oldest, many⟩ := slow
  have panics : ∃ after, channel.pruneOldPages = .panicked after := by
    unfold Channel.pruneOldPages
    by_cases full : channel.PageFull 0
    · refine ⟨channel, (if_pos ⟨oldest, many⟩).trans ?_⟩
      rw [allocNextIfSpace_full ready full]
    · obtain ⟨allocated, result, sent⟩ :=
        @place_eq _ _ llmpSlowReceiverPanic ready (by decide)
          llmpFlagInitialized [] full
      rw [List.length_nil] at result
      refine
        ⟨channel.place opened llmpSlowReceiverPanic llmpFlagInitialized [],
          (if_pos ⟨oldest, many⟩).trans ?_⟩
      rw [result]
      simp only [sent]
  obtain ⟨after, panics⟩ := panics
  refine ⟨after, ?_⟩
  unfold Channel.handleOutEop
  rw [prunes, if_neg Bool.false_ne_true, panics]

variable {bufLen : Nat}

theorem Linked.pageFull_iff
    {maps : Maps}
    {fresh : ShMemId}
    {middle : Channel}
    (linked :
      Linked channel.pruned opened new cache fresh (channel.nextMapSize maps)
        middle) :
    middle.PageFull bufLen ↔ ¬channel.FitsNext maps bufLen := by
  have used := linked.ready.used
  have total := linked.ready.total
  rw [linked.newSize] at total
  unfold Channel.PageFull Channel.FitsNext
  rw [used, endOf_nil]
  omega

variable {granted : Bool}

theorem allocNext_linked
    (maps : Maps)
    (settled : Settled channel opened)
    (full : channel.PageFull bufLen)
    (notSlow : ¬channel.SlowReceiver)
    (hasNext : channel.HasNext maps granted) :
    ∃ new cache fresh middle,
      Acquired channel.pruned
          (nextShmemSize maps channel.outPage.maxAllocSize) new cache fresh
          (channel.nextMapSize maps) ∧
        Linked channel.pruned opened new cache fresh
          (channel.nextMapSize maps) middle ∧
        channel.allocNext maps bufLen granted =
          match middle.allocNextIfSpace bufLen with
          | .full => .error middle
          | other => other := by
  have pruned := settled.pruned
  obtain ⟨-, new, cache, fresh, size, middle, acquired, linked, result⟩ |
      ⟨notAvailable, -⟩ :=
    linkNewPage_cases maps pruned.ready granted pruned.notCached
      (pruned.mapped _ List.mem_cons_self)
  · rw [pruned_outPage] at acquired
    have isSize : size = channel.nextMapSize maps := by
      rw [acquired.size_eq, pruned_pages]
      rfl
    subst isSize
    refine ⟨new, cache, fresh, middle, acquired, linked, ?_⟩
    unfold Channel.allocNext
    rw [allocNextIfSpace_full settled.ready full, handleOutEop_eq maps _ notSlow,
      result]
    dsimp only
    cases middle.allocNextIfSpace bufLen <;> rfl
  · rw [pruned_outPage] at notAvailable
    exact absurd hasNext notAvailable

theorem allocNext_starved
    (maps : Maps)
    (settled : Settled channel opened)
    (full : channel.PageFull bufLen)
    (notSlow : ¬channel.SlowReceiver)
    (noNext : ¬channel.HasNext maps granted) :
    channel.allocNext maps bufLen granted =
      .error
        { channel.pruned with
          sender := { channel.pruned.sender with unusedShmemCache := [] } } := by
  have pruned := settled.pruned
  obtain ⟨available, -⟩ | ⟨-, result⟩ :=
    linkNewPage_cases maps pruned.ready granted pruned.notCached
      (pruned.mapped _ List.mem_cons_self)
  · rw [pruned_outPage] at available
    exact absurd available noNext
  · unfold Channel.allocNext
    rw [allocNextIfSpace_full settled.ready full, handleOutEop_eq maps _ notSlow,
      result]

theorem allocNext_slow
    (maps : Maps)
    (ready : Ready channel opened)
    {bufLen : Nat}
    {granted : Bool}
    (full : channel.PageFull bufLen)
    (slow : channel.SlowReceiver) :
    ∃ after, channel.allocNext maps bufLen granted = .panicked after := by
  obtain ⟨after, panics⟩ := handleOutEop_slow maps granted ready slow
  refine ⟨after, ?_⟩
  unfold Channel.allocNext
  rw [allocNextIfSpace_full ready full, panics]

/-- The channel after an allocation on the current page. -/
def Channel.allocated
    (channel : Channel)
    (opened : List LlmpMsg)
    (bufLen : Nat) : Channel :=
  { channel.setPage channel.sender.current
      (channel.outPage.allocate (opened.length + 1) bufLen) with
    sender := { channel.sender with hasUnsentMessage := true } }

theorem outPage_allocated (bufLen : Nat) :
    (channel.allocated opened bufLen).outPage =
      channel.outPage.allocate (opened.length + 1) bufLen := by
  simp [Channel.allocated, Channel.outPage, Channel.setPage]

theorem holds_allocated
    (ready : Ready channel opened)
    (bufLen : Nat) :
    Holds (channel.allocated opened bufLen).outPage opened := by
  rw [outPage_allocated]
  have holds := ready.holds
  refine ⟨holds.initialized, holds.count, holds.layout.frame rfl ?_⟩
  intro below isBelow
  refine allocate_below _ _ _ ?_
  rw [ready.used]
  omega

theorem slot_allocated
    (ready : Ready channel opened)
    (fits : ¬channel.PageFull bufLen) :
    Slot (channel.allocated opened bufLen) (endOf opened) bufLen := by
  have room := room_of_fits ready fits
  have total := ready.total
  have header :
      (channel.allocated opened bufLen).outPage.msgAt (endOf opened) =
        { channel.outPage.msgAt channel.outPage.sizeUsed with
          messageId := opened.length + 1
          bufLen := bufLen
          bufLenPadded := paddedLength (endOf opened) bufLen
          tag := llmpTagUninitialized } := by
    rw [outPage_allocated, ← ready.used, allocate_here]
  have mapSize :
      (channel.allocated opened bufLen).outPage.mapSize =
        channel.outPage.mapSize := by
    rw [outPage_allocated]
    rfl
  refine ⟨?_, ?_, ?_, ⟨opened, rfl, holds_allocated ready bufLen⟩, rfl⟩
  · rw [header]
  · rw [header]
    exact le_paddedLength _ _
  · rw [header, mapSize, LlmpMsg.extent]
    dsimp only
    omega

theorem Settled.apart_of_unread
    {id new : ShMemId}
    (settled : Settled channel opened)
    (acquired : Acquired channel.pruned minSize new cache fresh size)
    (isOld : id ∈ channel.sender.earlier)
    (unread :
      channel.sender.keepPagesForever = true ∨
        (channel.pages id).safeToUnmap = false) :
    id ≠ new := by
  have notCached : id ∉ channel.sender.unusedShmemCache := fun isCached =>
    (List.nodup_append.mp (List.nodup_cons.mp settled.distinct).2).2.2 id isOld
      id isCached rfl
  cases acquired with
  | reused split _ _ =>
      rintro rfl
      have isCached : id ∈ channel.pruned.sender.unusedShmemCache := by
        rw [split]
        simp
      unfold Channel.pruned at isCached
      split at isCached
      · exact notCached isCached
      · rename_i prunes
        cases List.mem_append.mp isCached with
        | inl given =>
            have marked := List.mem_takeWhile_imp (List.mem_reverse.mp given)
            exact absurd (unread.resolve_left prunes)
              (Bool.not_eq_false _ ▸ marked)
        | inr cached =>
            exact notCached cached
  | created _ =>
      rw [pruned_fresh]
      exact
        (settled.mapped id
          (List.mem_cons_of_mem _ (List.mem_append_left _ isOld))).ne

theorem nothingLost_of_linked
    {middle next : Channel}
    (settled : Settled channel opened)
    (acquired : Acquired channel.pruned minSize new cache fresh size)
    (linked : Linked channel.pruned opened new cache fresh size middle)
    (elsewhere : ∀ id, id ≠ new → next.pages id = middle.pages id)
    (onNew : next.sender.current = new) :
    NothingLost channel opened next := by
  have pruned := settled.pruned
  have different : channel.sender.current ≠ new := by
    rw [← pruned_current]
    exact
      (acquired.ne_current pruned.notCached
        (pruned.mapped _ List.mem_cons_self)).symm
  constructor
  · intro id isOld unread
    have notNew := settled.apart_of_unread acquired isOld unread
    have notCurrent : id ≠ channel.pruned.sender.current := by
      rw [pruned_current]
      exact fun same => settled.notOld (same ▸ isOld)
    rw [elsewhere id notNew, linked.elsewhere id notCurrent notNew, pruned_pages]
  · obtain ⟨eop, isEop, closed⟩ := linked.closed
    rw [pruned_current] at closed
    refine ⟨[eop], ?_, ?_⟩
    · rw [elsewhere _ different]
      exact closed
    · intro link isLink
      rw [List.mem_singleton.mp isLink, onNew]
      exact isEop

theorem nothingLost_of_holds
    {next : Channel}
    (holds : Holds (next.pages channel.sender.current) opened)
    (elsewhere :
      ∀ id ∈ channel.sender.earlier, next.pages id = channel.pages id) :
    NothingLost channel opened next where
  unread := fun id isOld _ => elsewhere id isOld
  sent := ⟨[], by rwa [List.append_nil], by simp⟩

theorem allocNext_here
    (maps : Maps)
    (granted : Bool)
    (settled : Settled channel opened)
    (fits : ¬channel.PageFull bufLen) :
    channel.allocNext maps bufLen granted =
        .allocated (channel.allocated opened bufLen) (endOf opened) ∧
      Slot (channel.allocated opened bufLen) (endOf opened) bufLen ∧
      NothingLost channel opened (channel.allocated opened bufLen) := by
  refine ⟨?_, slot_allocated settled.ready fits, ?_⟩
  · unfold Channel.allocNext
    rw [allocNextIfSpace_eq settled.ready fits]
    rfl
  · refine nothingLost_of_holds (holds_allocated settled.ready bufLen) ?_
    intro id isOld
    have notCurrent : id ≠ channel.sender.current := fun same =>
      settled.notOld (same ▸ isOld)
    simp [Channel.allocated, Channel.setPage, notCurrent]

theorem allocNext_there
    (maps : Maps)
    (settled : Settled channel opened)
    (full : channel.PageFull bufLen)
    (notSlow : ¬channel.SlowReceiver)
    (hasNext : channel.HasNext maps granted)
    (fits : channel.FitsNext maps bufLen) :
    ∃ next msg,
      channel.allocNext maps bufLen granted = .allocated next msg ∧
        Slot next msg bufLen ∧ NothingLost channel opened next := by
  obtain ⟨new, cache, fresh, middle, acquired, linked, result⟩ :=
    allocNext_linked maps settled full notSlow hasNext
  have fitsThere : ¬middle.PageFull bufLen := fun fullThere =>
    (linked.pageFull_iff.mp fullThere) fits
  have onNew : middle.sender.current = new := by
    rw [linked.sender]
  rw [allocNextIfSpace_eq linked.ready fitsThere] at result
  refine ⟨_, _, result, slot_allocated linked.ready fitsThere, ?_⟩
  refine nothingLost_of_linked settled acquired linked ?_ onNew
  intro id notNew
  simp [Channel.setPage, onNew, notNew]

theorem allocNext_tooLong
    (maps : Maps)
    (settled : Settled channel opened)
    (full : channel.PageFull bufLen)
    (notSlow : ¬channel.SlowReceiver)
    (hasNext : channel.HasNext maps granted)
    (tooLong : ¬channel.FitsNext maps bufLen) :
    ∃ next,
      channel.allocNext maps bufLen granted = .error next ∧
        NothingLost channel opened next ∧ Settled next [] := by
  obtain ⟨new, cache, fresh, middle, acquired, linked, result⟩ :=
    allocNext_linked maps settled full notSlow hasNext
  rw [allocNextIfSpace_full linked.ready (linked.pageFull_iff.mpr tooLong)]
    at result
  refine ⟨middle, result, ?_, settled.pruned.linked acquired linked⟩
  exact nothingLost_of_linked settled acquired linked (fun _ _ => rfl)
    (by rw [linked.sender])

theorem nothingLost_starved (settled : Settled channel opened) :
    NothingLost channel opened
      { channel.pruned with
        sender := { channel.pruned.sender with unusedShmemCache := [] } } := by
  refine nothingLost_of_holds ?_ fun id _ => by rw [pruned_pages]
  rw [pruned_pages]
  exact settled.ready.holds

end

/--
`alloc_next` returns a slot exactly if the payload fits on the current page, or
the receiver is not slow and the payload fits on the page that comes next.  An
error leaves the pages that are not marked as they are and a sender that can go on;
only a slow receiver makes the sender panic.
-/
theorem allocNext_outcome
    (maps : Maps)
    {channel : Channel}
    {opened : List LlmpMsg}
    (settled : Settled channel opened)
    (bufLen : Nat)
    (granted : Bool) :
    ((∃ next msg,
        channel.allocNext maps bufLen granted = .allocated next msg ∧
          Slot next msg bufLen ∧ NothingLost channel opened next) ↔
      ¬channel.PageFull bufLen ∨
        ¬channel.SlowReceiver ∧ channel.HasNext maps granted ∧
          channel.FitsNext maps bufLen) ∧
      (∀ next,
        channel.allocNext maps bufLen granted = .error next →
          NothingLost channel opened next ∧ ∃ openedNow, Settled next openedNow) ∧
      ∀ next,
        channel.allocNext maps bufLen granted = .panicked next →
          channel.PageFull bufLen ∧ channel.SlowReceiver := by
  by_cases full : channel.PageFull bufLen
  · by_cases slow : channel.SlowReceiver
    · obtain ⟨after, panics⟩ :=
        @allocNext_slow _ _ maps settled.ready _ granted full slow
      simp [panics, full, slow]
    · by_cases hasNext : channel.HasNext maps granted
      · by_cases fits : channel.FitsNext maps bufLen
        · have there := allocNext_there maps settled full slow hasNext fits
          obtain ⟨next, msg, result, -⟩ := id there
          refine ⟨⟨fun _ => .inr ⟨slow, hasNext, fits⟩, fun _ => there⟩, ?_, ?_⟩
          · intro other isError
            cases result.symm.trans isError
          · intro other isPanic
            cases result.symm.trans isPanic
        · obtain ⟨next, result, kept, goesOn⟩ :=
            allocNext_tooLong maps settled full slow hasNext fits
          refine ⟨⟨?_, ?_⟩, ?_, ?_⟩
          · rintro ⟨other, msg, isSlot, -⟩
            cases result.symm.trans isSlot
          · rintro (notFull | ⟨-, -, fitsNext⟩)
            · exact absurd full notFull
            · exact absurd fitsNext fits
          · intro other isError
            cases result.symm.trans isError
            exact ⟨kept, [], goesOn⟩
          · intro other isPanic
            cases result.symm.trans isPanic
      · have result := allocNext_starved maps settled full slow hasNext
        refine ⟨⟨?_, ?_⟩, ?_, ?_⟩
        · rintro ⟨other, msg, isSlot, -⟩
          cases result.symm.trans isSlot
        · rintro (notFull | ⟨-, hasNextNow, -⟩)
          · exact absurd full notFull
          · exact absurd hasNextNow hasNext
        · intro other isError
          cases result.symm.trans isError
          exact ⟨nothingLost_starved settled, opened, settled.pruned.emptied⟩
        · intro other isPanic
          cases result.symm.trans isPanic
  · obtain ⟨result, slot, kept⟩ := allocNext_here maps granted settled full
    refine ⟨⟨fun _ => .inl full, fun _ => ⟨_, _, result, slot, kept⟩⟩, ?_, ?_⟩
    · intro other isError
      cases result.symm.trans isError
    · intro other isPanic
      cases result.symm.trans isPanic

/-- A sender on its first small map. -/
def smallChannel : Channel :=
  (Channel.new .small 1 false).get Channel.isSome_new_client

theorem smallChannel_new : Channel.new .small 1 false = some smallChannel :=
  (Option.some_get _).symm

theorem allocNext_outcome_hundred_bytes :
    (∃ next msg,
        smallChannel.allocNext .small 100 true = .allocated next msg ∧
          Slot next msg 100 ∧ NothingLost smallChannel [] next) :=
  (allocNext_outcome .small (Settled.new smallChannel_new) 100 true).1.mpr
    (.inl (by decide +kernel))

/-- The sender after this many allocations of a megabyte. -/
def askedForMegabytes : Nat → Channel
  | 0 => smallChannel
  | asked + 1 =>
      ((askedForMegabytes asked).allocNext .small (2 ^ 20) true).channelAfter
        (askedForMegabytes asked)

/-- The receiver has read nothing of the page that the sender has gone on from. -/
def unreadPage : ClientChannel :=
  (ClientChannel.replay .small
    [.send ⟨1, 0, halfMegabyte⟩ true, .send ⟨2, 0, halfMegabyte⟩ true,
      .send ⟨3, 0, halfMegabyte⟩ true]
    (ClientChannel.register smallChannel 1)).2

/-- The tag of a message that is received. -/
def Received.tag : Received → Option Tag
  | .message msg => some msg.tag
  | _ => none

/-- An allocation that fails, and leaves the receiver nothing to read. -/
def failsUnread (receiver : LlmpReceiver) : Alloc → Bool
  | .error next => (receiver.recv next.pages true).received = .nothing
  | _ => false

theorem unreadPage_taken :
    (unreadPage.receiver.recv unreadPage.channel.pages true).received.tag = some 1 ∧
      failsUnread unreadPage.receiver
        (unreadPage.channel.allocNext .small (2 ^ 20) true) = true := by
  simp only [unreadPage, ClientChannel.replay, ClientChannel.perform,
    Channel.sendBufWithFlags, halfMegabyte_length]
  decide +kernel

/--
A new sender without an unsent message gets no slot of a megabyte, however often it
asks; the fourth time it takes its receiver for slow and panics.  An error may have
taken a page that the receiver still reads from: the first message is gone.
-/
theorem no_slot_for_a_megabyte :
    (Channel.new .small 1 false = some (askedForMegabytes 0) ∧
      (askedForMegabytes 0).allocNext .small (2 ^ 20) true =
        .error (askedForMegabytes 1) ∧
      (askedForMegabytes 1).allocNext .small (2 ^ 20) true =
        .error (askedForMegabytes 2) ∧
      (askedForMegabytes 2).allocNext .small (2 ^ 20) true =
        .error (askedForMegabytes 3) ∧
      (askedForMegabytes 3).allocNext .small (2 ^ 20) true =
        .panicked (askedForMegabytes 4)) ∧
      (unreadPage.receiver.recv unreadPage.channel.pages true).received.tag = some 1 ∧
      ∃ next,
        unreadPage.channel.allocNext .small (2 ^ 20) true = .error next ∧
          (unreadPage.receiver.recv next.pages true).received = .nothing := by
  refine ⟨⟨smallChannel_new, rfl, rfl, rfl, rfl⟩, unreadPage_taken.1, ?_⟩
  have fails := unreadPage_taken.2
  generalize unreadPage.channel.allocNext .small (2 ^ 20) true = result at fails
  cases result with
  | error next =>
      exact ⟨next, rfl, of_decide_eq_true fails⟩
  | allocated _ _ =>
      cases fails
  | full =>
      cases fails
  | panicked _ =>
      cases fails

end MeFuzz.Llmp
