import MeFuzz.LlmpSending

namespace MeFuzz.Llmp

/-!
# What the sender's calls leave alone

However a call on a sender ends, it writes no page but the sender's own, it
leaves the fixed part of every page's header as it is, and the sender stays at
a place on a page of its own.  Nothing is asked of what the pages hold, so that
this is so in any company.
-/

/-- The channel that an allocation leaves behind. -/
def Alloc.channelAfter (channel : Channel) : Alloc → Channel
  | .allocated channel _ => channel
  | .full => channel
  | .error channel => channel
  | .panicked channel => channel

namespace LlmpPage

/-- The fixed parts of two headers agree. -/
structure SameFrame (page other : LlmpPage) : Prop where
  magic : page.magic = other.magic
  mapSize : page.mapSize = other.mapSize
  senderId : page.senderId = other.senderId
  sizeTotal : page.sizeTotal = other.sizeTotal

theorem SameFrame.refl (page : LlmpPage) : page.SameFrame page :=
  ⟨rfl, rfl, rfl, rfl⟩

theorem SameFrame.trans
    {page middle other : LlmpPage}
    (first : page.SameFrame middle)
    (second : middle.SameFrame other) :
    page.SameFrame other where
  magic := first.magic.trans second.magic
  mapSize := first.mapSize.trans second.mapSize
  senderId := first.senderId.trans second.senderId
  sizeTotal := first.sizeTotal.trans second.sizeTotal

end LlmpPage

/-- The maps of a sender. -/
def LlmpSender.held (sender : LlmpSender) : List ShMemId :=
  sender.current :: (sender.earlier ++ sender.unusedShmemCache)

/-- A map with a page on it exists, and the page fills it. -/
def Proper (pages : ShMemId → LlmpPage) (fresh : ShMemId) : Prop :=
  ∀ id, (pages id).magic = true →
    id < fresh ∧
      (pages id).sizeTotal = (pages id).mapSize - llmpPageHeaderLen

theorem Proper.congr
    {pages other : ShMemId → LlmpPage}
    {fresh : ShMemId}
    (proper : Proper pages fresh)
    (same : ∀ id, (other id).SameFrame (pages id)) :
    Proper other fresh := by
  intro id isPage
  have before := proper id ((same id).magic ▸ isPage)
  exact ⟨before.1, by
    rw [(same id).sizeTotal, (same id).mapSize, before.2]⟩

theorem llmpPageInit_some
    {page initialized : LlmpPage}
    {senderId : ClientId}
    {allowReinit : Bool}
    (init : llmpPageInit page senderId allowReinit = some initialized) :
    initialized.magic = true ∧
      initialized.senderId = senderId ∧
      initialized.mapSize = page.mapSize ∧
      initialized.sizeTotal = initialized.mapSize - llmpPageHeaderLen := by
  unfold llmpPageInit at init
  split at init
  · cases init
  · split at init
    · cases init
    · obtain rfl := Option.some.inj init
      exact ⟨rfl, rfl, rfl, rfl⟩

namespace Channel

/-- The sender has its place on a page of its own. -/
structure Seated (channel : Channel) : Prop where
  proper : Proper channel.pages channel.fresh
  initialised :
    ∀ id ∈ channel.sender.held, (channel.pages id).magic = true
  senderId : channel.outPage.senderId = channel.sender.id
  onPage :
    ∀ msg, channel.sender.lastMsgSent = some msg →
      llmpPageHeaderLen + msg < channel.outPage.sizeTotal
  prunes : channel.sender.keepPagesForever = false

/-- Only the sender's own pages, or new ones, are written and held. -/
structure Confined (channel next : Channel) : Prop where
  pages :
    ∀ id < channel.fresh, id ∉ channel.sender.held →
      next.pages id = channel.pages id
  held :
    ∀ id ∈ next.sender.held,
      id ∈ channel.sender.held ∨ channel.fresh ≤ id
  fresh : channel.fresh ≤ next.fresh

/-- A call writes to the current page behind its header, and may move on there. -/
structure WritesCurrent (channel next : Channel) : Prop where
  pages :
    ∀ id, id ≠ channel.sender.current → next.pages id = channel.pages id
  frame : (next.pages channel.sender.current).SameFrame channel.outPage
  fresh : next.fresh = channel.fresh
  sender :
    next.sender =
      { channel.sender with
        lastMsgSent := next.sender.lastMsgSent
        hasUnsentMessage := next.sender.hasUnsentMessage }
  onPage :
    ∀ msg, next.sender.lastMsgSent = some msg →
      channel.sender.lastMsgSent = some msg ∨
        llmpPageHeaderLen + msg < channel.outPage.sizeTotal

variable {channel middle next : Channel}

theorem Confined.refl (channel : Channel) : Confined channel channel :=
  ⟨fun _ _ _ => rfl, fun _ held => .inl held, Nat.le_refl _⟩

theorem Confined.trans
    (first : Confined channel middle)
    (second : Confined middle next) :
    Confined channel next where
  pages := by
    intro id old notHeld
    have notHeldThen : id ∉ middle.sender.held := fun held =>
      (first.held id held).elim notHeld (Nat.not_le_of_lt old)
    exact (second.pages id (Nat.lt_of_lt_of_le old first.fresh)
      notHeldThen).trans (first.pages id old notHeld)
  held := by
    intro id held
    cases second.held id held with
    | inl heldThen =>
        exact first.held id heldThen
    | inr new =>
        exact .inr (Nat.le_trans first.fresh new)
  fresh := Nat.le_trans first.fresh second.fresh

namespace WritesCurrent

theorem refl (channel : Channel) : WritesCurrent channel channel where
  pages := fun _ _ => rfl
  frame := .refl _
  fresh := rfl
  sender := rfl
  onPage := fun _ last => .inl last

theorem of_page
    {page : LlmpPage}
    (same : page.SameFrame channel.outPage)
    {last : Option Nat}
    (unsent : Bool)
    (onPage :
      ∀ msg, last = some msg →
        channel.sender.lastMsgSent = some msg ∨
          llmpPageHeaderLen + msg < channel.outPage.sizeTotal) :
    WritesCurrent channel
      { channel.setPage channel.sender.current page with
        sender :=
          { channel.sender with
            lastMsgSent := last
            hasUnsentMessage := unsent } } where
  pages := fun id apart => by
    simp only [setPage, Function.update_of_ne apart]
  frame := by
    simp only [setPage, Function.update_self]
    exact same
  fresh := rfl
  sender := rfl
  onPage := onPage

theorem of_setPage
    {page : LlmpPage}
    (same : page.SameFrame channel.outPage) :
    WritesCurrent channel (channel.setPage channel.sender.current page) :=
  of_page same channel.sender.hasUnsentMessage fun _ last => .inl last

theorem current (writes : WritesCurrent channel next) :
    next.sender.current = channel.sender.current := by
  rw [writes.sender]

theorem held (writes : WritesCurrent channel next) :
    next.sender.held = channel.sender.held := by
  rw [writes.sender]
  rfl

theorem sameFrame
    (writes : WritesCurrent channel next)
    (id : ShMemId) :
    (next.pages id).SameFrame (channel.pages id) := by
  by_cases same : id = channel.sender.current
  · subst same
    exact writes.frame
  · rw [writes.pages id same]
    exact .refl _

theorem trans
    (first : WritesCurrent channel middle)
    (second : WritesCurrent middle next) :
    WritesCurrent channel next where
  pages := by
    intro id apart
    rw [second.pages id (first.current ▸ apart), first.pages id apart]
  frame := (second.sameFrame _).trans first.frame
  fresh := second.fresh.trans first.fresh
  sender := by
    rw [second.sender, first.sender]
  onPage := by
    intro msg last
    have sameSize : middle.outPage.sizeTotal = channel.outPage.sizeTotal := by
      rw [outPage, first.current, first.frame.sizeTotal]
    cases second.onPage msg last with
    | inl lastThen =>
        exact first.onPage msg lastThen
    | inr onPage =>
        exact .inr (sameSize ▸ onPage)

theorem confined (writes : WritesCurrent channel next) :
    Confined channel next where
  pages := by
    intro id _ notHeld
    exact writes.pages id fun same =>
      notHeld (same ▸ List.mem_cons_self)
  held := fun _ held => .inl (writes.held ▸ held)
  fresh := Nat.le_of_eq writes.fresh.symm

theorem seated
    (writes : WritesCurrent channel next)
    (seated : channel.Seated) :
    next.Seated where
  proper := by
    rw [writes.fresh]
    exact seated.proper.congr writes.sameFrame
  initialised := by
    intro id held
    rw [(writes.sameFrame id).magic]
    exact seated.initialised id (writes.held ▸ held)
  senderId := by
    rw [outPage, writes.current, writes.frame.senderId, seated.senderId,
      writes.sender]
  onPage := by
    intro msg last
    rw [outPage, writes.current, writes.frame.sizeTotal]
    cases writes.onPage msg last with
    | inl lastThen =>
        exact seated.onPage msg lastThen
    | inr onPage =>
        exact onPage
  prunes := by
    rw [writes.sender]
    exact seated.prunes

end WritesCurrent

section

variable (channel : Channel)

theorem writes_allocNextIfSpace (bufLen : Nat) :
    WritesCurrent channel
      ((channel.allocNextIfSpace bufLen).channelAfter channel) := by
  unfold allocNextIfSpace
  split
  · exact .refl channel
  · split
    · exact .refl channel
    · split
      · exact .refl channel
      · refine .of_page ?_ true fun _ last => .inl last
        exact ⟨rfl, rfl, rfl, rfl⟩

theorem writes_fill (msg : Nat) (tag : Tag) (flags : Flags) (buf : Buf) :
    WritesCurrent channel (channel.fill msg tag flags buf) :=
  .of_setPage ⟨rfl, rfl, rfl, rfl⟩

theorem writes_send (msg : Nat) :
    WritesCurrent channel (channel.send msg).channel := by
  unfold send
  split
  · exact .refl channel
  · split
    · exact .refl channel
    · dsimp only
      split
      · rename_i onPage
        refine .of_page ?_ false ?_
        · exact ⟨rfl, rfl, rfl, rfl⟩
        · rintro _ ⟨⟩
          exact .inr onPage
      · refine .of_setPage ?_
        exact ⟨rfl, rfl, rfl, rfl⟩

theorem writes_allocEop :
    WritesCurrent channel (channel.allocEop.channelAfter channel) := by
  unfold allocEop
  dsimp only
  split
  · exact .refl channel
  · split
    · exact .refl channel
    · split
      · exact .refl channel
      · refine .of_setPage ?_
        exact ⟨rfl, rfl, rfl, rfl⟩

end

/-- A call that keeps the sender seated and to its own pages. -/
structure Advances (channel next : Channel) : Prop where
  confined : Confined channel next
  seated : next.Seated

theorem Advances.refl (seated : channel.Seated) : Advances channel channel :=
  ⟨.refl channel, seated⟩

theorem Advances.trans
    (first : Advances channel middle)
    (second : Advances middle next) :
    Advances channel next :=
  ⟨first.confined.trans second.confined, second.seated⟩

theorem WritesCurrent.advances
    (writes : WritesCurrent channel next)
    (seated : channel.Seated) :
    Advances channel next :=
  ⟨writes.confined, writes.seated seated⟩

theorem Seated.withSpares
    (seated : channel.Seated)
    {earlier cache : List ShMemId}
    (kept :
      ∀ id ∈ earlier ++ cache,
        id ∈ channel.sender.earlier ++ channel.sender.unusedShmemCache) :
    Advances channel
      { channel with
        sender :=
          { channel.sender with
            earlier := earlier
            unusedShmemCache := cache } } := by
  have stillHeld :
      ∀ id ∈ channel.sender.current :: (earlier ++ cache),
        id ∈ channel.sender.held := by
    intro id held
    cases held with
    | head =>
        exact List.mem_cons_self
    | tail _ spare =>
        exact List.mem_cons_of_mem _ (kept id spare)
  constructor
  · exact ⟨fun _ _ _ => rfl, fun id held => .inl (stillHeld id held),
      Nat.le_refl _⟩
  · exact
      { proper := seated.proper
        initialised := fun id held =>
          seated.initialised id (stillHeld id held)
        senderId := seated.senderId
        onPage := seated.onPage
        prunes := seated.prunes }

theorem Seated.acquire
    (seated : channel.Seated)
    {new fresh : ShMemId}
    {cache : List ShMemId}
    {page : LlmpPage}
    (mine :
      new ∈ channel.sender.held ∧ page.mapSize = (channel.pages new).mapSize ∨
        channel.fresh ≤ new)
    (grows : channel.fresh ≤ fresh)
    (made : new < fresh)
    (kept : ∀ id ∈ cache, id ∈ channel.sender.unusedShmemCache)
    (magic : page.magic = true)
    (senderId : page.senderId = channel.sender.id)
    (total : page.sizeTotal = page.mapSize - llmpPageHeaderLen) :
    Advances channel (channel.acquire new cache fresh page) := by
  have stillHeld :
      ∀ id ∈ channel.sender.current :: (channel.sender.earlier ++ cache),
        id ∈ channel.sender.held := by
    intro id held
    simp only [List.mem_cons, List.mem_append, LlmpSender.held] at held ⊢
    exact held.imp_right fun spare => spare.imp_right (kept id)
  constructor
  · refine ⟨?_, fun id held => .inl (stillHeld id held), grows⟩
    intro id old notHeld
    refine Function.update_of_ne ?_ page channel.pages
    rintro rfl
    exact mine.elim (fun held => notHeld held.1) (Nat.not_le_of_lt old)
  · refine ⟨?_, ?_, ?_, ?_, seated.prunes⟩
    · intro id isPage
      by_cases same : id = new
      · subst same
        exact ⟨made, by simpa [Channel.acquire] using total⟩
      · have pageBefore : (channel.pages id).magic = true := by
          simpa [Channel.acquire, same] using isPage
        obtain ⟨old, fills⟩ := seated.proper id pageBefore
        refine ⟨Nat.lt_of_lt_of_le old grows, ?_⟩
        simpa [Channel.acquire, same] using fills
    · intro id held
      by_cases same : id = new
      · simpa [Channel.acquire, same] using magic
      · simpa [Channel.acquire, same] using
          seated.initialised id (stillHeld id held)
    · by_cases same : channel.sender.current = new
      · simpa [Channel.acquire, outPage, same] using senderId
      · simpa [Channel.acquire, outPage, same] using seated.senderId
    · intro msg last
      have onPage := seated.onPage msg last
      by_cases same : channel.sender.current = new
      · subst same
        have isPage := seated.initialised _ List.mem_cons_self
        obtain ⟨old, fills⟩ := seated.proper _ isPage
        have sameSize := mine.resolve_right (Nat.not_le_of_lt old)
        rw [outPage, fills, ← sameSize.2, ← total] at onPage
        simpa [Channel.acquire, outPage] using onPage
      · simpa [Channel.acquire, outPage, same] using onPage

theorem advances_pruneOldPages (seated : channel.Seated) :
    Advances channel channel.pruneOldPages.channel := by
  unfold pruneOldPages
  dsimp only
  split
  · have allocates := writes_allocNextIfSpace channel 0
    split
    · rename_i allocated msg is
      rw [is] at allocates
      have commits :=
        (allocates.trans (writes_fill allocated msg llmpSlowReceiverPanic
          llmpFlagInitialized (.bytes []))).trans (writes_send _ msg)
      split <;>
        (rename_i after isAfter
         rw [isAfter] at commits
         exact commits.advances seated)
    · exact .refl seated
    · rename_i after is
      rw [is] at allocates
      exact allocates.advances seated
    · rename_i after is
      rw [is] at allocates
      exact allocates.advances seated
  · refine seated.withSpares fun id kept => ?_
    simp only [List.mem_append, List.mem_reverse] at kept ⊢
    rcases kept with later | unmapped | cached
    · exact .inl (List.mem_of_mem_drop later)
    · exact .inl ((List.takeWhile_sublist _).subset unmapped)
    · exact .inr cached

/-- A page that the sender may go on to. -/
structure Offers (channel next : Channel) (newMap : ShMemId) : Prop where
  advances : Advances channel next
  mine : newMap ∈ channel.sender.held ∨ channel.fresh ≤ newMap
  magic : (next.pages newMap).magic = true
  senderId : (next.pages newMap).senderId = next.sender.id

theorem Seated.offers_acquire
    (seated : channel.Seated)
    {new fresh : ShMemId}
    {cache : List ShMemId}
    {page initialized : LlmpPage}
    {allowReinit : Bool}
    (init :
      llmpPageInit page channel.sender.id allowReinit = some initialized)
    (mine :
      new ∈ channel.sender.held ∧ page.mapSize = (channel.pages new).mapSize ∨
        channel.fresh ≤ new)
    (grows : channel.fresh ≤ fresh)
    (made : new < fresh)
    (kept : ∀ id ∈ cache, id ∈ channel.sender.unusedShmemCache) :
    Offers channel (channel.acquire new cache fresh initialized) new := by
  obtain ⟨magic, senderId, sameSize, total⟩ := llmpPageInit_some init
  refine
    ⟨seated.acquire (sameSize ▸ mine) grows made kept magic senderId total,
      mine.imp_left And.left, ?_, ?_⟩
  · simpa [Channel.acquire] using magic
  · simpa [Channel.acquire] using senderId

theorem advances_newOrUnusedShmem
    (seated : channel.Seated)
    (minSize : Nat)
    (granted : Bool) :
    Advances channel
        ((channel.newOrUnusedShmem channel.outPage.senderId minSize
          granted).channelAfter channel) ∧
      ∀ next newMap,
        channel.newOrUnusedShmem channel.outPage.senderId minSize granted =
            .allocated next newMap →
          Offers channel next newMap := by
  have fewer : ∀ cache : List ShMemId,
      (∀ id ∈ cache, id ∈ channel.sender.unusedShmemCache) →
      ∀ id ∈ channel.sender.earlier ++ cache,
        id ∈ channel.sender.earlier ++ channel.sender.unusedShmemCache := by
    intro cache kept id held
    simp only [List.mem_append] at held ⊢
    exact held.imp_right (kept id)
  rw [seated.senderId]
  unfold newOrUnusedShmem
  split
  · rename_i new rest found
    obtain ⟨skipped, split, _, _⟩ := findCached_some found
    have kept : ∀ id ∈ rest, id ∈ channel.sender.unusedShmemCache := by
      intro id isRest
      simp [split, isRest]
    have held : new ∈ channel.sender.held := by
      simp [LlmpSender.held, split]
    dsimp only
    split
    · rename_i page init
      have made := (seated.proper new (seated.initialised new held)).1
      have offers :=
        seated.offers_acquire init (.inl ⟨held, rfl⟩) (Nat.le_refl _) made kept
      refine ⟨offers.advances, ?_⟩
      rintro _ _ ⟨⟩
      exact offers
    · exact ⟨seated.withSpares (fewer rest kept), by rintro _ _ ⟨⟩⟩
  · have none : ∀ id ∈ [], id ∈ channel.sender.unusedShmemCache := by
      simp
    dsimp only
    split
    · split
      · rename_i page init
        have offers :=
          seated.offers_acquire init (.inr (Nat.le_refl _))
            (Nat.le_succ _) (Nat.lt_succ_self _) none
        refine ⟨offers.advances, ?_⟩
        rintro _ _ ⟨⟩
        exact offers
      · exact ⟨seated.withSpares (fewer [] none), by rintro _ _ ⟨⟩⟩
    · exact ⟨seated.withSpares (fewer [] none), by rintro _ _ ⟨⟩⟩

theorem Seated.setPage
    (seated : channel.Seated)
    {id : ShMemId}
    {page : LlmpPage}
    (same : page.SameFrame (channel.pages id)) :
    (channel.setPage id page).Seated := by
  have frames :
      ∀ other,
        ((channel.setPage id page).pages other).SameFrame
          (channel.pages other) := by
    intro other
    by_cases written : other = id
    · subst written
      simpa [Channel.setPage] using same
    · simpa [Channel.setPage, written] using
        LlmpPage.SameFrame.refl (channel.pages other)
  refine ⟨seated.proper.congr frames, ?_, ?_, ?_, seated.prunes⟩
  · intro other held
    exact (frames other).magic.trans (seated.initialised other held)
  · exact (frames _).senderId.trans seated.senderId
  · intro msg last
    exact (seated.onPage msg last).trans_eq (frames _).sizeTotal.symm

theorem Offers.setPage
    {newMap : ShMemId}
    (offers : Offers channel next newMap)
    {page : LlmpPage}
    (same : page.SameFrame (next.pages newMap)) :
    Offers channel (next.setPage newMap page) newMap where
  advances := by
    refine ⟨⟨?_, offers.advances.confined.held,
      offers.advances.confined.fresh⟩, offers.advances.seated.setPage same⟩
    intro id old notHeld
    refine (Function.update_of_ne ?_ page next.pages).trans
      (offers.advances.confined.pages id old notHeld)
    rintro rfl
    exact offers.mine.elim notHeld (Nat.not_le_of_lt old)
  mine := offers.mine
  magic := by
    simpa [Channel.setPage] using same.magic.trans offers.magic
  senderId := by
    simpa [Channel.setPage] using same.senderId.trans offers.senderId

theorem Offers.hop
    {newMap : ShMemId}
    (offers : Offers channel middle newMap)
    (writes : WritesCurrent middle next) :
    Advances channel
      { next with
        sender :=
          { next.sender with
            earlier := next.sender.earlier ++ [next.sender.current]
            current := newMap
            lastMsgSent := none } } := by
  have advances :=
    offers.advances.trans (writes.advances offers.advances.seated)
  have seated := advances.seated
  have heldThen :
      ∀ id, id = newMap ∨ id ∈ next.sender.held →
        id ∈ channel.sender.held ∨ channel.fresh ≤ id := by
    intro id which
    cases which with
    | inl new =>
        exact new ▸ offers.mine
    | inr held =>
        exact advances.confined.held id held
  have heldNow :
      ∀ id ∈ newMap ::
          (next.sender.earlier ++ [next.sender.current] ++
            next.sender.unusedShmemCache),
        id = newMap ∨ id ∈ next.sender.held := by
    intro id held
    simp only [LlmpSender.held, List.mem_cons, List.mem_append,
      List.not_mem_nil, or_false] at held ⊢
    tauto
  constructor
  · exact ⟨advances.confined.pages,
      fun id held => heldThen id (heldNow id held), advances.confined.fresh⟩
  · refine ⟨seated.proper, ?_, ?_, ?_, seated.prunes⟩
    · intro id held
      cases heldNow id held with
      | inl new =>
          subst new
          exact (writes.sameFrame id).magic.trans offers.magic
      | inr held =>
          exact seated.initialised id held
    · have sameId : next.sender.id = middle.sender.id := by
        rw [writes.sender]
      exact ((writes.sameFrame newMap).senderId.trans
        offers.senderId).trans sameId.symm
    · rintro msg ⟨⟩

theorem Offers.linkTo
    {newMap : ShMemId}
    (offers : Offers channel next newMap) :
    Advances channel (next.linkTo newMap).channel := by
  have advances := offers.advances
  have allocates := writes_allocEop next
  unfold Channel.linkTo
  split
  · rename_i allocated out is
    rw [is] at allocates
    dsimp only
    have commits :=
      (allocates.trans
        (@WritesCurrent.of_setPage allocated
          (allocated.outPage.updateMsg out fun header =>
            { header with
              buf :=
                .sharedMapInfo (allocated.pages newMap).mapSize newMap })
          ⟨rfl, rfl, rfl, rfl⟩)).trans (writes_send _ out)
    split
    · rename_i closed isClosed
      rw [isClosed] at commits
      exact offers.hop commits
    · rename_i closed isClosed
      rw [isClosed] at commits
      exact advances.trans (commits.advances advances.seated)
    · rename_i closed isClosed
      rw [isClosed] at commits
      exact advances.trans (commits.advances advances.seated)
  · exact advances
  · rename_i after is
    rw [is] at allocates
    exact advances.trans (allocates.advances advances.seated)
  · rename_i after is
    rw [is] at allocates
    exact advances.trans (allocates.advances advances.seated)

section

variable (maps : Maps)

theorem advances_linkNewPage
    (seated : channel.Seated)
    (granted : Bool) :
    Advances channel (channel.linkNewPage maps granted).channel := by
  obtain ⟨advances, offers⟩ :=
    advances_newOrUnusedShmem seated
      (nextShmemSize maps channel.outPage.maxAllocSize) granted
  unfold linkNewPage
  dsimp only
  split
  · rename_i next newMap is
    have offered := offers next newMap is
    refine (offered.setPage ?_).linkTo
    exact ⟨rfl, rfl, rfl, rfl⟩
  · exact .refl seated
  · rename_i after is
    rw [is] at advances
    exact advances
  · rename_i after is
    rw [is] at advances
    exact advances

theorem advances_handleOutEop
    (seated : channel.Seated)
    (granted : Bool) :
    Advances channel (channel.handleOutEop maps granted).channel := by
  have prunes := advances_pruneOldPages seated
  unfold handleOutEop
  split
  · exact advances_linkNewPage maps seated granted
  · split
    · rename_i pruned is
      rw [is] at prunes
      exact prunes.trans (advances_linkNewPage maps prunes.seated granted)
    · rename_i after is
      rw [is] at prunes
      exact prunes
    · rename_i after is
      rw [is] at prunes
      exact prunes

theorem advances_allocNext
    (seated : channel.Seated)
    (bufLen : Nat)
    (granted : Bool) :
    Advances channel
      ((channel.allocNext maps bufLen granted).channelAfter channel) := by
  have allocates := writes_allocNextIfSpace channel bufLen
  have turns := advances_handleOutEop maps seated granted
  unfold allocNext
  split
  · split
    · rename_i turned is
      rw [is] at turns
      have allocatesThen := writes_allocNextIfSpace turned bufLen
      split <;>
        (rename_i isThen
         rw [isThen] at allocatesThen
         exact turns.trans (allocatesThen.advances turns.seated))
    · rename_i after is
      rw [is] at turns
      exact turns
    · rename_i after is
      rw [is] at turns
      exact turns
  all_goals
    rename_i is
    rw [is] at allocates
    exact allocates.advances seated

theorem advances_sendBufWithFlags
    (seated : channel.Seated)
    (tag : Tag)
    (flags : Flags)
    (buf : Bytes)
    (granted : Bool) :
    Advances channel
      (channel.sendBufWithFlags maps tag flags buf granted).channel := by
  have allocates := advances_allocNext maps seated buf.length granted
  unfold sendBufWithFlags
  split
  · exact .refl seated
  · split
    · rename_i allocated msg is
      rw [is] at allocates
      exact allocates.trans
        (((writes_fill allocated msg tag flags (.bytes buf)).trans
          (writes_send _ msg)).advances allocates.seated)
    · exact .refl seated
    · rename_i after is
      rw [is] at allocates
      exact allocates
    · rename_i after is
      rw [is] at allocates
      exact allocates

end

end Channel

end MeFuzz.Llmp
