import MeFuzz.LlmpSending
import MeFuzz.TransitionRun

namespace MeFuzz.Llmp

/-!
# The channel from a client to the broker

A client sends on pages that it uses again, and the broker receives.  The
client takes a page back once its `safe_to_unmap` flag is set; the broker sets
it when it maps the page, which is before it has read it.  So the pages that
the broker has still to read are safe only as long as the client does not need
a page that the broker reads from.
-/

/-- A client's sender and the broker's receiver. -/
structure ClientChannel where
  channel : Channel
  receiver : LlmpReceiver

namespace ClientChannel

/-- `register_client` on the sender's first page. -/
def register (channel : Channel) (id : ClientId) : ClientChannel where
  channel :=
    channel.setPage channel.sender.current channel.outPage.markSafeToUnmap
  receiver := .atStart id channel.sender.current

/--
A call of `send_buf_with_flags`, with what the system and the call do, or a
pass of `recv`.  A call of `send_buf` is one with no flags.
-/
inductive Event where
  | send (message : Message) (granted : Bool) (committed : List Message)
  | recv (mapped : Bool) (received : Received)

/-- One call, from any state. -/
inductive Step (maps : Maps) : StepRelation ClientChannel Event where
  | send
      (state : ClientChannel)
      (message : Message)
      (granted : Bool) :
      Step maps state
        (.send message granted
          (state.channel.committed message
            (state.channel.sendBufWithFlags maps message.tag message.flags
              message.payload granted)))
        { state with
          channel :=
            (state.channel.sendBufWithFlags maps message.tag message.flags
              message.payload granted).channel }
  | recv
      (state : ClientChannel)
      (mapped : Bool) :
      Step maps state
        (.recv mapped (state.receiver.recv state.channel.pages mapped).received)
        { channel :=
            { state.channel with
              pages :=
                (state.receiver.recv state.channel.pages mapped).pages }
          receiver :=
            (state.receiver.recv state.channel.pages mapped).receiver }

/-- What an event puts into the channel and takes out of it. -/
def observe : Event → List (Fifo.Action Message)
  | .send _ _ committed => committed.map .enqueue
  | .recv _ (.message msg) => [.dequeue msg.content]
  | .recv _ _ => []

/-- The messages that were sent. -/
def sent (events : List Event) : List Message :=
  Fifo.enqueued (events.flatMap observe)

/-- The messages that the receiver returned. -/
def returned (events : List Event) : List Message :=
  Fifo.dequeued (events.flatMap observe)

/--
The sender would take the page that the receiver reads from: it needs a new
page, that page is among its old ones and it is large enough.
-/
def TakesReceiverPage
    (maps : Maps)
    (state : ClientChannel)
    (message : Message) : Prop :=
  ¬Reserved message.tag ∧
    state.channel.PageFull message.payload.length ∧
    state.receiver.currentRecvShmem ∈ state.channel.sender.earlier ∧
    nextShmemSize maps state.channel.outPage.maxAllocSize ≤
      (state.channel.pages state.receiver.currentRecvShmem).mapSize

instance
    (maps : Maps)
    (state : ClientChannel)
    (message : Message) :
    Decidable (TakesReceiverPage maps state message) :=
  inferInstanceAs (Decidable (_ ∧ _))

/-- No page is taken from under the receiver, and it can map every page. -/
def Keeps (maps : Maps) (state : ClientChannel) : Event → Prop
  | .send message _ _ => ¬TakesReceiverPage maps state message
  | .recv mapped _ => mapped = true

/--
What holds between two calls.  The sender's pages are those that the receiver
has finished, the one it is on unless that was pruned, and those ahead of it.
-/
structure Following
    (state : ClientChannel)
    (opened read unread : List LlmpMsg)
    (finished shown onward : List ShMemId) : Prop where
  ready : Ready state.channel opened
  ahead :
    Ahead state.channel.pages state.channel.sender.current opened
      state.receiver.currentRecvShmem read unread onward
  hasRead :
    HasRead state.receiver
      (state.channel.pages state.receiver.currentRecvShmem) read
  data : ∀ msg ∈ unread, IsData msg
  openedData : ∀ msg ∈ opened, IsData msg
  order :
    state.channel.sender.earlier ++ [state.channel.sender.current] =
      finished ++ shown ++ onward
  here : shown = [] ∨ shown = [state.receiver.currentRecvShmem]
  distinct :
    (state.channel.sender.unusedShmemCache ++ finished ++
      state.receiver.currentRecvShmem :: onward).Nodup
  mapped :
    ∀ id ∈ state.channel.sender.unusedShmemCache ++ finished ++
      state.receiver.currentRecvShmem :: onward,
      id < state.channel.fresh
  marked :
    ∀ id ∈ finished ++ [state.receiver.currentRecvShmem],
      (state.channel.pages id).safeToUnmap = true
  unmarked :
    ∀ id ∈ onward, (state.channel.pages id).safeToUnmap = false
  prunes : state.channel.sender.keepPagesForever = false

variable {state : ClientChannel}
variable {finished shown onward : List ShMemId}
variable {opened read unread : List LlmpMsg}

/-- The receiver goes on to the next page. -/
theorem Following.follow
    {next : ShMemId}
    (following :
      Following state opened read unread finished shown (next :: onward))
    (further :
      Ahead state.channel.pages state.channel.sender.current opened next []
        unread onward) :
    Following
      { channel :=
          { state.channel with
            pages :=
              markBoth state.channel.pages state.receiver.currentRecvShmem
                next }
        receiver := .atStart state.receiver.id next }
      opened [] unread (finished ++ shown) [next] onward := by
  have distinct := following.distinct
  have apart :
      state.receiver.currentRecvShmem ∉ next :: onward ∧
        next ∉ onward := by
    have tail := (List.nodup_append.mp distinct).2.1
    rw [List.nodup_cons, List.nodup_cons] at tail
    exact ⟨tail.1, tail.2.1⟩
  have claimed :
      (state.channel.sender.unusedShmemCache ++ (finished ++ shown) ++
        next :: onward).Sublist
      (state.channel.sender.unusedShmemCache ++ finished ++
        state.receiver.currentRecvShmem :: next :: onward) := by
    rcases following.here with none_ | here
    · rw [none_, List.append_nil]
      exact (List.sublist_cons_self _ _).append_left _
    · rw [here]
      simp
  refine
    { ready := ?_
      ahead :=
        further.frame fun page _ _ => sameContents_markBoth
      hasRead := hasRead_atStart _ _ _
      data := following.data
      openedData := following.openedData
      order := by rw [following.order]; simp
      here := .inr rfl
      distinct := ?_
      mapped := ?_
      marked := ?_
      unmarked := ?_
      prunes := following.prunes }
  · refine following.ready.marked ?_ rfl
    simp only [Channel.outPage, markBoth]
    split
    · exact .inr rfl
    · exact .inl rfl
  · exact distinct.sublist claimed
  · exact fun id member => following.mapped id (claimed.subset member)
  · intro id member
    rcases List.mem_append.mp member with before | here
    · have isMarked := following.marked id (by
        rcases following.here with none_ | here
        · rw [none_, List.append_nil] at before
          exact List.mem_append_left _ before
        · rwa [here] at before)
      exact markBoth_marked isMarked
    · rw [List.mem_singleton.mp here]
      exact markBoth_second
  · intro id member
    have ahead := following.unmarked id (List.mem_cons_of_mem _ member)
    have notHere : id ≠ state.receiver.currentRecvShmem := by
      rintro rfl
      exact apart.1 (List.mem_cons_of_mem _ member)
    have notNext : id ≠ next := by
      rintro rfl
      exact apart.2 member
    exact (congrArg LlmpPage.safeToUnmap
      (markBoth_other notHere notNext)).trans ahead

theorem Following.reread
    {opened read unread readNow left : List LlmpMsg}
    {receiver : LlmpReceiver}
    (following : Following state opened read unread finished shown onward)
    (samePage :
      receiver.currentRecvShmem = state.receiver.currentRecvShmem)
    (hasRead :
      HasRead receiver
        (state.channel.pages state.receiver.currentRecvShmem) readNow)
    (ahead :
      Ahead state.channel.pages state.channel.sender.current opened
        state.receiver.currentRecvShmem readNow left onward)
    (fewer : ∀ msg ∈ left, msg ∈ unread) :
    Following { state with receiver := receiver } opened readNow left
      finished shown onward where
  ready := following.ready
  ahead := samePage ▸ ahead
  hasRead := samePage ▸ hasRead
  data := fun msg member => following.data msg (fewer msg member)
  openedData := following.openedData
  order := following.order
  here := samePage ▸ following.here
  distinct := samePage ▸ following.distinct
  mapped := samePage ▸ following.mapped
  marked := samePage ▸ following.marked
  unmarked := following.unmarked
  prunes := following.prunes

/-- The messages on their way, oldest first. -/
def OnTheirWay (state : ClientChannel) (queue : List Message) : Prop :=
  ∃ opened read unread finished shown onward,
    Following state opened read unread finished shown onward ∧
      queue = unread.map LlmpMsg.content

/-- A pass of `recv` takes the oldest message or none. -/
theorem recv_simulates
    {queue : List Message}
    (related : OnTheirWay state queue) :
    ∃ left,
      Run Fifo.Step queue
          (observe
            (.recv true
              (state.receiver.recv state.channel.pages true).received))
          left ∧
        OnTheirWay
          { channel :=
              { state.channel with
                pages :=
                  (state.receiver.recv state.channel.pages true).pages }
            receiver :=
              (state.receiver.recv state.channel.pages true).receiver }
          left := by
  obtain ⟨opened, read, unread, finished, shown, onward, following, rfl⟩ :=
    related
  have pass :=
    recv_pass following.ready.holds following.hasRead following.ahead
      following.data
  generalize state.receiver.recv state.channel.pages true = reading at pass
  cases pass with
  | @stays unread onward received quiet =>
      refine ⟨unread.map LlmpMsg.content, ?_,
        opened, read, unread, finished, shown, onward,
        following.reread rfl (hasRead_refreshed following.hasRead)
          following.ahead fun _ member => member, rfl⟩
      rcases quiet with rfl | rfl | rfl <;> exact .nil _
  | @takes msg unread onward ahead =>
      refine ⟨unread.map LlmpMsg.content, .single (.dequeue _ _),
        opened, read ++ [msg], unread, finished, shown, onward,
        following.reread rfl ⟨?_, ?_⟩ ahead
          fun _ member => List.mem_cons_of_mem _ member, rfl⟩
      · rw [lastOffset_snoc]
      · exact following.hasRead.latestMsgId_le
  | @follows next unread onward _ further =>
      exact ⟨unread.map LlmpMsg.content, .nil _, opened, [], unread,
        finished ++ shown, [next], onward, following.follow further, rfl⟩

theorem Following.place
    {msg : LlmpMsg}
    {after : Channel}
    (following : Following state opened read unread finished shown onward)
    (placed : Placed state.channel opened msg after)
    (isData : IsData msg) :
    Following { state with channel := after } (opened ++ [msg]) read
      (unread ++ [msg]) finished shown onward := by
  have current := placed.current
  have earlier : after.sender.earlier = state.channel.sender.earlier := by
    rw [placed.sender]
  have cache :
      after.sender.unusedShmemCache =
        state.channel.sender.unusedShmemCache := by
    rw [placed.sender]
  exact
    { ready := placed.ready
      ahead := by
        rw [current]
        exact following.ahead.put msg fun page _ notCurrent =>
          placed.sameContents notCurrent
      hasRead := placed.hasRead following.ready.holds following.hasRead
      data := by
        simpa [or_imp, forall_and] using ⟨following.data, isData⟩
      openedData := by
        simpa [or_imp, forall_and] using ⟨following.openedData, isData⟩
      order := by
        rw [earlier, current]
        exact following.order
      here := following.here
      distinct := by
        rw [cache]
        exact following.distinct
      mapped := by
        rw [cache, placed.fresh]
        exact following.mapped
      marked := fun id member =>
        (placed.safeToUnmap id).trans (following.marked id member)
      unmarked := fun id member =>
        (placed.safeToUnmap id).trans (following.unmarked id member)
      prunes := by
        rw [placed.sender]
        exact following.prunes }

/--
The sender takes back the pages that the receiver has finished, and the one
that it is on when the sender has gone on from it.
-/
theorem Following.unmappable
    (following :
      Following state opened read unread finished shown onward) :
    ∃ left,
      (left = [] ∨ left = [state.receiver.currentRecvShmem]) ∧
      state.channel.sender.earlier.drop state.channel.unmappable.length ++
          [state.channel.sender.current] = left ++ onward ∧
      (state.channel.unmappable = finished ∨
        state.channel.unmappable =
            finished ++ [state.receiver.currentRecvShmem] ∧
          state.receiver.currentRecvShmem ∈
            state.channel.sender.earlier) := by
  have order := following.order
  have marked := following.marked
  have unmarked := following.unmarked
  obtain ⟨front, ends⟩ := following.ahead.ends_at_current
  cases front with
  | nil =>
      -- the receiver is on the sender's page
      obtain ⟨isHere, rfl⟩ := List.cons.inj ends
      have notFinished : state.channel.sender.current ∉ finished := by
        intro member
        have distinct := following.distinct
        rw [isHere, List.append_assoc, List.nodup_append] at distinct
        exact (List.nodup_append.mp distinct.2.1).2.2 _ member _
          (by simp) rfl
      rcases following.here with none_ | here
      · rw [none_, List.append_nil, List.append_nil] at order
        exact absurd (by rw [← order]; simp) notFinished
      · rw [here, isHere, List.append_nil] at order
        have same := (List.append_inj' order rfl).1
        have all :
            state.channel.unmappable = state.channel.sender.earlier := by
          refine List.takeWhile_eq_self_iff.mpr fun id member => ?_
          exact marked id (List.mem_append_left _ (same ▸ member))
        refine ⟨[state.channel.sender.current], .inr (by rw [isHere]), ?_,
          .inl (all.trans same)⟩
        rw [all, List.drop_length]
        rfl
  | cons id ahead =>
      have isOnward : onward = ahead ++ [state.channel.sender.current] :=
        (List.cons.inj ends).2
      subst isOnward
      rw [← List.append_assoc] at order
      have same := (List.append_inj' order rfl).1
      have passed :
          state.channel.unmappable = finished ++ shown := by
        rw [Channel.unmappable, same, List.takeWhile_append_of_pos]
        · cases ahead with
          | nil =>
              simp
          | cons next rest =>
              have isUnmarked := unmarked next (by simp)
              simp [isUnmarked]
        · intro id member
          refine marked id ?_
          rcases following.here with none_ | here
          · rw [none_, List.append_nil] at member
            exact List.mem_append_left _ member
          · rwa [here] at member
      refine ⟨[], .inl rfl, ?_, ?_⟩
      · rw [passed, same, List.drop_left]
        rfl
      · rcases following.here with none_ | here
        · exact .inl (by rw [passed, none_, List.append_nil])
        · refine .inr ⟨by rw [passed, here], ?_⟩
          rw [same, here]
          simp

theorem pruned_of_prunes
    {channel : Channel}
    (prunes : channel.sender.keepPagesForever = false) :
    channel.pruned =
      { channel with
        sender :=
          { channel.sender with
            earlier :=
              channel.sender.earlier.drop channel.unmappable.length
            unusedShmemCache :=
              channel.unmappable.reverse ++
                channel.sender.unusedShmemCache } } := by
  simp only [Channel.pruned, prunes, Bool.false_eq_true, if_false]

variable {new : ShMemId}
variable {minSize : Nat}
variable {cache : List ShMemId}
variable {fresh size : Nat}

/--
The sender goes on to a page that the receiver has finished, or to one that did
not exist.
-/
theorem Following.acquired
    (following : Following state opened read unread finished shown onward)
    (acquired : Acquired state.channel.pruned minSize new cache fresh size)
    (spared :
      ¬(state.receiver.currentRecvShmem ∈ state.channel.sender.earlier ∧
        minSize ≤
          (state.channel.pages state.receiver.currentRecvShmem).mapSize)) :
    new :: cache <:+
        finished.reverse ++ state.channel.sender.unusedShmemCache ∧
      fresh = state.channel.fresh ∨
    new = state.channel.fresh ∧ cache = [] ∧
      fresh = state.channel.fresh + 1 := by
  have pruned := pruned_of_prunes following.prunes
  have pages : state.channel.pruned.pages = state.channel.pages :=
    pruned_pages _
  cases acquired with
  | created _ =>
      exact .inr ⟨pruned_fresh _, rfl, by rw [pruned_fresh]⟩
  | @reused skipped _ _ split small large =>
      refine .inl ⟨?_, pruned_fresh _⟩
      obtain ⟨-, -, -, isFinished | ⟨isPassed, old⟩⟩ := following.unmappable
      · rw [pruned, isFinished] at split
        exact ⟨skipped, split.symm⟩
      · rw [pruned, isPassed] at split
        simp only [List.reverse_append, List.reverse_singleton,
          List.cons_append] at split
        -- the receiver's page is on top of the cache, and too small
        cases skipped with
        | nil =>
            obtain ⟨isHere, -⟩ := List.cons.inj split
            rw [pages, ← isHere] at large
            exact absurd ⟨old, large⟩ spared
        | cons _ others =>
            exact ⟨others, (List.cons.inj split).2.symm⟩

theorem nodup_of_suffix
    {cache old finished way : List ShMemId}
    (distinct : (old ++ finished ++ way).Nodup)
    (suffix : new :: cache <:+ finished.reverse ++ old) :
    (cache ++ (way ++ [new])).Nodup ∧
      ∀ id ∈ cache ++ (way ++ [new]), id ∈ old ++ finished ++ way := by
  have moved : (cache ++ (way ++ [new])).Perm (new :: cache ++ way) := by
    rw [← List.append_assoc]
    exact List.perm_append_singleton new (cache ++ way)
  have kept : (new :: cache ++ way).Sublist
      (finished.reverse ++ old ++ way) :=
    suffix.sublist.append_right way
  have swapped :
      (finished.reverse ++ old ++ way).Perm (old ++ finished ++ way) :=
    (((List.reverse_perm finished).append_right old).trans
      List.perm_append_comm).append_right way
  refine ⟨moved.nodup_iff.mpr ((swapped.nodup_iff.mpr distinct).sublist kept),
    fun id member => ?_⟩
  exact swapped.subset (kept.subset (moved.subset member))

theorem Following.claimed
    (following : Following state opened read unread finished shown onward)
    (acquired : Acquired state.channel.pruned minSize new cache fresh size)
    (spared :
      ¬(state.receiver.currentRecvShmem ∈ state.channel.sender.earlier ∧
        minSize ≤
          (state.channel.pages state.receiver.currentRecvShmem).mapSize)) :
    (cache ++ (state.receiver.currentRecvShmem :: onward ++ [new])).Nodup ∧
      ∀ id ∈ cache ++ (state.receiver.currentRecvShmem :: onward ++ [new]),
        id < fresh := by
  have mapped := following.mapped
  rcases following.acquired acquired spared with
    ⟨suffix, rfl⟩ | ⟨rfl, rfl, rfl⟩
  · obtain ⟨nodup, old⟩ := nodup_of_suffix following.distinct suffix
    exact ⟨nodup, fun id member => mapped id (old id member)⟩
  · rw [List.nil_append]
    refine ⟨List.nodup_append.mpr
      ⟨(List.nodup_append.mp following.distinct).2.1, by simp, ?_⟩, ?_⟩
    · intro id member other isNew
      have below := mapped id (List.mem_append_right _ member)
      rw [List.mem_singleton.mp isNew]
      exact below.ne
    · intro id member
      rcases List.mem_append.mp member with old | isNew
      · exact (mapped id (List.mem_append_right _ old)).trans
          (Nat.lt_succ_self _)
      · rw [List.mem_singleton.mp isNew]
        exact Nat.lt_succ_self _

theorem Following.new_apart
    (following : Following state opened read unread finished shown onward)
    (acquired : Acquired state.channel.pruned minSize new cache fresh size)
    (spared :
      ¬(state.receiver.currentRecvShmem ∈ state.channel.sender.earlier ∧
        minSize ≤
          (state.channel.pages state.receiver.currentRecvShmem).mapSize)) :
    new ∉ state.receiver.currentRecvShmem :: onward := by
  intro member
  have claimed := (following.claimed acquired spared).1
  have tail := (List.nodup_append.mp claimed).2.1
  exact (List.nodup_append.mp tail).2.2 new member new (by simp) rfl

/-- The sender goes on to a page that the receiver is done with. -/
theorem Following.link
    {state : ClientChannel}
    {opened read unread : List LlmpMsg}
    {finished shown onward : List ShMemId}
    {minSize : Nat}
    {new : ShMemId}
    {cache : List ShMemId}
    {fresh size : Nat}
    {after : Channel}
    (following : Following state opened read unread finished shown onward)
    (acquired : Acquired state.channel.pruned minSize new cache fresh size)
    (linked :
      Linked state.channel.pruned opened new cache fresh size after)
    (spared :
      ¬(state.receiver.currentRecvShmem ∈ state.channel.sender.earlier ∧
        minSize ≤
          (state.channel.pages state.receiver.currentRecvShmem).mapSize)) :
    ∃ left,
      Following { state with channel := after } [] read unread [] left
        (onward ++ [new]) := by
  obtain ⟨left, isLeft, order, -⟩ := following.unmappable
  have claimed := following.claimed acquired spared
  have notOnWay := following.new_apart acquired spared
  have elsewhere :
      ∀ id ∈ state.receiver.currentRecvShmem :: onward,
        id ≠ state.channel.sender.current →
          after.pages id = state.channel.pages id := by
    intro id member notCurrent
    rw [linked.elsewhere id (by rwa [pruned_current]), pruned_pages]
    rintro rfl
    exact notOnWay member
  have flags :
      ∀ id ∈ state.receiver.currentRecvShmem :: onward,
        (after.pages id).safeToUnmap =
          (state.channel.pages id).safeToUnmap := by
    intro id member
    by_cases isCurrent : id = state.channel.sender.current
    · have flag := linked.flag
      rw [pruned_current, pruned_outPage] at flag
      rw [isCurrent, flag]
      rfl
    · rw [elsewhere id member isCurrent]
  have current : after.sender.current = new := by
    rw [linked.sender]
  obtain ⟨eop, isEop, closed⟩ := linked.closed
  rw [pruned_current] at closed
  refine ⟨left,
    { ready := linked.ready
      ahead := ?_
      hasRead := ?_
      data := following.data
      openedData := by simp
      order := ?_
      here := isLeft
      distinct := ?_
      mapped := ?_
      marked := ?_
      unmarked := ?_
      prunes := ?_ }⟩
  · rw [current]
    exact following.ahead.extend notOnWay closed isEop
      fun page member notCurrent =>
        elsewhere page member notCurrent ▸ SameContents.refl _
  · refine following.hasRead.grow ?_
    have grown :=
      linked.currentMsgId_le following.ready.pruned.holds
        (fun notCurrent => by
          rw [pruned_pages]
          rw [pruned_current] at notCurrent
          exact elsewhere _ List.mem_cons_self notCurrent)
    rwa [pruned_pages] at grown
  · rw [linked.sender, pruned_of_prunes following.prunes]
    simp only [List.nil_append, ← List.append_assoc, ← order]
  · rw [linked.sender, List.append_nil]
    exact claimed.1
  · rw [linked.sender, List.append_nil, linked.fresh]
    exact claimed.2
  · intro id member
    rw [List.nil_append, List.mem_singleton] at member
    subst member
    rw [flags _ (by simp)]
    exact following.marked _ (by simp)
  · intro id member
    rcases List.mem_append.mp member with old | isNew
    · rw [flags _ (List.mem_cons_of_mem _ old)]
      exact following.unmarked id old
    · have unmarked := linked.unmarked
      unfold Channel.outPage at unmarked
      rw [current] at unmarked
      rwa [List.mem_singleton.mp isNew]
  · rw [linked.sender, pruned_of_prunes following.prunes]
    exact following.prunes

theorem Following.starve
    (following : Following state opened read unread finished shown onward) :
    ∃ left,
      Following
        { state with
          channel :=
            { state.channel.pruned with
              sender :=
                { state.channel.pruned.sender with
                  unusedShmemCache := [] } } }
        opened read unread [] left onward := by
  obtain ⟨left, isLeft, order, -⟩ := following.unmappable
  have pruned := pruned_of_prunes following.prunes
  have kept :
      (state.receiver.currentRecvShmem :: onward).Sublist
        (state.channel.sender.unusedShmemCache ++ finished ++
          state.receiver.currentRecvShmem :: onward) :=
    List.sublist_append_right _ _
  refine ⟨left, ?_⟩
  rw [pruned]
  exact
    { ready :=
        following.ready.congr rfl rfl following.ready.committed
      ahead := following.ahead
      hasRead := following.hasRead
      data := following.data
      openedData := following.openedData
      order := order
      here := isLeft
      distinct := following.distinct.sublist kept
      mapped := fun id member => following.mapped id (kept.subset member)
      marked := fun id member =>
        following.marked id (List.mem_append_right _ member)
      unmarked := following.unmarked
      prunes := following.prunes }

theorem Following.current_apart
    (following : Following state opened read unread finished shown onward) :
    state.channel.sender.current ∉ state.channel.sender.earlier ∧
      state.channel.sender.current ∉
        state.channel.sender.unusedShmemCache ∧
      state.channel.sender.current < state.channel.fresh := by
  have distinct := following.distinct
  have order := following.order
  have onWay := following.ahead.current_mem
  have claimed :
      (state.channel.sender.earlier ++
        [state.channel.sender.current]).Nodup := by
    rw [order]
    refine (List.nodup_append.mp
      (List.append_assoc _ _ _ ▸ distinct)).2.1.sublist ?_
    rcases following.here with none_ | here
    · rw [none_, List.append_nil]
      exact (List.sublist_cons_self _ _).append_left _
    · rw [here, List.append_assoc]
      exact List.Sublist.refl _
  refine ⟨?_, ?_, following.mapped _ (List.mem_append_right _ onWay)⟩
  · intro member
    exact (List.nodup_append.mp claimed).2.2 _ member _ (by simp) rfl
  · intro member
    exact (List.nodup_append.mp distinct).2.2 _
      (List.mem_append_left _ member) _ onWay rfl

theorem send_simulates
    (maps : Maps)
    {queue : List Message}
    (related : OnTheirWay state queue)
    (message : Message)
    (granted : Bool)
    (spared : ¬TakesReceiverPage maps state message) :
    ∃ left,
      Run Fifo.Step queue
          (observe
            (.send message granted
              (state.channel.committed message
                (state.channel.sendBufWithFlags maps message.tag
                  message.flags message.payload granted))))
          left ∧
        OnTheirWay
          { state with
            channel :=
              (state.channel.sendBufWithFlags maps message.tag
                message.flags message.payload granted).channel }
          left := by
  obtain ⟨opened, read, unread, finished, shown, onward, following, rfl⟩ :=
    related
  obtain ⟨notOld, notCached, mapped⟩ := following.current_apart
  have sent :=
    sendBufWithFlags_sent maps following.ready message granted notOld
      notCached mapped
  generalize state.channel.sendBufWithFlags maps message.tag message.flags
    message.payload granted = outcome at sent
  cases sent with
  | refused _ =>
      exact ⟨_, .nil _, opened, read, unread, finished, shown, onward,
        following, rfl⟩
  | stuck =>
      refine ⟨unread.map LlmpMsg.content, ?_, opened, read, unread, finished,
        shown, onward, following, rfl⟩
      simp only [observe, Channel.committed, if_true, List.map_nil]
      exact .nil _
  | @here msg _ content isData placed =>
      refine ⟨unread.map LlmpMsg.content ++ [message],
        .single (.enqueue _ message), opened ++ [msg], read, unread ++ [msg],
        finished, shown, onward, following.place placed isData, ?_⟩
      rw [List.map_append, List.map_singleton, content]
  | @slowReceiver msg _ content isData placed =>
      refine ⟨unread.map LlmpMsg.content ++ [msg.content], ?_,
        opened ++ [msg], read, unread ++ [msg], finished, shown, onward,
        following.place placed isData, ?_⟩
      · rw [observe, committed_placed message placed following.ready, content]
        exact .single (.enqueue _ _)
      · rw [List.map_append, List.map_singleton]
  | starved _ =>
      obtain ⟨left, starved⟩ := following.starve
      exact ⟨unread.map LlmpMsg.content, .nil _, opened, read, unread, [],
        left, onward, starved, rfl⟩
  | @tooLong new _ _ _ _ notReserved full acquired linked =>
      obtain ⟨left, linkedOn⟩ :=
        following.link acquired linked fun taken =>
          spared ⟨notReserved, full, taken⟩
      exact ⟨unread.map LlmpMsg.content, .nil _, [], read, unread, [], left,
        onward ++ [new], linkedOn, rfl⟩
  | @onNext new _ _ _ _ _ msg full acquired linked content isData placed =>
      obtain ⟨left, linkedOn⟩ :=
        following.link acquired linked fun taken =>
          spared ⟨content ▸ isData.1, full, taken⟩
      refine ⟨unread.map LlmpMsg.content ++ [message],
        .single (.enqueue _ message), [] ++ [msg], read, unread ++ [msg], [],
        left, onward ++ [new], linkedOn.place placed isData, ?_⟩
      rw [List.map_append, List.map_singleton, content]

end ClientChannel

namespace LlmpPage

/-- The offset of the message with this many messages before it. -/
def offsetOf (page : LlmpPage) : Nat → Nat
  | 0 => 0
  | before + 1 =>
      page.offsetOf before + (page.msgAt (page.offsetOf before)).extent

/-- The page that the last committed message links to. -/
def nextPage? (page : LlmpPage) : Option ShMemId :=
  if page.currentMsgId = 0 then none
  else
    let last := page.msgAt (page.offsetOf (page.currentMsgId - 1))
    if last.tag = llmpTagEndOfPage then
      match last.buf with
      | .sharedMapInfo _ shmStr => some shmStr
      | .bytes _ => none
    else none

end LlmpPage

variable {page : LlmpPage}

theorem Holds.offsetOf
    {before after : List LlmpMsg}
    (holds : Holds page (before ++ after)) :
    page.offsetOf before.length = endOf before := by
  induction before using List.reverseRecOn generalizing after with
  | nil =>
      rfl
  | append_singleton front last ih =>
      rw [List.append_assoc] at holds
      rw [List.length_append, List.length_singleton, LlmpPage.offsetOf,
        ih holds, holds.msgAt_endOf.1, endOf_append,
        endOf_cons, endOf_nil, Nat.add_zero]

theorem Holds.last
    {page : LlmpPage}
    {front : List LlmpMsg}
    {last : LlmpMsg}
    (holds : Holds page (front ++ [last])) :
    page.currentMsgId ≠ 0 ∧
      page.msgAt (page.offsetOf (page.currentMsgId - 1)) = last := by
  have count := holds.count
  rw [List.length_append, List.length_singleton] at count
  refine ⟨by omega, ?_⟩
  rw [count, Nat.add_sub_cancel, holds.offsetOf, holds.msgAt_endOf.1]

theorem nextPage?_closed
    {front : List LlmpMsg}
    {eop : LlmpMsg}
    {next : ShMemId}
    (holds : Holds page (front ++ [eop]))
    (isEop : IsEop eop next) :
    page.nextPage? = some next := by
  obtain ⟨isTag, -, mapSize, isInfo⟩ := isEop
  obtain ⟨some_, last⟩ := holds.last
  unfold LlmpPage.nextPage?
  rw [if_neg some_]
  simp only [last, isTag, if_true, isInfo]

theorem nextPage?_open
    {opened : List LlmpMsg}
    (holds : Holds page opened)
    (data : ∀ msg ∈ opened, IsData msg) :
    page.nextPage? = none := by
  unfold LlmpPage.nextPage?
  induction opened using List.reverseRecOn with
  | nil =>
      exact if_pos holds.count
  | append_singleton front last _ =>
      obtain ⟨some_, isLast⟩ := holds.last
      have notEop : last.tag ≠ llmpTagEndOfPage := fun isEop =>
        (data last (by simp)).1 (.inr (.inl isEop))
      rw [if_neg some_]
      simp only [isLast, notEop, if_false]

/-- The page that a receiver is on and those that it will come to. -/
inductive OnTheWay
    (pages : ShMemId → LlmpPage)
    (start : ShMemId) : ShMemId → Prop where
  | here :
      OnTheWay pages start start
  | next
      {id other : ShMemId} :
      OnTheWay pages start id →
      (pages id).nextPage? = some other →
      OnTheWay pages start other

theorem Ahead.onTheWay
    {pages : ShMemId → LlmpPage}
    {current start id : ShMemId}
    {opened read unread : List LlmpMsg}
    {onward : List ShMemId}
    (ahead : Ahead pages current opened start read unread onward)
    (holds : Holds (pages current) opened)
    (data : ∀ msg ∈ opened, IsData msg)
    (onTheWay : OnTheWay pages start id) :
    ∃ readThere unreadThere onwardThere,
      Ahead pages current opened id readThere unreadThere onwardThere ∧
        id :: onwardThere <:+ start :: onward := by
  induction onTheWay with
  | here =>
      exact ⟨read, unread, onward, ahead, List.suffix_refl _⟩
  | next _ link ih =>
      obtain ⟨_, _, _, aheadThere, isSuffix⟩ := ih
      cases aheadThere with
      | last _ _ _ =>
          rw [nextPage?_open holds data] at link
          cases link
      | link _ closed isEop further =>
          rw [nextPage?_closed closed isEop] at link
          obtain rfl := Option.some.inj link
          exact ⟨_, _, _, further, (List.suffix_cons _ _).trans isSuffix⟩

namespace ClientChannel

/--
A step that makes another page the sender's current one, and so initializes
it, does not choose a page that the receiver has still to read.
-/
def SparesUnread
    (maps : Maps)
    (state : ClientChannel)
    (event : Event) : Prop :=
  ∀ next,
    Step maps state event next →
    next.channel.sender.current ≠ state.channel.sender.current →
    ¬OnTheWay state.channel.pages state.receiver.currentRecvShmem
      next.channel.sender.current

theorem register_onTheirWay
    {maps : Maps}
    {id : ClientId}
    {channel : Channel}
    (started : Channel.new maps id false = some channel)
    (clientId : ClientId) :
    OnTheirWay (register channel clientId) [] := by
  obtain ⟨ready, fresh, sender⟩ := new_ready started
  have current : channel.sender.current = 0 := by
    rw [sender]
  refine ⟨[], [], [], [], [0], [],
    { ready := ready.marked (.inr (outPage_setPage _ _)) rfl
      ahead := ?_
      hasRead := hasRead_atStart _ _ _
      data := by simp
      openedData := by simp
      order := ?_
      here := .inr ?_
      distinct := ?_
      mapped := ?_
      marked := ?_
      unmarked := by simp
      prunes := ?_ }, rfl⟩
  · exact .last [] [] rfl
  · simp [register, sender]
  · simp [register, current]
    rfl
  · simp [register, sender]
  · simp [register, sender, LlmpReceiver.atStart]
    exact fresh ▸ Nat.one_pos
  · simp [register, LlmpReceiver.atStart, Channel.setPage,
      LlmpPage.markSafeToUnmap]
  · simp [register, sender]

variable {queue : List Message}

theorem sparesUnread
    (maps : Maps)
    {state : ClientChannel}
    {event : Event}
    (related : OnTheirWay state queue)
    (keeps : Keeps maps state event) :
    SparesUnread maps state event := by
  obtain ⟨opened, read, unread, finished, shown, onward, following, -⟩ :=
    related
  intro next taken changed onTheWay
  cases taken with
  | recv _ _ =>
      exact changed rfl
  | send _ message granted =>
      obtain ⟨notOld, notCached, mapped⟩ := following.current_apart
      obtain ⟨_, _, _, _, isSuffix⟩ :=
        following.ahead.onTheWay following.ready.holds following.openedData
          onTheWay
      have onWay := isSuffix.subset List.mem_cons_self
      have sent :=
        sendBufWithFlags_sent maps following.ready message granted notOld
          notCached mapped
      generalize state.channel.sendBufWithFlags maps message.tag message.flags
        message.payload granted = outcome at sent changed onWay
      cases sent with
      | refused _ =>
          exact changed rfl
      | stuck =>
          exact changed rfl
      | here _ _ placed =>
          exact changed placed.current
      | slowReceiver _ _ placed =>
          exact changed placed.current
      | starved _ =>
          exact changed (pruned_current _)
      | tooLong notReserved full acquired linked =>
          have isNew : (Outcome.channel (.error _)).sender.current = _ :=
            congrArg LlmpSender.current linked.sender
          rw [isNew] at onWay
          exact following.new_apart acquired
            (fun taken => keeps ⟨notReserved, full, taken⟩) onWay
      | onNext full acquired linked content isData placed =>
          have isNew : (Outcome.channel (.ok _)).sender.current = _ :=
            placed.current.trans (congrArg LlmpSender.current linked.sender)
          rw [isNew] at onWay
          exact following.new_apart acquired
            (fun taken => keeps ⟨content ▸ isData.1, full, taken⟩) onWay

/-- Every step of the channel is one of a first-in-first-out queue. -/
theorem step_simulates
    (maps : Maps)
    {state next : ClientChannel}
    {event : Event}
    (related : OnTheirWay state queue)
    (taken : (Step maps).guarded (Keeps maps) state event next) :
    ∃ left,
      Run Fifo.Step queue (observe event) left ∧ OnTheirWay next left := by
  obtain ⟨keeps, step⟩ := taken
  cases step with
  | send _ message granted =>
      exact send_simulates maps related message granted keeps
  | recv _ mapped =>
      obtain rfl : mapped = true := keeps
      exact recv_simulates related

/-- A run of the channel is one of a first-in-first-out queue. -/
theorem run_simulates
    {maps : Maps}
    {start final : ClientChannel}
    {events : List Event}
    (run : Run ((Step maps).guarded (Keeps maps)) start events final)
    (related : OnTheirWay start queue) :
    ∃ left,
      Run Fifo.Step queue (events.flatMap observe) left ∧
        OnTheirWay final left :=
  @Run.simulation _ _ _ _ _ Fifo.Step OnTheirWay observe
    (fun related taken => step_simulates maps related taken)
    _ _ _ run _ related

/--
As long as the sender takes no page from under the receiver, what the receiver
returns is a prefix of what was sent, and no page with unread messages is
initialized.
-/
theorem returned_prefix_of_sent
    {maps : Maps}
    {id clientId : ClientId}
    {channel : Channel}
    {events : List Event}
    {final : ClientChannel}
    (started : Channel.new maps id false = some channel)
    (run :
      Run ((Step maps).guarded (Keeps maps)) (register channel clientId)
        events final) :
    returned events <+: sent events ∧
      Run.Everywhere ((Step maps).guarded (Keeps maps)) (SparesUnread maps)
        (register channel clientId) events := by
  have initially := register_onTheirWay started clientId
  refine ⟨?_, ?_⟩
  · obtain ⟨left, abstractRun, -⟩ := run_simulates run initially
    exact Fifo.dequeued_prefix abstractRun
  · intro earlier event state next _ earlierRun taken
    obtain ⟨left, -, related⟩ := run_simulates earlierRun initially
    exact sparesUnread maps related taken.1

/-- A call, before it is known what comes of it. -/
inductive Call where
  | send (message : Message) (granted : Bool)
  | recv (mapped : Bool)

/-- Make a call. -/
def perform
    (maps : Maps)
    (state : ClientChannel) : Call → Event × ClientChannel
  | .send message granted =>
      let outcome :=
        state.channel.sendBufWithFlags maps message.tag message.flags
          message.payload granted
      (.send message granted (state.channel.committed message outcome),
        { state with channel := outcome.channel })
  | .recv mapped =>
      let reading := state.receiver.recv state.channel.pages mapped
      (.recv mapped reading.received,
        { channel := { state.channel with pages := reading.pages }
          receiver := reading.receiver })

/-- Make one call after the other. -/
def replay
    (maps : Maps) :
    List Call → ClientChannel → List Event × ClientChannel
  | [], state => ([], state)
  | call :: rest, state =>
      let (event, next) := perform maps state call
      let (events, final) := replay maps rest next
      (event :: events, final)

theorem perform_step
    (maps : Maps)
    (state : ClientChannel)
    (call : Call) :
    Step maps state (perform maps state call).1
      (perform maps state call).2 := by
  cases call with
  | send message granted =>
      exact .send state message granted
  | recv mapped =>
      exact .recv state mapped

theorem replay_run
    (maps : Maps)
    (calls : List Call)
    (state : ClientChannel) :
    Run (Step maps) state (replay maps calls state).1
      (replay maps calls state).2 := by
  induction calls generalizing state with
  | nil =>
      exact .nil state
  | cons call rest ih =>
      exact .cons (perform_step maps state call) (ih _)

/-- A sender on a system with small maps. -/
def sampleChannel : Channel :=
  (Channel.new .small 1 false).get Channel.isSome_new_client

theorem sampleChannel_new :
    Channel.new .small 1 false = some sampleChannel :=
  (Option.some_get _).symm

/-- All calls keep the page that the receiver is on. -/
def KeepAll
    (maps : Maps) : List Call → ClientChannel → Prop
  | [], _ => True
  | call :: rest, state =>
      Keeps maps state (perform maps state call).1 ∧
        KeepAll maps rest (perform maps state call).2

theorem run_of_keepAll
    {maps : Maps}
    {calls : List Call}
    {state : ClientChannel}
    (keepAll : KeepAll maps calls state) :
    Run ((Step maps).guarded (Keeps maps)) state (replay maps calls state).1
      (replay maps calls state).2 := by
  induction calls generalizing state with
  | nil =>
      exact .nil state
  | cons call rest ih =>
      exact .cons ⟨keepAll.1, perform_step maps state call⟩ (ih keepAll.2)

/-- Five messages of half a megabyte, of which a page holds two, are read as they come. -/
def alternatingCalls : List Call :=
  [.send ⟨1, 0, halfMegabyte⟩ true, .send ⟨2, 0, halfMegabyte⟩ true, .recv true, .recv true,
    .send ⟨3, 0, halfMegabyte⟩ true, .recv true, .recv true,
    .send ⟨4, 0, halfMegabyte⟩ true, .recv true,
    .send ⟨5, 0, halfMegabyte⟩ true, .recv true, .recv true]

theorem keepAll_alternating :
    KeepAll .small alternatingCalls (register sampleChannel 1) ∧
      (returned
          (replay .small alternatingCalls (register sampleChannel 1)).1).map Message.tag =
        [1, 2, 3, 4, 5] ∧
      ((replay .small alternatingCalls
          (register sampleChannel 1)).2.channel.sender.earlier = [1] ∧
        (replay .small alternatingCalls
          (register sampleChannel 1)).2.channel.sender.current = 0) := by
  simp only [alternatingCalls, KeepAll, Keeps, TakesReceiverPage, replay, perform,
    Channel.sendBufWithFlags, halfMegabyte_length]
  decide +kernel

/-- The sender has gone on to its second page and from there back to its first one. -/
theorem returned_prefix_of_sent_reused_page :
    (returned
        (replay .small alternatingCalls (register sampleChannel 1)).1).map Message.tag =
        [1, 2, 3, 4, 5] ∧
      ((replay .small alternatingCalls
          (register sampleChannel 1)).2.channel.sender.earlier = [1] ∧
        (replay .small alternatingCalls
          (register sampleChannel 1)).2.channel.sender.current = 0) ∧
      returned (replay .small alternatingCalls (register sampleChannel 1)).1 <+:
        sent (replay .small alternatingCalls (register sampleChannel 1)).1 :=
  ⟨keepAll_alternating.2.1, keepAll_alternating.2.2,
    (returned_prefix_of_sent sampleChannel_new (run_of_keepAll keepAll_alternating.1)).1⟩

/-- Five messages of half a megabyte, of which a page holds two. -/
def fiveMessagesCalls : List Call :=
  [.send ⟨1, 0, halfMegabyte⟩ true, .send ⟨2, 0, halfMegabyte⟩ true,
    .send ⟨3, 0, halfMegabyte⟩ true, .send ⟨4, 0, halfMegabyte⟩ true,
    .send ⟨5, 0, halfMegabyte⟩ true, .recv true]

theorem head_tags_fiveMessages :
    (returned
        (replay .small fiveMessagesCalls
          (register sampleChannel 1)).1).head?.map Message.tag = some 5 ∧
      (sent
        (replay .small fiveMessagesCalls
          (register sampleChannel 1)).1).head?.map Message.tag = some 1 := by
  simp only [fiveMessagesCalls, replay, perform, Channel.sendBufWithFlags,
    halfMegabyte_length]
  decide +kernel

/--
The third page of the sender is its first one again, although the receiver has
read nothing of it: the first message that is received is the fifth.
-/
theorem reused_page_loses_messages :
    Channel.new .small 1 false = some sampleChannel ∧
      Run (Step .small) (register sampleChannel 1)
        (replay .small fiveMessagesCalls (register sampleChannel 1)).1
        (replay .small fiveMessagesCalls (register sampleChannel 1)).2 ∧
      ¬returned
            (replay .small fiveMessagesCalls (register sampleChannel 1)).1 <+:
          sent
            (replay .small fiveMessagesCalls
              (register sampleChannel 1)).1 := by
  refine ⟨sampleChannel_new, replay_run .small fiveMessagesCalls _, ?_⟩
  intro isPrefix
  obtain ⟨first, firstSent⟩ := head_tags_fiveMessages
  obtain ⟨rest, split⟩ := isPrefix
  rw [← split] at firstSent
  generalize returned _ = messages at first firstSent
  cases messages with
  | nil =>
      cases first
  | cons message _ =>
      cases first.symm.trans firstSent

end ClientChannel

end MeFuzz.Llmp
