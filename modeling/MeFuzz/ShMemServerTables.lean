import MeFuzz.ShMemServer

namespace MeFuzz.ShMemServer

open CountedHeap (Counts)

/-!
# The tables of the shared memory service

The references in the tables are the references that are counted, so that a map is
there exactly as long as some table has it.  The table of all maps has the number of
every map that is there.  Each request keeps this; what a response carries is held
until it is sent.
-/

/-- All references that clients and pending forks hold. -/
def Worker.held (worker : Worker) : List Reference :=
  worker.clients.gather Maps.references ++
    worker.forkingClients.gather Maps.references

/-- The references under a number are of the map with that number. -/
def Keyed (heap : CountedHeap MapId) (maps : Maps) : Prop :=
  ∀ mapId registered,
    maps.lookup mapId = some registered →
      ∀ reference ∈ registered, heap.value reference = some mapId

/-- The tables agree, where some more references are held elsewhere. -/
structure CoherentWith (worker : Worker) (pending : List Reference) : Prop where
  counts : Counts worker.heap (pending ++ worker.held)
  named :
    ∀ reference ∈ pending ++ worker.held,
      ∃ mapId,
        worker.heap.value reference = some mapId ∧
          worker.allShmems.lookup mapId = some reference
  weak :
    ∀ mapId reference,
      worker.allShmems.lookup mapId = some reference →
        reference < worker.heap.next ∧
          worker.heap.value reference = some mapId
  clientsKeyed :
    ∀ clientId maps,
      worker.clients.lookup clientId = some maps → Keyed worker.heap maps
  forkingKeyed :
    ∀ clientId maps,
      worker.forkingClients.lookup clientId = some maps →
        Keyed worker.heap maps

/-- The tables agree. -/
abbrev Coherent (worker : Worker) : Prop :=
  CoherentWith worker []

variable {worker next : Worker}
variable {pending : List Reference}
variable {clientId : RawFd}
variable {maps : Maps}
variable {mapId : MapId}
variable {registered : List Reference}
variable {reference : Reference}

/-- What is held elsewhere than in the table of a client. -/
def Worker.elsewhere (worker : Worker) (clientId : RawFd) : List Reference :=
  Table.gather (worker.clients.erase clientId) Maps.references ++
    worker.forkingClients.gather Maps.references

theorem held_of_client
    (isClient : worker.clients.lookup clientId = some maps) :
    worker.held.Perm (maps.references ++ worker.elsewhere clientId) := by
  have client := Table.gather_of_lookup Maps.references isClient
  exact (client.append_right _).trans (.of_eq (List.append_assoc ..))

theorem held_insert_client
    (worker : Worker)
    (clientId : RawFd)
    (maps : Maps)
    (heap : CountedHeap MapId) :
    ({ worker with
        clients := worker.clients.insert clientId maps
        heap } : Worker).held =
      maps.references ++ worker.elsewhere clientId := by
  unfold Worker.held Worker.elsewhere
  dsimp only
  rw [Table.gather_insert, List.append_assoc]

theorem references_of_lookup
    (isEntry : maps.lookup mapId = some registered) :
    maps.references.Perm
      (registered ++ Maps.references (maps.erase mapId)) :=
  Table.gather_of_lookup id isEntry

theorem references_insert :
    Maps.references (maps.insert mapId registered) =
      registered ++ Maps.references (maps.erase mapId) :=
  Table.gather_insert id maps mapId registered

theorem references_perm (maps : Maps) (mapId : MapId) :
    maps.references.Perm
      ((maps.lookup mapId).getD [] ++ Maps.references (maps.erase mapId)) := by
  cases isEntry : maps.lookup mapId with
  | none =>
      have same :=
        Table.gather_erase_of_lookup_none id isEntry
      exact .of_eq same.symm
  | some registered =>
      exact references_of_lookup isEntry

theorem Keyed.insert
    {heap : CountedHeap MapId}
    (keyed : Keyed heap maps)
    (isMap : ∀ reference ∈ registered, heap.value reference = some mapId) :
    Keyed heap (maps.insert mapId registered) := by
  intro other references isEntry
  by_cases same : other = mapId
  · subst same
    rw [AList.lookup_insert] at isEntry
    cases isEntry
    exact isMap
  · rw [AList.lookup_insert_ne same] at isEntry
    exact keyed other references isEntry

theorem Keyed.getD
    {heap : CountedHeap MapId}
    (keyed : Keyed heap maps) :
    ∀ reference ∈ (maps.lookup mapId).getD [],
      heap.value reference = some mapId := by
  intro reference isIn
  cases isEntry : maps.lookup mapId with
  | none =>
      rw [isEntry] at isIn
      cases isIn
  | some registered =>
      rw [isEntry] at isIn
      exact keyed mapId registered isEntry reference isIn

theorem lookup_insert_all
    {tables : Table RawFd Maps}
    {property : Maps → Prop}
    (all : ∀ clientId maps, tables.lookup clientId = some maps → property maps)
    (new : property maps) :
    ∀ other otherMaps,
      (tables.insert clientId maps).lookup other = some otherMaps →
        property otherMaps := by
  intro other otherMaps isEntry
  by_cases same : other = clientId
  · subst same
    rw [AList.lookup_insert] at isEntry
    cases isEntry
    exact new
  · rw [AList.lookup_insert_ne same] at isEntry
    exact all other otherMaps isEntry

theorem lookup_erase_all
    {tables : Table RawFd Maps}
    {property : Maps → Prop}
    (all : ∀ clientId maps, tables.lookup clientId = some maps → property maps) :
    ∀ other otherMaps,
      (tables.erase clientId).lookup other = some otherMaps →
        property otherMaps := by
  intro other otherMaps isEntry
  by_cases same : other = clientId
  · subst same
    rw [AList.lookup_erase] at isEntry
    cases isEntry
  · rw [AList.lookup_erase_ne same] at isEntry
    exact all other otherMaps isEntry

theorem CoherentWith.change
    {still : List Reference}
    (coherent : CoherentWith worker pending)
    (counts : Counts next.heap (still ++ next.held))
    (sameNames : next.allShmems = worker.allShmems)
    (sameValues : next.heap.value = worker.heap.value)
    (sameNext : next.heap.next = worker.heap.next)
    (clientsKeyed :
      ∀ clientId maps,
        next.clients.lookup clientId = some maps → Keyed worker.heap maps)
    (forkingKeyed :
      ∀ clientId maps,
        next.forkingClients.lookup clientId = some maps →
          Keyed worker.heap maps)
    (notNew :
      ∀ reference ∈ still ++ next.held,
        reference ∈ pending ++ worker.held) :
    CoherentWith next still where
  counts := counts
  named := by
    intro reference isHeld
    rw [sameNames, sameValues]
    exact coherent.named reference (notNew reference isHeld)
  weak := by
    rw [sameNames, sameValues, sameNext]
    exact coherent.weak
  clientsKeyed := by
    unfold Keyed at clientsKeyed ⊢
    rwa [sameValues]
  forkingKeyed := by
    unfold Keyed at forkingKeyed ⊢
    rwa [sameValues]

/-- The references that a response carries. -/
def Response.carried : Response → List Reference
  | .mapping reference => [reference]
  | .id _ => []
  | .refCount _ => []

/-- What is held until a response is sent. -/
def carriedBy : Except Fault Response → List Reference
  | .ok response => response.carried
  | .error _ => []

theorem handlePreFork_coherent
    (coherent : Coherent worker)
    (isClient : worker.clients.lookup clientId = some maps) :
    CoherentWith (worker.handlePreFork clientId).2
      (carriedBy (worker.handlePreFork clientId).1) := by
  unfold Worker.handlePreFork
  rw [isClient]
  dsimp only
  have isHeld : ∀ reference ∈ maps.references, reference ∈ worker.held :=
    fun reference isOwn =>
      List.mem_append_left _ (Table.mem_gather_of_lookup isClient isOwn)
  have forking :
      (worker.forkingClients.gather Maps.references).Perm
        ((worker.forkingClients.lookup clientId).elim [] Maps.references ++
          Table.gather (worker.forkingClients.erase clientId)
            Maps.references) := by
    cases isForking : worker.forkingClients.lookup clientId with
    | none =>
        exact .of_eq (Table.gather_erase_of_lookup_none _ isForking).symm
    | some replaced =>
        exact Table.gather_of_lookup _ isForking
  have heldAfter :
      (maps.references ++ worker.held).Perm
        ((worker.forkingClients.lookup clientId).elim [] Maps.references ++
          (worker.clients.gather Maps.references ++
            Table.gather (worker.forkingClients.insert clientId maps)
              Maps.references)) := by
    rw [List.perm_iff_count]
    intro reference
    have sameCount := forking.count_eq reference
    unfold Worker.held
    rw [Table.gather_insert]
    simp only [List.count_append] at sameCount ⊢
    omega
  refine
    coherent.change ?_ rfl (by simp) (by simp) coherent.clientsKeyed
      (lookup_insert_all coherent.forkingKeyed
        (coherent.clientsKeyed _ _ isClient))
      ?_
  · exact ((coherent.counts.cloneAll isHeld).perm heldAfter).dropAll
  · intro reference isAfter
    have isBefore :=
      heldAfter.mem_iff.mpr (List.mem_append_right _ isAfter)
    rcases List.mem_append.mp isBefore with isOwn | isOld
    · exact isHeld reference isOwn
    · exact isOld

theorem handlePostForkChildHello_coherent
    {otherId : RawFd}
    {forked : Maps}
    (coherent : Coherent worker)
    (isClient : worker.clients.lookup clientId = some maps)
    (isPending : worker.forkingClients.lookup otherId = some forked) :
    CoherentWith (worker.handlePostForkChildHello clientId otherId).2
      (carriedBy (worker.handlePostForkChildHello clientId otherId).1) := by
  unfold Worker.handlePostForkChildHello
  rw [isClient, isPending]
  dsimp only
  have client := Table.gather_of_lookup Maps.references isClient
  have forking := Table.gather_of_lookup Maps.references isPending
  have heldAfter :
      worker.held.Perm
        (maps.references ++
          (Table.gather (worker.clients.insert clientId forked)
              Maps.references ++
            Table.gather (worker.forkingClients.erase otherId)
              Maps.references)) := by
    rw [List.perm_iff_count]
    intro reference
    have clientCount := client.count_eq reference
    have forkingCount := forking.count_eq reference
    unfold Worker.held
    rw [Table.gather_insert]
    simp only [List.count_append] at clientCount forkingCount ⊢
    omega
  refine
    coherent.change (coherent.counts.perm heldAfter).dropAll rfl (by simp)
      (by simp)
      (lookup_insert_all coherent.clientsKeyed
        (coherent.forkingKeyed _ _ isPending))
      (lookup_erase_all coherent.forkingKeyed)
      ?_
  intro reference isAfter
  exact heldAfter.mem_iff.mpr (List.mem_append_right _ isAfter)

/-- The operating system numbers a new map like no map that is there. -/
theorem handleNewMap_coherent
    {created : Option MapId}
    (coherent : Coherent worker)
    (isNew :
      ∀ mapId,
        created = some mapId →
          ∀ reference,
            worker.heap.Exists reference →
              worker.heap.value reference ≠ some mapId) :
    CoherentWith (worker.handleNewMap created).2
      (carriedBy (worker.handleNewMap created).1) := by
  unfold Worker.handleNewMap
  cases created with
  | none =>
      exact coherent
  | some mapId =>
      have sameValue :
          ∀ reference ∈ worker.held,
            Function.update worker.heap.value worker.heap.next (some mapId)
                reference =
              worker.heap.value reference := by
        intro reference isHeld
        have isOld := coherent.counts.old reference isHeld
        exact Function.update_of_ne (Nat.ne_of_lt isOld) _ _
      have keyedAfter :
          ∀ tables : Table RawFd Maps,
            (∀ clientId maps,
              tables.lookup clientId = some maps → Keyed worker.heap maps) →
            (∀ reference ∈ tables.gather Maps.references,
              reference ∈ worker.held) →
            ∀ clientId maps,
              tables.lookup clientId = some maps →
                Keyed (worker.heap.alloc mapId).2 maps := by
        intro tables keyed areHeld clientId maps isEntry other registered isIn
          reference isMap
        have isHeld : reference ∈ worker.held :=
          areHeld reference
            (Table.mem_gather_of_lookup isEntry
              (Table.mem_gather_of_lookup isIn isMap))
        exact
          (sameValue reference isHeld).trans
            (keyed clientId maps isEntry other registered isIn reference isMap)
      exact
        { counts := coherent.counts.alloc mapId
          named := by
            intro reference isIn
            rcases List.mem_cons.mp isIn with rfl | isHeld
            · exact
                ⟨mapId, Function.update_self .., AList.lookup_insert _⟩
            · obtain ⟨named, isValue, isNamed⟩ :=
                coherent.named reference isHeld
              have differs : named ≠ mapId := by
                rintro rfl
                exact
                  isNew named rfl reference
                    (coherent.counts.exists_iff.mpr isHeld) isValue
              exact
                ⟨named, (sameValue reference isHeld).trans isValue,
                  (AList.lookup_insert_ne differs).trans isNamed⟩
          weak := by
            intro other reference isNamed
            by_cases same : other = mapId
            · subst same
              rw [AList.lookup_insert] at isNamed
              cases isNamed
              exact ⟨Nat.lt_succ_self _, Function.update_self ..⟩
            · rw [AList.lookup_insert_ne same] at isNamed
              obtain ⟨isOld, isValue⟩ := coherent.weak other reference isNamed
              exact
                ⟨Nat.lt_succ_of_lt isOld,
                  (Function.update_of_ne (Nat.ne_of_lt isOld) _ _).trans
                    isValue⟩
          clientsKeyed :=
            keyedAfter _ coherent.clientsKeyed fun _ isIn =>
              List.mem_append_left _ isIn
          forkingKeyed :=
            keyedAfter _ coherent.forkingKeyed fun _ isIn =>
              List.mem_append_right _ isIn }

theorem CoherentWith.cloned
    (coherent : Coherent worker)
    (isHeld : reference ∈ worker.held) :
    CoherentWith { worker with heap := worker.heap.clone reference }
      [reference] := by
  refine
    coherent.change (coherent.counts.clone isHeld) rfl rfl rfl
      coherent.clientsKeyed coherent.forkingKeyed ?_
  intro other isIn
  rcases List.mem_cons.mp isIn with rfl | isOld
  · exact isHeld
  · exact isOld

theorem mem_held_of_head
    (isClient : worker.clients.lookup clientId = some maps)
    (isFirst : (maps.lookup mapId).bind List.head? = some reference) :
    ∃ registered,
      maps.lookup mapId = some registered ∧ reference ∈ registered ∧
        reference ∈ worker.held := by
  cases isEntry : maps.lookup mapId with
  | none =>
      rw [isEntry] at isFirst
      cases isFirst
  | some registered =>
      rw [isEntry] at isFirst
      have isIn : reference ∈ registered := List.mem_of_head? isFirst
      exact
        ⟨registered, rfl, isIn,
          List.mem_append_left _
            (Table.mem_gather_of_lookup isClient
              (Table.mem_gather_of_lookup isEntry isIn))⟩

theorem CoherentWith.named_unique
    (coherent : Coherent worker)
    (isHeld : reference ∈ worker.held)
    (isValue : worker.heap.value reference = some mapId) :
    worker.allShmems.lookup mapId = some reference := by
  obtain ⟨named, isNamed, isEntry⟩ := coherent.named reference isHeld
  obtain rfl := Option.some.inj (isNamed.symm.trans isValue)
  exact isEntry

/-- The ways in which a request for an existing map ends. -/
inductive ExistingMapOutcome
    (worker : Worker)
    (id : Bytes) : Outcome Response → Prop where
  | empty
      (isEmpty : id = []) :
      ExistingMapOutcome worker id (.error (.error .emptyShMemId), worker)
  | notNumber
      (notEmpty : id ≠ [])
      (isText : parseI32 id = none) :
      ExistingMapOutcome worker id (.error .panicked, worker)
  | notAllocated
      {mapId : MapId}
      (isNumber : parseI32 id = some mapId)
      (unnamed : worker.allShmems.lookup mapId = none) :
      ExistingMapOutcome worker id
        (.error (.error (.notAllocated mapId)), worker)
  | gone
      {mapId : MapId}
      {reference : Reference}
      (isNumber : parseI32 id = some mapId)
      (isNamed : worker.allShmems.lookup mapId = some reference)
      (notHeld : reference ∉ worker.held) :
      ExistingMapOutcome worker id (.error .panicked, worker)
  | found
      {mapId : MapId}
      {reference : Reference}
      (isNumber : parseI32 id = some mapId)
      (isNamed : worker.allShmems.lookup mapId = some reference)
      (isHeld : reference ∈ worker.held) :
      ExistingMapOutcome worker id
        (.ok (.mapping reference),
          { worker with heap := worker.heap.clone reference })

theorem handleExistingMap_outcome
    (coherent : Coherent worker)
    (isClient : worker.clients.lookup clientId = some maps)
    (id : Bytes) :
    ExistingMapOutcome worker id (worker.handleExistingMap clientId id) := by
  unfold Worker.handleExistingMap
  rw [isClient]
  dsimp only
  by_cases isEmpty : id = []
  · rw [if_pos isEmpty]
    exact .empty isEmpty
  · rw [if_neg isEmpty]
    cases isNumber : parseI32 id with
    | none =>
        exact .notNumber isEmpty isNumber
    | some mapId =>
        dsimp only
        cases isNamed : worker.allShmems.lookup mapId with
        | none =>
            exact .notAllocated isNumber isNamed
        | some reference =>
            rw [if_neg (by simp)]
            cases isFirst : (maps.lookup mapId).bind List.head? with
            | some first =>
                obtain ⟨registered, isEntry, isIn, isHeld⟩ :=
                  mem_held_of_head isClient isFirst
                have isValue :=
                  coherent.clientsKeyed clientId maps isClient mapId registered
                    isEntry first isIn
                exact
                  .found isNumber (coherent.named_unique isHeld isValue) isHeld
            | none =>
                unfold Worker.upgradeShmemWithId
                rw [isNamed]
                dsimp only
                by_cases isThere : worker.heap.Exists reference
                · rw [if_pos isThere]
                  exact
                    .found isNumber isNamed (coherent.counts.exists_iff.mp isThere)
                · rw [if_neg isThere]
                  exact
                    .gone isNumber isNamed fun isHeld =>
                      isThere (coherent.counts.exists_iff.mpr isHeld)

theorem handleExistingMap_coherent
    {id : Bytes}
    {outcome : Outcome Response}
    (coherent : Coherent worker)
    (ends : ExistingMapOutcome worker id outcome) :
    CoherentWith outcome.2 (carriedBy outcome.1) := by
  cases ends with
  | empty _ => exact coherent
  | notNumber _ _ => exact coherent
  | notAllocated _ _ => exact coherent
  | gone _ _ _ => exact coherent
  | found _ _ isHeld => exact coherent.cloned isHeld

theorem CoherentWith.replace
    {maps' : Maps}
    {heap : CountedHeap MapId}
    {still : List Reference}
    (coherent : CoherentWith worker pending)
    (isClient : worker.clients.lookup clientId = some maps)
    (keyed : Keyed worker.heap maps')
    (sameValues : heap.value = worker.heap.value)
    (sameNext : heap.next = worker.heap.next)
    (counts :
      Counts heap (still ++ (maps'.references ++ worker.elsewhere clientId)))
    (notNew :
      ∀ reference ∈ still ++ maps'.references,
        reference ∈ pending ++ maps.references) :
    CoherentWith
      { worker with
        clients := worker.clients.insert clientId maps'
        heap }
      still := by
  have heldBefore := held_of_client isClient
  have heldAfter := held_insert_client worker clientId maps' heap
  refine
    coherent.change ?_ rfl sameValues sameNext
      (lookup_insert_all coherent.clientsKeyed keyed) coherent.forkingKeyed ?_
  · rw [heldAfter]
    exact counts
  · intro reference isIn
    rw [heldAfter, ← List.append_assoc] at isIn
    rcases List.mem_append.mp isIn with isOwn | isElsewhere
    · rcases List.mem_append.mp (notNew reference isOwn) with isPending | wasOwn
      · exact List.mem_append_left _ isPending
      · exact
          List.mem_append_right _
            (heldBefore.mem_iff.mpr (List.mem_append_left _ wasOwn))
    · exact
        List.mem_append_right _
          (heldBefore.mem_iff.mpr (List.mem_append_right _ isElsewhere))

theorem handleDeregister_of_last
    (isClient : worker.clients.lookup clientId = some maps)
    (isLast :
      ((maps.lookup mapId).getD []).getLast? = some reference) :
    worker.handleDeregister clientId mapId =
      (.ok (.refCount (worker.heap.strong reference % 2 ^ 32)),
        { worker with
          clients :=
            worker.clients.insert clientId
              (maps.insert mapId ((maps.lookup mapId).getD []).dropLast)
          heap := worker.heap.drop reference }) := by
  unfold Worker.handleDeregister
  rw [isClient]
  dsimp only
  rw [isLast]

theorem getD_eq_of_last
    (isLast :
      ((maps.lookup mapId).getD []).getLast? = some reference) :
    (maps.lookup mapId).getD [] =
      ((maps.lookup mapId).getD []).dropLast ++ [reference] :=
  (List.dropLast_append_getLast? reference isLast).symm

theorem references_of_last
    (isLast :
      ((maps.lookup mapId).getD []).getLast? = some reference) :
    maps.references.Perm
      (reference ::
        Maps.references
          (maps.insert mapId ((maps.lookup mapId).getD []).dropLast)) := by
  have before := references_perm maps mapId
  rw [getD_eq_of_last isLast] at before
  rw [references_insert]
  refine before.trans ?_
  rw [List.append_assoc]
  exact List.perm_middle

theorem handleDeregister_coherent
    (coherent : Coherent worker)
    (isClient : worker.clients.lookup clientId = some maps) :
    CoherentWith (worker.handleDeregister clientId mapId).2
      (carriedBy (worker.handleDeregister clientId mapId).1) := by
  have keyed := coherent.clientsKeyed clientId maps isClient
  have counts := coherent.counts.perm (held_of_client isClient)
  cases isLast : ((maps.lookup mapId).getD []).getLast? with
  | none =>
      have isEmpty := List.getLast?_eq_none_iff.mp isLast
      have same := references_perm maps mapId
      rw [isEmpty] at same
      unfold Worker.handleDeregister
      rw [isClient]
      dsimp only
      rw [isLast]
      refine
        coherent.replace isClient (keyed.insert nofun) rfl rfl ?_ ?_
      · rw [references_insert]
        exact counts.perm (same.append_right _)
      · intro reference isIn
        rw [references_insert] at isIn
        exact same.mem_iff.mpr isIn
  | some reference =>
      have split := references_of_last isLast
      rw [handleDeregister_of_last isClient isLast]
      refine
        coherent.replace isClient (keyed.insert ?_) rfl rfl ?_ ?_
      · intro other isIn
        exact keyed.getD other (List.dropLast_subset _ isIn)
      · exact (counts.perm (split.append_right _)).drop
      · intro other isIn
        exact split.mem_iff.mpr (List.mem_cons_of_mem _ isIn)

theorem respond_coherent
    {sent : Bool}
    {response : Response}
    (coherent : CoherentWith worker response.carried)
    (isClient : worker.clients.lookup clientId = some maps) :
    Coherent (worker.respond clientId sent response).2 ∧
      (worker.respond clientId sent response).1 ≠ .error .panicked := by
  unfold Worker.respond
  cases response with
  | mapping reference =>
      obtain ⟨mapId, isValue, isNamed⟩ :=
        coherent.named reference List.mem_cons_self
      dsimp only
      rw [isClient, isValue]
      dsimp only
      cases sent with
      | true =>
          refine ⟨?_, nofun⟩
          have keyed := coherent.clientsKeyed clientId maps isClient
          have split := references_perm maps mapId
          have after :
              (reference :: maps.references).Perm
                (Maps.references
                  (maps.insert mapId
                    ((maps.lookup mapId).getD [] ++ [reference]))) := by
            rw [references_insert, List.append_assoc]
            exact (split.cons reference).trans List.perm_middle.symm
          refine coherent.replace isClient (keyed.insert ?_) rfl rfl ?_ ?_
          · intro other isIn
            rcases List.mem_append.mp isIn with isOld | isNew
            · exact keyed.getD other isOld
            · rw [List.mem_singleton.mp isNew]
              exact isValue
          · exact
              (coherent.counts.perm
                ((held_of_client isClient).cons reference)).perm
                (after.append_right _)
          · intro other isIn
            exact after.mem_iff.mpr isIn
      | false =>
          refine ⟨?_, nofun⟩
          exact
            coherent.change coherent.counts.drop rfl rfl rfl
              coherent.clientsKeyed coherent.forkingKeyed
              fun other isIn => List.mem_cons_of_mem _ isIn
  | id id =>
      dsimp only
      rw [isClient]
      cases sent with
      | true => exact ⟨coherent, nofun⟩
      | false => exact ⟨coherent, nofun⟩
  | refCount count =>
      dsimp only
      rw [isClient]
      cases sent with
      | true => exact ⟨coherent, nofun⟩
      | false => exact ⟨coherent, nofun⟩

theorem accept_coherent
    (coherent : Coherent worker)
    (isNew : worker.clients.lookup clientId = none) :
    Coherent (worker.accept clientId) := by
  have held : (worker.accept clientId).held = worker.held := by
    unfold Worker.accept Worker.held
    dsimp only
    rw [Table.gather_insert, Table.gather_erase_of_lookup_none _ isNew]
    rfl
  refine
    coherent.change ?_ rfl rfl rfl
      (lookup_insert_all coherent.clientsKeyed nofun) coherent.forkingKeyed ?_
  · rw [held]
    exact coherent.counts
  · rw [held]
    exact fun _ isIn => isIn

theorem hangUp_coherent
    (coherent : Coherent worker)
    (isClient : worker.clients.lookup clientId = some maps) :
    Coherent (worker.hangUp clientId) := by
  have held := held_of_client isClient
  unfold Worker.hangUp
  rw [isClient]
  refine
    coherent.change ?_ rfl (by simp) (by simp)
      (lookup_erase_all coherent.clientsKeyed) coherent.forkingKeyed ?_
  · exact (coherent.counts.perm held).dropAll
  · intro reference isIn
    exact held.mem_iff.mpr (List.mem_append_right _ isIn)

end MeFuzz.ShMemServer
