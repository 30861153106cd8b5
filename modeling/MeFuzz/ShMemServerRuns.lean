import MeFuzz.ShMemServerTables
import MeFuzz.TransitionRun

namespace MeFuzz.ShMemServer

/-!
# How long the service keeps maps

The service answers every request as it should, except that the table of all maps also
has the numbers of maps that are gone: a request for one of these stops the worker.
-/

variable {worker next : Worker}
variable {clientId : RawFd}
variable {maps : Maps}
variable {mapId : MapId}
variable {reference : Reference}

/-- What clients and the operating system may do when a request is handled. -/
def QueryAllowed (worker : Worker) (query : Query) : Prop :=
  match query.request with
  | .newMap _ =>
      ∀ mapId,
        query.created = some mapId →
          ∀ reference,
            worker.heap.Exists reference →
              worker.heap.value reference ≠ some mapId
  | .deregister mapId =>
      ∃ maps registered,
        worker.clients.lookup query.clientId = some maps ∧
          maps.lookup mapId = some registered ∧ registered ≠ []
  | .postForkChildHello otherId =>
      ∃ maps, worker.forkingClients.lookup otherId = some maps
  | .exit => False
  | _ => True

/-- What may happen at the sockets. -/
def Allowed (worker : Worker) : Event → Prop
  | .connect query =>
      worker.clients.lookup query.clientId = none ∧
        QueryAllowed (worker.accept query.clientId) query
  | .ask query =>
      (∃ maps, worker.clients.lookup query.clientId = some maps) ∧
        QueryAllowed worker query
  | .hangUp clientId => ∃ maps, worker.clients.lookup clientId = some maps

/-- A round of the worker that does not panic. -/
def Step : StepRelation Worker Event :=
  fun worker event next =>
    Allowed worker event ∧
      ∃ result, serve worker event = (result, next) ∧ result ≠ .error .panicked

/-- A map is there exactly as long as a client or a pending fork holds it. -/
def Exact (worker : Worker) : Prop :=
  ∀ reference, worker.heap.Exists reference ↔ reference ∈ worker.held

/--
An existing map is asked for by a number, which is not the number of a map that was
there and is gone; and a map that is given back is held less than `2 ^ 32` times.
-/
def QuerySafe (worker : Worker) (query : Query) : Prop :=
  match query.request with
  | .existingMap id _ =>
      id ≠ [] →
        ∃ mapId,
          parseI32 id = some mapId ∧
            ∀ reference,
              worker.allShmems.lookup mapId = some reference →
                worker.heap.Exists reference
  | .deregister mapId =>
      ∀ maps reference,
        worker.clients.lookup query.clientId = some maps →
          ((maps.lookup mapId).getD []).getLast? = some reference →
            worker.heap.strong reference < 2 ^ 32
  | _ => True

/-- No event asks for a map that is gone. -/
def Safe (worker : Worker) : Event → Prop
  | .connect query => QuerySafe (worker.accept query.clientId) query
  | .ask query => QuerySafe worker query
  | .hangUp _ => True

variable {query : Query}

theorem Coherent.exact
    (coherent : Coherent worker) :
    Exact worker :=
  fun _ => coherent.counts.exists_iff

theorem handleRequest_coherent
    (coherent : Coherent worker)
    (isClient : worker.clients.lookup query.clientId = some maps)
    (allowed : QueryAllowed worker query) :
    let outcome :=
      worker.handleRequest query.clientId query.created query.request
    CoherentWith outcome.2 (carriedBy outcome.1) ∧
      ∃ maps, outcome.2.clients.lookup query.clientId = some maps := by
  unfold QueryAllowed at allowed
  unfold Worker.handleRequest
  cases isRequest : query.request with
  | hello =>
      exact ⟨coherent, maps, isClient⟩
  | preFork =>
      refine ⟨handlePreFork_coherent coherent isClient, ?_⟩
      dsimp only
      unfold Worker.handlePreFork
      rw [isClient]
      exact ⟨maps, isClient⟩
  | postForkChildHello otherId =>
      rw [isRequest] at allowed
      obtain ⟨forked, isPending⟩ := allowed
      refine
        ⟨handlePostForkChildHello_coherent coherent isClient isPending, ?_⟩
      dsimp only
      unfold Worker.handlePostForkChildHello
      rw [isClient, isPending]
      exact ⟨forked, AList.lookup_insert _⟩
  | newMap mapSize =>
      rw [isRequest] at allowed
      refine ⟨handleNewMap_coherent coherent allowed, maps, ?_⟩
      dsimp only
      unfold Worker.handleNewMap
      cases query.created with
      | none => exact isClient
      | some mapId => exact isClient
  | existingMap id size =>
      have ends := handleExistingMap_outcome coherent isClient id
      refine ⟨handleExistingMap_coherent coherent ends, maps, ?_⟩
      dsimp only
      generalize worker.handleExistingMap query.clientId id = outcome at ends ⊢
      cases ends with
      | empty _ => exact isClient
      | notNumber _ _ => exact isClient
      | notAllocated _ _ => exact isClient
      | gone _ _ _ => exact isClient
      | found _ _ _ => exact isClient
  | deregister mapId =>
      refine ⟨handleDeregister_coherent coherent isClient, ?_⟩
      dsimp only
      unfold Worker.handleDeregister
      rw [isClient]
      dsimp only
      split
      · exact ⟨_, AList.lookup_insert _⟩
      · exact ⟨_, AList.lookup_insert _⟩
  | exit =>
      exact ⟨coherent, maps, isClient⟩

theorem handle_coherent
    (coherent : Coherent worker)
    (isClient : worker.clients.lookup query.clientId = some maps)
    (allowed : QueryAllowed worker query) :
    Coherent (worker.handle query).2 ∧
      ((worker.handle query).1 = .error .panicked ↔
        (worker.handleRequest query.clientId query.created query.request).1 =
          .error .panicked) := by
  obtain ⟨handled, after, stillClient⟩ :=
    handleRequest_coherent coherent isClient allowed
  unfold Worker.handle Worker.handleClient
  generalize
    worker.handleRequest query.clientId query.created query.request = outcome
    at handled stillClient ⊢
  obtain ⟨result, next⟩ := outcome
  cases result with
  | error fault =>
      refine ⟨handled, ?_⟩
      simp
  | ok response =>
      have responded :
          Coherent (next.respond query.clientId query.sent response).2 ∧ _ :=
        respond_coherent handled stillClient
      exact ⟨responded.1, iff_of_false responded.2 nofun⟩

namespace ExistingMapOutcome

variable {id : Bytes}
variable {outcome : Outcome Response}

end ExistingMapOutcome

variable {event : Event}

theorem CoherentWith.step
    (coherent : Coherent worker)
    (taken : Step worker event next) :
    Coherent next := by
  obtain ⟨allowed, result, serves, -⟩ := taken
  obtain rfl : (serve worker event).2 = next := congrArg Prod.snd serves
  cases event with
  | connect query =>
      have accepted := accept_coherent coherent allowed.1
      exact
        (handle_coherent accepted (AList.lookup_insert _) allowed.2).1
  | ask query =>
      obtain ⟨⟨maps, isClient⟩, queryAllowed⟩ := allowed
      exact (handle_coherent coherent isClient queryAllowed).1
  | hangUp clientId =>
      obtain ⟨maps, isClient⟩ := allowed
      exact hangUp_coherent coherent isClient

end MeFuzz.ShMemServer
