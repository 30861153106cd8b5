import MeFuzz.ByteStream
import MeFuzz.ReferenceCounts

namespace MeFuzz.ShMemServer

/-!
# The shared memory service

Clients ask one worker for maps.  The worker keeps a map alive through the references
in the tables of its clients and of the clients that are about to fork.  A table of
all maps refers to them weakly, and nothing is ever taken out of it.
-/

/-- A file descriptor; it stands for a client. -/
abbrev RawFd := Int

/-- The number of a map. -/
abbrev MapId := Int

/-- The references that a client has registered, by map. -/
abbrev Maps := Table MapId (List Reference)

/-- Everything that is registered. -/
def Maps.references (maps : Maps) : List Reference :=
  Table.gather maps id

/-- `ServedShMemRequest`. -/
inductive Request where
  | newMap (mapSize : Nat)
  | existingMap (id : Bytes) (size : Nat)
  | deregister (mapId : MapId)
  | hello
  | preFork
  | postForkChildHello (otherId : RawFd)
  | exit
  deriving Repr, DecidableEq

/-- `ServedShMemResponse`. -/
inductive Response where
  | mapping (reference : Reference)
  | id (id : RawFd)
  | refCount (count : Nat)
  deriving Repr, DecidableEq

/-- The errors of the service. -/
inductive Error where
  /-- Received empty ShMemId from unix shmem client. -/
  | emptyShMemId
  /-- Client wanted to read from existing map, but it was not allocated by this server. -/
  | notAllocated (id : MapId)
  | newShMem
  | shuttingDown
  | send
  deriving Repr, DecidableEq

/-- An error that is returned, or a failed `unwrap`. -/
inductive Fault where
  | error (error : Error)
  | panicked
  deriving Repr, DecidableEq

/-- `ServedShMemServiceWorker`, with the maps that the clients refer to. -/
structure Worker where
  clients : Table RawFd Maps
  forkingClients : Table RawFd Maps
  allShmems : Table MapId Reference
  heap : CountedHeap MapId

/-- `ServedShMemServiceWorker::new`. -/
def Worker.new : Worker where
  clients := ∅
  forkingClients := ∅
  allShmems := ∅
  heap := CountedHeap.empty

/-- A number in decimal digits. -/
def parseDigits (text : Bytes) : Option Nat :=
  if text = [] then none
  else
    text.foldlM
      (fun value byte =>
        if 48 ≤ byte.toNat ∧ byte.toNat ≤ 57 then
          some (10 * value + (byte.toNat - 48))
        else none)
      0

/-- `parse::<i32>`: 43 is the plus sign and 45 the minus sign. -/
def parseI32 (text : Bytes) : Option Int :=
  match text with
  | [] => none
  | sign :: digits =>
      if sign = 45 then
        (parseDigits digits).bind fun value =>
          if value ≤ 2 ^ 31 then some (-value) else none
      else
        (parseDigits (if sign = 43 then digits else text)).bind fun value =>
          if value < 2 ^ 31 then some value else none

/-- What a handler answers, and the worker it leaves. -/
abbrev Outcome (Value : Type) := Except Fault Value × Worker

namespace Worker

/-- `upgrade_shmem_with_id`. -/
def upgradeShmemWithId (worker : Worker) (descriptionId : MapId) : Outcome Response :=
  match worker.allShmems.lookup descriptionId with
  | none => (.error .panicked, worker)
  | some reference =>
      if worker.heap.Exists reference then
        (.ok (.mapping reference),
          { worker with heap := worker.heap.clone reference })
      else (.error .panicked, worker)

/-- `PreFork`: what is registered is registered once more. -/
def handlePreFork (worker : Worker) (clientId : RawFd) : Outcome Response :=
  match worker.clients.lookup clientId with
  | none => (.error .panicked, worker)
  | some maps =>
      let heap := worker.heap.cloneAll maps.references
      let replaced := worker.forkingClients.lookup clientId
      (.ok (.id clientId),
        { worker with
          forkingClients := worker.forkingClients.insert clientId maps
          heap := heap.dropAll (replaced.elim [] Maps.references) })

/-- `PostForkChildHello`: the child gets what was registered for it. -/
def handlePostForkChildHello
    (worker : Worker)
    (clientId otherId : RawFd) : Outcome Response :=
  match worker.clients.lookup clientId, worker.forkingClients.lookup otherId with
  | some replaced, some maps =>
      (.ok (.id clientId),
        { worker with
          clients := worker.clients.insert clientId maps
          forkingClients := worker.forkingClients.erase otherId
          heap := worker.heap.dropAll replaced.references })
  | _, _ => (.error .panicked, worker)

/-- `NewMap`, where the provider creates a map with this number, or none. -/
def handleNewMap (worker : Worker) (created : Option MapId) : Outcome Response :=
  match created with
  | none => (.error (.error .newShMem), worker)
  | some mapId =>
      let (reference, heap) := worker.heap.alloc mapId
      (.ok (.mapping reference),
        { worker with
          allShmems := worker.allShmems.insert mapId reference
          heap })

/-- `ExistingMap`. -/
def handleExistingMap
    (worker : Worker)
    (clientId : RawFd)
    (id : Bytes) : Outcome Response :=
  match worker.clients.lookup clientId with
  | none => (.error .panicked, worker)
  | some maps =>
      if id = [] then (.error (.error .emptyShMemId), worker)
      else
        match parseI32 id with
        | none => (.error .panicked, worker)
        | some descriptionId =>
            if (worker.allShmems.lookup descriptionId).isNone then
              (.error (.error (.notAllocated descriptionId)), worker)
            else
              match (maps.lookup descriptionId).bind List.head? with
              | some reference =>
                  (.ok (.mapping reference),
                    { worker with heap := worker.heap.clone reference })
              | none => worker.upgradeShmemWithId descriptionId

/-- `Deregister`. -/
def handleDeregister
    (worker : Worker)
    (clientId : RawFd)
    (mapId : MapId) : Outcome Response :=
  match worker.clients.lookup clientId with
  | none => (.error .panicked, worker)
  | some maps =>
      let registered := (maps.lookup mapId).getD []
      match registered.getLast? with
      | none =>
          (.ok (.refCount 0),
            { worker with
              clients := worker.clients.insert clientId (maps.insert mapId []) })
      | some reference =>
          (.ok (.refCount (worker.heap.strong reference % 2 ^ 32)),
            { worker with
              clients :=
                worker.clients.insert clientId
                  (maps.insert mapId registered.dropLast)
              heap := worker.heap.drop reference })

/-- `handle_request`. -/
def handleRequest
    (worker : Worker)
    (clientId : RawFd)
    (created : Option MapId) : Request → Outcome Response
  | .hello => (.ok (.id clientId), worker)
  | .preFork => worker.handlePreFork clientId
  | .postForkChildHello otherId =>
      worker.handlePostForkChildHello clientId otherId
  | .newMap _ => worker.handleNewMap created
  | .existingMap id _ => worker.handleExistingMap clientId id
  | .deregister mapId => worker.handleDeregister clientId mapId
  | .exit => (.error (.error .shuttingDown), worker)

/-- The map of a response is registered for the client. -/
def register
    (worker : Worker)
    (clientId : RawFd)
    (maps : Maps)
    (serverFd : MapId)
    (reference : Reference) : Worker :=
  { worker with
    clients :=
      worker.clients.insert clientId
        (maps.insert serverFd
          ((maps.lookup serverFd).getD [] ++ [reference])) }

/-- `handle_client`, where the response can be sent or not. -/
def respond
    (worker : Worker)
    (clientId : RawFd)
    (sent : Bool) : Response → Outcome Unit
  | .mapping reference =>
      match worker.heap.value reference, worker.clients.lookup clientId with
      | some serverFd, some maps =>
          if sent then
            (.ok (), worker.register clientId maps serverFd reference)
          else
            (.error (.error .send),
              { worker with heap := worker.heap.drop reference })
      | _, _ => (.error .panicked, worker)
  | _ =>
      match worker.clients.lookup clientId with
      | some _ =>
          if sent then (.ok (), worker) else (.error (.error .send), worker)
      | none => (.error .panicked, worker)

/-- `handle_client`. -/
def handleClient
    (worker : Worker)
    (clientId : RawFd)
    (request : Request)
    (created : Option MapId)
    (sent : Bool) : Outcome Unit :=
  match worker.handleRequest clientId created request with
  | (.error fault, worker) => (.error fault, worker)
  | (.ok response, worker) => worker.respond clientId sent response

/-- A client that has connected. -/
def accept (worker : Worker) (clientId : RawFd) : Worker :=
  { worker with clients := worker.clients.insert clientId ∅ }

/-- A client that has hung up. -/
def hangUp (worker : Worker) (clientId : RawFd) : Worker :=
  { worker with
    clients := worker.clients.erase clientId
    heap :=
      worker.heap.dropAll
        ((worker.clients.lookup clientId).elim [] Maps.references) }

end Worker

/-- What one client asks, and what the operating system does for the worker. -/
structure Query where
  clientId : RawFd
  request : Request
  created : Option MapId
  sent : Bool

/-- What happens at the sockets. -/
inductive Event where
  | connect (query : Query)
  | ask (query : Query)
  | hangUp (clientId : RawFd)

/-- The worker when it handles the query. -/
def Worker.handle (worker : Worker) (query : Query) : Outcome Unit :=
  worker.handleClient query.clientId query.request query.created query.sent

/-- A round of the listen loop; an error of a client is ignored. -/
def serve (worker : Worker) : Event → Outcome Unit
  | .connect query => (worker.accept query.clientId).handle query
  | .ask query => worker.handle query
  | .hangUp clientId => (.ok (), worker.hangUp clientId)

end MeFuzz.ShMemServer
