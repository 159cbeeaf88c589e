import Wayring.Foundation.Ledger
import Wayring.Protocol
import Wayring.Server.Barriers
import Wayring.Server.Globals
import Wayring.Server.Lifecycle
import Wayring.Server.Offers

/-!
# Publication of globals

The server runtime keeps the globals, what every registry was told of them, and
the syncs that are not answered yet.  Operations of clients and of the
application change what is owed; publication pays it, one event at a time,
going round the clients.

The clients themselves are a parameter: how their objects are stored and how
their events are queued does not matter here, only what the runtime asks of
them.  Every operation also lists what it did, in order.
-/

namespace Wayring

/-- A client's request to bind a global to a new object. -/
structure BindRequest where
  name : Nat
  interface : String
  version : Nat
  id : Nat
  deriving DecidableEq, Repr

/-- What the function that activates a binding is told. -/
structure Binding where
  peer : Peer
  global : Handle
  resource : Handle
  version : Nat
  deriving DecidableEq, Repr

/-- An event that publication puts into a client's queue. -/
inductive Publication
  | global (registry : Handle) (name : Nat) (global : Global)
  | globalRemove (registry : Handle) (name : Nat)
  | done (callback : Handle) (callbackData : Nat)
  deriving DecidableEq, Repr

/-- What the runtime asks of the clients it serves.  An operation that the source
declares unable to fail where the runtime calls it answers nothing if it does.
The laws say when it does not: an object that was just made can be taken out,
also after the function that activates a binding of it, and there is no failure
behind the checks that come first. -/
structure Hosts (Clients : Type) where
  /-- The client is there (`clients.get`). -/
  get : Clients → Peer → Except Error Unit
  /-- Its actor is there and dispatches. -/
  canDispatch : Clients → Peer → Bool
  /-- Its actor has come to rest. -/
  canDeinit : Clients → Peer → Except Error Bool
  /-- The filter shows the global to the client. -/
  visible : Clients → Peer → Handle → Global → Except Error Bool
  resolve : Clients → Peer → Handle → Option Object × Clients
  insertClient : Clients → Peer → Nat → Interface → Nat → Option Nat →
    Except Error Handle × Clients
  /-- Take an object out that nobody has heard of. -/
  cancelClient : Clients → Peer → Handle → Option Clients
  /-- Run the function that activates a binding of the global. -/
  activate : Clients → Global → Binding → Except Error (Option Nat) × Clients
  setContext : Clients → Peer → Handle → Option Nat → Option Clients
  /-- Encode one event into the client's transmit queue. -/
  send : Clients → Peer → Publication → Except Error Unit × Clients
  /-- Make room for the `delete_id` of an object. -/
  ensureDelete : Clients → Peer → Handle → Except Error Unit × Clients
  deleteClient : Clients → Peer → Handle → Option Clients
  destroy : Clients → Peer → Option Clients
  generation_ne_zero : ∀ {clients peer}, get clients peer = .ok () →
    peer.generation ≠ 0
  insertClient_range : ∀ {clients peer id interface version context handle
    later}, insertClient clients peer id interface version context =
      (.ok handle, later) → 2 ≤ handle.id ∧ handle.id < serverIdStart
  get_resolve : ∀ {clients peer handle other},
    get (resolve clients peer handle).2 other = get clients other
  canDispatch_resolve : ∀ {clients peer handle other},
    canDispatch (resolve clients peer handle).2 other =
      canDispatch clients other
  resolve_resolve : ∀ {clients peer handle other name},
    (resolve (resolve clients peer handle).2 other name).1 =
      (resolve clients other name).1
  insertClient_cancels : ∀ {clients peer id interface version context handle
    later}, insertClient clients peer id interface version context =
      (.ok handle, later) → (cancelClient later peer handle).isSome
  activate_cancels : ∀ {clients global} {binding : Binding},
    (cancelClient clients binding.peer binding.resource).isSome →
      (cancelClient (activate clients global binding).2 binding.peer
        binding.resource).isSome
  cancels_setContext : ∀ {clients peer handle context},
    (cancelClient clients peer handle).isSome →
      (setContext clients peer handle context).isSome
  ensureDelete_deletes : ∀ {clients later peer handle object},
    get clients peer = .ok () →
      (resolve clients peer handle).1 = some object →
      object.interface = wlRegistry →
      2 ≤ handle.id ∧ handle.id < serverIdStart →
      ensureDelete (resolve clients peer handle).2 peer handle =
        (.ok (), later) → (deleteClient later peer handle).isSome
  destroy_isSome : ∀ {clients peer}, canDeinit clients peer = .ok true →
    get clients peer = .ok () → (destroy clients peer).isSome

/-- A global that was removed while registries still hold offers of it. -/
structure RemovedGlobal where
  handle : Handle
  global : Global
  withdrawn : Option Nat := none
  deriving DecidableEq, Repr

/-- The publishing part of the server runtime. -/
structure Publisher (Clients : Type) where
  clients : Clients
  globals : Globals
  registries : RegistrySubscriptions := {}
  syncBarriers : SyncBarriers := {}
  removedGlobals : List RemovedGlobal := []
  /-- Next peer slot publication visits. -/
  publishCursor : Nat := 0
  /-- Per slot, the generation of a peer that reported backpressure in the
  current publication pass. -/
  publishBlocked : List Nat := []

/-- One thing that happened: clients are peers, feeds are their registries,
items are globals, and tickets are the callbacks of syncs. -/
abbrev Notice := Ledger.Entry Peer Handle Handle Handle

/-- What an operation returned, what it did, and what it left. -/
structure Reply (Clients α : Type) where
  result : Except GlobalError α
  notices : List Notice := []
  publisher : Publisher Clients

/-- The answers of the allocator. -/
structure PublisherGrants where
  blocked : Bool
  slot : Bool
  node : Bool
  offers : Bool
  deriving DecidableEq, Repr

/-- A core display request, after decoding. -/
inductive DisplayRequest
  | sync (callback : Nat)
  | getRegistry (registry : Nat)
  deriving DecidableEq, Repr

/-- The objects that display requests create. -/
inductive DisplayAction
  | sync (callback : Handle)
  | getRegistry (registry : Handle)
  deriving DecidableEq, Repr

/-- What one call of `publishNext` came to. -/
inductive PublishResult
  | sent (peer : Peer)
  | blocked (peer : Peer)
  | complete
  deriving DecidableEq, Repr

/-- What publication could do for one peer. -/
inductive Service
  | idle
  | sent
  | blocked
  deriving DecidableEq, Repr

/-- Take an item out and put the last one in its place. -/
def swapRemove {α : Type} (items : List α) (index : Nat) : List α :=
  match items.getLast? with
  | none => []
  | some last => (items.set index last).dropLast

namespace Reply

variable {Clients α : Type}

/-- A failure that did nothing else. -/
def failed
    (cause : GlobalError)
    (publisher : Publisher Clients) : Reply Clients α where
  result := .error cause
  publisher

/-- What an operation did, without what it returned. -/
def effect (reply : Reply Clients α) : List Notice × Publisher Clients :=
  (reply.notices, reply.publisher)

end Reply

namespace Publisher

variable {Clients : Type}

/-- A runtime that has just been created.  The allocator answers for the
globals, the subscriptions and the syncs. -/
def init
    (clients : Clients)
    (maxGlobals registryCapacity : Nat)
    (globalsGranted registriesGranted syncsGranted : Bool) :
    Except Error (Publisher Clients) := do
  let globals ← Globals.init maxGlobals globalsGranted
  let registries ←
    RegistrySubscriptions.init registryCapacity registriesGranted
  let syncBarriers ← SyncBarriers.init registryCapacity syncsGranted
  .ok { clients, globals, registries, syncBarriers }

/-- Whether an existing subscription sees a global.  A stale peer sees none. -/
def visibleTo
    (hosts : Hosts Clients)
    (publisher : Publisher Clients)
    (peer : Peer)
    (handle : Handle)
    (global : Global) : Bool :=
  match hosts.visible publisher.clients peer handle global with
  | .error _ => false
  | .ok visible => visible

/-- Make sure that a peer slot has an entry for backpressure. -/
def reservePublishSlot
    (publisher : Publisher Clients)
    (slot : Nat)
    (granted : Bool) : Except Error Unit × Publisher Clients :=
  if slot < publisher.publishBlocked.length then (.ok (), publisher)
  else if granted then
    (.ok (),
      { publisher with
        publishBlocked := publisher.publishBlocked ++
          List.replicate (slot + 1 - publisher.publishBlocked.length) 0 })
  else (.error .outOfMemory, publisher)

/-- Subscribe a new registry and owe it every visible live global.  Nothing
when an assertion of the source fails, here and below. -/
def subscribe
    (hosts : Hosts Clients)
    (publisher : Publisher Clients)
    (peer : Peer)
    (registry : Handle)
    (grants : PublisherGrants) : Option (Reply Clients Unit) :=
  match publisher.reservePublishSlot peer.slot grants.blocked with
  | (.error cause, publisher) => some (.failed (.base cause) publisher)
  | (.ok _, publisher) =>
      match publisher.registries.add peer registry grants.slot
          grants.node with
      | (.error cause, registries) =>
          some (.failed (.base cause) { publisher with registries })
      | (.ok index, registries) =>
          if !grants.offers then
            match registries.remove peer registry with
            | (.error _, _) => none
            | (.ok _, registries) =>
                some (.failed (.base .outOfMemory)
                  { publisher with registries })
          else
            let (epoch, registries) := registries.advanceEpoch
            let shown := publisher.globals.entries.filter fun entry =>
              publisher.visibleTo hosts peer entry.1 entry.2
            let offers := shown.map fun entry =>
              { global := entry.1, state := .addPending, epoch }
            some
              { result := .ok ()
                notices := [.subscribed peer registry (shown.map Prod.fst)]
                publisher := { publisher with
                  registries := registries.setOffers index offers } }

/-- Apply a decoded display request.  A registry that cannot be subscribed is
not created. -/
def displayRequest
    (hosts : Hosts Clients)
    (publisher : Publisher Clients)
    (peer : Peer)
    (request : DisplayRequest)
    (context : Option Nat)
    (grants : PublisherGrants) : Option (Reply Clients DisplayAction) :=
  match hosts.get publisher.clients peer with
  | .error cause => some (.failed (.base cause) publisher)
  | .ok _ =>
      match request with
      | .sync callback =>
          match hosts.insertClient publisher.clients peer callback
              Server.wlCallback 1 context with
          | (.error cause, clients) =>
              some (.failed (.base cause) { publisher with clients })
          | (.ok callback, clients) =>
              some
                { result := .ok (.sync callback)
                  publisher := { publisher with clients } }
      | .getRegistry registry =>
          match hosts.insertClient publisher.clients peer registry wlRegistry
              1 context with
          | (.error cause, clients) =>
              some (.failed (.base cause) { publisher with clients })
          | (.ok registry, clients) => do
              let reply ← subscribe hosts { publisher with clients } peer
                registry grants
              match reply.result with
              | .error cause =>
                  let clients ← hosts.cancelClient reply.publisher.clients peer
                    registry
                  some
                    { result := .error cause
                      notices := reply.notices
                      publisher := { reply.publisher with clients } }
              | .ok _ =>
                  some
                    { result := .ok (.getRegistry registry)
                      notices := reply.notices
                      publisher := reply.publisher }

/-- The peer that a slot of the subscriptions is stamped for. -/
def subscriber (publisher : Publisher Clients) (slot : Nat) : Peer where
  slot
  generation := publisher.registries.generation slot

/-- Owe an event to the registries of the slots whose peers see a global. -/
def offerAll
    (hosts : Hosts Clients)
    (handle : Handle)
    (global : Global)
    (offer : Offer) :
    List Nat → Publisher Clients → List Peer × Publisher Clients
  | [], publisher => ([], publisher)
  | slot :: rest, publisher =>
      let peer := publisher.subscriber slot
      if peer.generation = 0 then offerAll hosts handle global offer rest publisher
      else if !publisher.visibleTo hosts peer handle global then
        offerAll hosts handle global offer rest publisher
      else
        let (audience, publisher) := offerAll hosts handle global offer rest
          { publisher with
            registries := publisher.registries.offerTo slot offer }
        (peer :: audience, publisher)

/-- Add a global and owe it to every registry that can see it. -/
def addGlobalWithBinder
    (hosts : Hosts Clients)
    (publisher : Publisher Clients)
    (interface : Interface)
    (version : Nat)
    (context bind : Option Nat)
    (granted : Bool) : Reply Clients Handle :=
  if !granted then .failed (.base .outOfMemory) publisher
  else
    match publisher.globals.addWithBinder interface version context bind with
    | (.error cause, globals) => .failed cause { publisher with globals }
    | (.ok handle, globals) =>
        match globals.get handle.id with
        | .error cause => .failed cause { publisher with globals }
        | .ok global =>
            let (epoch, registries) := publisher.registries.advanceEpoch
            let (audience, publisher) := offerAll hosts handle global
              { global := handle, state := .addPending, epoch }
              (List.range registries.slots.length)
              { publisher with globals, registries }
            { result := .ok handle
              notices := [.published handle audience]
              publisher }

/-- The definition that a name stands for at a peer.  A removed global can
still be bound while any of the peer's registries has an offer of it. -/
def definition
    (hosts : Hosts Clients)
    (publisher : Publisher Clients)
    (peer : Peer)
    (name : Nat) : Except GlobalError (Handle × Global) :=
  match publisher.globals.lookupHandle name with
  | some handle =>
      match publisher.globals.resolve handle with
      | none => .error (.base .unreachable)
      | some global =>
          match hosts.visible publisher.clients peer handle global with
          | .error cause => .error (.base cause)
          | .ok false => .error .unknownGlobal
          | .ok true => .ok (handle, global)
  | none =>
      if publisher.registries.offeredToPeer peer name then
        match publisher.removedGlobals.find? fun removed =>
            removed.handle.id = name with
        | none => .error .unknownGlobal
        | some removed => .ok (removed.handle, removed.global)
      else .error .unknownGlobal

/-- Insert the object of a binding (`ProtocolCore.bindClient`). -/
def bindClient
    (hosts : Hosts Clients)
    (clients : Clients)
    (peer : Peer)
    (request : BindRequest)
    (interface : Interface)
    (advertisedVersion : Nat)
    (context : Option Nat) : Except GlobalError Handle × Clients :=
  if request.interface ≠ interface.name then
    (.error .interfaceMismatch, clients)
  else if request.version = 0 ∨ request.version > advertisedVersion ∨
      request.version > interface.version then
    (.error .unsupportedGlobalVersion, clients)
  else
    match hosts.insertClient clients peer request.id interface
        request.version context with
    | (.error cause, clients) => (.error (.base cause), clients)
    | (.ok resource, clients) => (.ok resource, clients)

/-- Bind a global, and let it activate the client's resource. -/
def bindGlobal
    (hosts : Hosts Clients)
    (publisher : Publisher Clients)
    (peer : Peer)
    (request : BindRequest) : Option (Reply Clients Handle) :=
  match publisher.definition hosts peer request.name with
  | .error cause => some (.failed cause publisher)
  | .ok (handle, global) =>
      match hosts.get publisher.clients peer with
      | .error cause => some (.failed (.base cause) publisher)
      | .ok _ =>
          match bindClient hosts publisher.clients peer request
              global.interface global.version
              (if global.bind = none then global.context else none) with
          | (.error cause, clients) =>
              some (.failed cause { publisher with clients })
          | (.ok resource, clients) =>
              if global.bind = none then
                some
                  { result := .ok resource
                    publisher := { publisher with clients } }
              else
                match hosts.activate clients global
                    { peer, global := handle, resource
                      version := request.version } with
                | (.error cause, clients) => do
                    let clients ← hosts.cancelClient clients peer resource
                    some (.failed (.base cause) { publisher with clients })
                | (.ok context, clients) => do
                    let clients ← hosts.setContext clients peer resource
                      context
                    some
                      { result := .ok resource
                        publisher := { publisher with clients } }

/-- Defer the answer to a sync behind every registry event that is owed. -/
def completeSync
    (hosts : Hosts Clients)
    (publisher : Publisher Clients)
    (peer : Peer)
    (callback : Handle)
    (callbackData : Nat)
    (grants : PublisherGrants) : Reply Clients Unit :=
  match hosts.get publisher.clients peer with
  | .error cause => .failed (.base cause) publisher
  | .ok _ =>
      match hosts.resolve publisher.clients peer callback with
      | (none, clients) =>
          .failed (.base .staleHandle) { publisher with clients }
      | (some object, clients) =>
          if object.interface ≠ Server.wlCallback then
            .failed (.base .wrongInterface) { publisher with clients }
          else
            match reservePublishSlot { publisher with clients } peer.slot
                grants.blocked with
            | (.error cause, publisher) => .failed (.base cause) publisher
            | (.ok _, publisher) =>
                match publisher.syncBarriers.add peer callback callbackData
                    publisher.registries.epoch grants.slot grants.node with
                | (.error cause, syncBarriers) =>
                    .failed (.base cause) { publisher with syncBarriers }
                | (.ok _, syncBarriers) =>
                    { result := .ok ()
                      notices := [.requested peer callback
                        publisher.registries.epoch]
                      publisher := { publisher with syncBarriers } }

/-- Drop the removed globals that no registry has an offer of any more. -/
def collect
    (registries : RegistrySubscriptions) :
    Nat → Nat → List RemovedGlobal → List Notice × List RemovedGlobal
  | 0, _, globals => ([], globals)
  | fuel + 1, index, globals =>
      match globals[index]? with
      | none => ([], globals)
      | some removed =>
          if registries.hasOffers removed.handle.id then
            collect registries fuel (index + 1) globals
          else
            let (notices, globals) :=
              collect registries fuel index (swapRemove globals index)
            (.withdrawn removed.handle :: notices, globals)

/-- End the lifetimes that have come to their end. -/
def collectRemovedGlobals
    (publisher : Publisher Clients) : List Notice × Publisher Clients :=
  let (notices, removedGlobals) := collect publisher.registries
    publisher.removedGlobals.length 0 publisher.removedGlobals
  (notices, { publisher with removedGlobals })

/-- Remove a live registry, its subscription and its object. -/
def removeRegistry
    (hosts : Hosts Clients)
    (publisher : Publisher Clients)
    (peer : Peer)
    (registry : Handle) : Option (Reply Clients Object) :=
  match hosts.get publisher.clients peer with
  | .error cause => some (.failed (.base cause) publisher)
  | .ok _ =>
      match hosts.resolve publisher.clients peer registry with
      | (none, clients) =>
          some (.failed (.base .staleHandle) { publisher with clients })
      | (some object, clients) =>
          if object.interface ≠ wlRegistry then
            some (.failed (.base .wrongInterface) { publisher with clients })
          else
            match hosts.ensureDelete clients peer registry with
            | (.error cause, clients) =>
                some (.failed (.base cause) { publisher with clients })
            | (.ok _, clients) =>
                match publisher.registries.remove peer registry with
                | (.error cause, registries) =>
                    some (.failed (.base cause)
                      { publisher with clients, registries })
                | (.ok _, registries) => do
                    let clients ← hosts.deleteClient clients peer registry
                    let (notices, publisher) := collectRemovedGlobals
                      { publisher with clients, registries }
                    some
                      { result := .ok object
                        notices := .unsubscribed peer registry :: notices
                        publisher }

/-- Unpublish a global.  Its lifetime can end at once. -/
def removeGlobalWithCallback
    (publisher : Publisher Clients)
    (handle : Handle)
    (withdrawn : Option Nat)
    (granted : Bool) : Option (Reply Clients Unit) :=
  match publisher.globals.resolve handle with
  | none => some (.failed .unknownGlobal publisher)
  | some _ =>
      if !granted then some (.failed (.base .outOfMemory) publisher)
      else
        match publisher.globals.remove handle with
        | (.error cause, globals) =>
            some (.failed cause { publisher with globals })
        | (.ok global, globals) =>
            (publisher.registries.retract handle.id).map fun registries =>
              let (notices, publisher) := collectRemovedGlobals
                { publisher with
                  globals
                  registries
                  removedGlobals := publisher.removedGlobals ++
                    [{ handle, global, withdrawn }] }
              { result := .ok ()
                notices := .unpublished handle :: notices
                publisher }

/-- Apply a client's acknowledgment that it saw a `global_remove`. -/
def ackGlobalRemove
    (hosts : Hosts Clients)
    (publisher : Publisher Clients)
    (peer : Peer)
    (registry : Handle)
    (name : Nat) : Reply Clients Unit :=
  match hosts.get publisher.clients peer with
  | .error cause => .failed (.base cause) publisher
  | .ok _ =>
      match hosts.resolve publisher.clients peer registry with
      | (none, clients) =>
          .failed (.base .staleHandle) { publisher with clients }
      | (some object, clients) =>
          let publisher := { publisher with clients }
          if object.interface ≠ wlRegistry then
            .failed (.base .wrongInterface) publisher
          else if !publisher.registries.serves peer then
            .failed (.base .staleHandle) publisher
          else
            match publisher.registries.locate peer.slot registry with
            | none => .failed (.base .staleHandle) publisher
            | some (_, position) =>
                let node := publisher.registries.node position
                match RegistrySubscriptions.offerIndex node name with
                | none => .failed .invalidAckRemove publisher
                | some index =>
                    match node.offers[index]? with
                    | none => .failed .invalidAckRemove publisher
                    | some offer =>
                        if offer.state ≠ .removalSent then
                          .failed .invalidAckRemove publisher
                        else
                          let (notices, publisher) := collectRemovedGlobals
                            { publisher with
                              registries := publisher.registries.setOffers
                                position (node.offers.eraseIdx index) }
                          { result := .ok ()
                            notices :=
                              .acknowledged peer registry offer.global ::
                                notices
                            publisher }

/-- The peer of a slot that publication visits. -/
def publicationPeer
    (publisher : Publisher Clients)
    (slot : Nat) : Option Peer :=
  if publisher.registries.generation slot ≠ 0 then
    some { slot, generation := publisher.registries.generation slot }
  else if publisher.syncBarriers.generation slot ≠ 0 then
    some { slot, generation := publisher.syncBarriers.generation slot }
  else none

/-- The errors that mean that a transmit queue has no room. -/
def blocks (cause : Error) : Bool :=
  cause = .byteBudgetExceeded ∨ cause = .exhausted

/-- An outcome of serving a peer. -/
structure Served (Clients : Type) where
  result : Except GlobalError Service
  notices : List Notice := []
  publisher : Publisher Clients

namespace Served

/-- A refused event: the peer is blocked, or the error is passed on. -/
def refused
    (cause : Error)
    (publisher : Publisher Clients) : Served Clients where
  result := if blocks cause then .ok .blocked else .error (.base cause)
  publisher

/-- Notices that came before. -/
def after (notices : List Notice) (served : Served Clients) : Served Clients :=
  { served with notices := notices ++ served.notices }

end Served

/-- The oldest sync of a peer, when every event owed before it arrived has
gone out. -/
def due
    (publisher : Publisher Clients)
    (peer : Peer) : Option Candidate :=
  (publisher.syncBarriers.head peer).filter fun barrier =>
    (publisher.registries.nextPending peer).all fun next =>
      next.epoch > barrier.epochLimit

/-- Queue the registry event that an offer owes. -/
def publishOffer
    (hosts : Hosts Clients)
    (publisher : Publisher Clients)
    (peer : Peer)
    (next : Pending) : Option (Served Clients) :=
  let node := publisher.registries.node next.node
  match node.offers[next.offer]? with
  | none => none
  | some entry =>
      match entry.state with
      | .addPending =>
          match publisher.globals.resolve entry.global with
          | none => none
          | some global =>
              match hosts.send publisher.clients peer
                  (.global node.handle entry.global.id global) with
              | (.error cause, clients) =>
                  some (.refused cause { publisher with clients })
              | (.ok _, clients) =>
                  some
                    { result := .ok .sent
                      notices := [.announced peer node.handle entry.global
                        entry.epoch]
                      publisher := { publisher with
                        clients
                        registries := publisher.registries.setOffers next.node
                          (node.offers.set next.offer
                            { entry with state := .offered }) } }
      | .removePending =>
          match hosts.send publisher.clients peer
              (.globalRemove node.handle entry.global.id) with
          | (.error cause, clients) =>
              some (.refused cause { publisher with clients })
          | (.ok _, clients) =>
              some
                { result := .ok .sent
                  notices := [.revoked peer node.handle entry.global
                    entry.epoch]
                  publisher := { publisher with
                    clients
                    registries := publisher.registries.setOffers next.node
                      (node.offers.set next.offer
                        { entry with state := .removalSent }) } }
      | .offered | .removalSent => none

/-- Send a peer's earliest owed event.  Syncs whose callbacks are gone and
registries whose objects are gone are dropped on the way. -/
def serve
    (hosts : Hosts Clients)
    (peer : Peer) : Nat → Publisher Clients → Option (Served Clients)
  | 0, _ => none
  | fuel + 1, publisher =>
      match publisher.due peer with
      | some barrier =>
          match hosts.resolve publisher.clients peer barrier.callback with
          | (none, clients) => do
              let syncBarriers ← publisher.syncBarriers.complete barrier
              let served ← serve hosts peer fuel
                { publisher with clients, syncBarriers }
              some (served.after
                [.abandoned peer barrier.callback barrier.epochLimit])
          | (some _, clients) =>
              match hosts.send clients peer
                  (.done barrier.callback barrier.callbackData) with
              | (.error cause, clients) =>
                  some (.refused cause { publisher with clients })
              | (.ok _, clients) => do
                  let syncBarriers ← publisher.syncBarriers.complete barrier
                  some
                    { result := .ok .sent
                      notices := [.answered peer barrier.callback
                        barrier.epochLimit]
                      publisher := { publisher with clients, syncBarriers } }
      | none =>
          match publisher.registries.nextPending peer with
          | none => some { result := .ok .idle, publisher }
          | some next =>
              let registry := (publisher.registries.node next.node).handle
              let (object, clients) :=
                hosts.resolve publisher.clients peer registry
              if object.all fun object => object.interface ≠ wlRegistry then
                match publisher.registries.remove peer registry with
                | (.error _, _) => none
                | (.ok _, registries) =>
                    let (notices, publisher) := collectRemovedGlobals
                      { publisher with clients, registries }
                    (serve hosts peer fuel publisher).map
                      (Served.after (.unsubscribed peer registry :: notices))
              else
                publishOffer hosts { publisher with clients } peer next

/-- Serve one peer, if it is there and dispatches. -/
def publishPeer
    (hosts : Hosts Clients)
    (publisher : Publisher Clients)
    (peer : Peer) : Option (Served Clients) :=
  if !hosts.canDispatch publisher.clients peer then
    some { result := .ok .idle, publisher }
  else
    match hosts.get publisher.clients peer with
    | .error _ => some { result := .ok .idle, publisher }
    | .ok _ =>
        serve hosts peer
          (publisher.registries.nodes.length +
            publisher.syncBarriers.nodes.length + 1) publisher

/-- The number of slots that publication goes round. -/
def slotCount (publisher : Publisher Clients) : Nat :=
  max publisher.registries.slots.length publisher.syncBarriers.slots.length

/-- Visit slots until a peer has something to report. -/
def visit
    (hosts : Hosts Clients)
    (slotCount : Nat) :
    Nat → Publisher Clients → Option (Reply Clients PublishResult)
  | 0, publisher =>
      some
        { result := .ok .complete
          publisher := { publisher with
            publishBlocked := publisher.publishBlocked.map fun _ => 0 } }
  | visits + 1, publisher =>
      let slot :=
        if publisher.publishCursor ≥ slotCount then 0
        else publisher.publishCursor
      let publisher := { publisher with publishCursor := slot + 1 }
      match publisher.publicationPeer slot with
      | none => visit hosts slotCount visits publisher
      | some peer =>
          match publisher.publishBlocked[slot]? with
          | none => none
          | some generation =>
              if generation = peer.generation then
                visit hosts slotCount visits publisher
              else
                match publishPeer hosts publisher peer with
                | none => none
                | some served =>
                    match served.result with
                    | .error cause =>
                        some
                          { result := .error cause
                            notices := served.notices
                            publisher := served.publisher }
                    | .ok .idle =>
                        (visit hosts slotCount visits served.publisher).map
                          fun reply =>
                            { reply with
                              notices := served.notices ++ reply.notices }
                    | .ok .sent =>
                        some
                          { result := .ok (.sent peer)
                            notices := served.notices
                            publisher := served.publisher }
                    | .ok .blocked =>
                        some
                          { result := .ok (.blocked peer)
                            notices := served.notices
                            publisher := { served.publisher with
                              publishBlocked :=
                                served.publisher.publishBlocked.set slot
                                  peer.generation } }

/-- Queue at most one owed event or answer.  Peers are visited in turn; one
whose transmit queue is full is reported once and skipped until the pass is
complete. -/
def publishNext
    (hosts : Hosts Clients)
    (publisher : Publisher Clients) : Option (Reply Clients PublishResult) :=
  visit hosts publisher.slotCount publisher.slotCount publisher

/-- Release a client's subscriptions and syncs, and then the client. -/
def destroyClient
    (hosts : Hosts Clients)
    (publisher : Publisher Clients)
    (peer : Peer) : Option (Reply Clients Unit) :=
  match hosts.canDeinit publisher.clients peer with
  | .error cause => some (.failed (.base cause) publisher)
  | .ok false => some (.failed (.base .actorBusy) publisher)
  | .ok true =>
      match hosts.get publisher.clients peer with
      | .error cause => some (.failed (.base cause) publisher)
      | .ok _ => do
          let clients ← hosts.destroy publisher.clients peer
          let (notices, publisher) := collectRemovedGlobals
            { publisher with
              registries := publisher.registries.removePeer peer
              syncBarriers := publisher.syncBarriers.removePeer peer
              clients }
          some
            { result := .ok ()
              notices := .left peer :: notices
              publisher }

/-! ## Runs -/

/-- One operation of the runtime, or anything else that changes the clients. -/
inductive Call (Clients : Type)
  | displayRequest (peer : Peer) (request : DisplayRequest)
      (context : Option Nat) (grants : PublisherGrants)
  | addGlobal (interface : Interface) (version : Nat)
      (context bind : Option Nat) (granted : Bool)
  | bindGlobal (peer : Peer) (request : BindRequest)
  | completeSync (peer : Peer) (callback : Handle) (callbackData : Nat)
      (grants : PublisherGrants)
  | removeRegistry (peer : Peer) (registry : Handle)
  | removeGlobal (handle : Handle) (withdrawn : Option Nat) (granted : Bool)
  | ackGlobalRemove (peer : Peer) (registry : Handle) (name : Nat)
  | publishNext
  | destroyClient (peer : Peer)
  | elsewhere (change : Clients → Clients)

/-- One call. -/
def step
    (hosts : Hosts Clients)
    (publisher : Publisher Clients) :
    Call Clients → Option (List Notice × Publisher Clients)
  | .displayRequest peer request context grants =>
      (publisher.displayRequest hosts peer request context grants).map
        Reply.effect
  | .addGlobal interface version context bind granted =>
      some (publisher.addGlobalWithBinder hosts interface version context bind
        granted).effect
  | .bindGlobal peer request =>
      (publisher.bindGlobal hosts peer request).map Reply.effect
  | .completeSync peer callback callbackData grants =>
      some (publisher.completeSync hosts peer callback callbackData
        grants).effect
  | .removeRegistry peer registry =>
      (publisher.removeRegistry hosts peer registry).map Reply.effect
  | .removeGlobal handle withdrawn granted =>
      (publisher.removeGlobalWithCallback handle withdrawn granted).map
        Reply.effect
  | .ackGlobalRemove peer registry name =>
      some (publisher.ackGlobalRemove hosts peer registry name).effect
  | .publishNext => (publisher.publishNext hosts).map Reply.effect
  | .destroyClient peer =>
      (publisher.destroyClient hosts peer).map Reply.effect
  | .elsewhere change =>
      some ([], { publisher with clients := change publisher.clients })

/-- A sequence of calls, with everything that happened. -/
def run
    (hosts : Hosts Clients) :
    List (Call Clients) → Publisher Clients →
      Option (List Notice × Publisher Clients)
  | [], publisher => some ([], publisher)
  | call :: calls, publisher => do
      let (notices, publisher) ← publisher.step hosts call
      let (later, last) ← run hosts calls publisher
      some (notices ++ later, last)

end Publisher
end Wayring
