import Wayring.Objects.ServerObjects
import Wayring.Reactor.Admission

/-!
# Clients

The client records of a server beside the connection records of its reactor,
and the listener whose accepted descriptors become clients.
-/

namespace Wayring

/-- The process at the other end of a socket. -/
structure Credentials where
  pid : Nat
  uid : Nat
  gid : Nat
  deriving DecidableEq, Repr

/-- Three words of 32 bits. -/
def Credentials.size : Nat := 12

/-- The kernel answers with the credentials and the length it wrote, or with an
error. -/
def peerCredentials
    (answer : Option (Credentials × Nat)) : Except Error Credentials :=
  match answer with
  | none => .error .peerCredentialsFailed
  | some (credentials, length) =>
      if length ≠ Credentials.size then .error .invalidPeerCredentials
      else .ok credentials

/-- What a server keeps for a client. -/
structure ClientRecord where
  peer : Peer
  credentials : Credentials
  objects : SharedServerObjects
  deriving DecidableEq, Repr

/-- Clients of a reactor, and the pool that their objects are in. -/
structure SharedClients where
  reactor : Reactor
  objectPool : SharedObjectPool
  records : List (Option ClientRecord) := []
  objectQuota : Nat
  bucketsPerClient : Nat
  deriving DecidableEq, Repr

/-- The kernel's and the allocator's answers to one admission: the credentials,
and how many allocations succeed for the connection and then for the client. -/
structure AdmissionAnswers where
  credentials : Option (Credentials × Nat)
  attachRoom : Nat
  room : Nat
  deriving DecidableEq, Repr

namespace SharedClients

/-- A server without clients. -/
def init
    (reactor : Reactor)
    (objectCapacity objectQuota bucketsPerClient : Nat)
    (granted : Bool) : Except Error SharedClients :=
  if objectCapacity = 0 ∨ objectQuota = 0 ∨ bucketsPerClient < 2 ∨
      !SharedNamespace.isPowerOfTwo bucketsPerClient then
    .error .invalidConfig
  else
    (SharedObjectPool.init objectCapacity granted).map fun objectPool =>
      { reactor, objectPool, objectQuota, bucketsPerClient }

/-- The client record in a slot. -/
def record (clients : SharedClients) (slot : Nat) : Option ClientRecord :=
  clients.records[slot]?.join

/-- Write the record of a slot. -/
def setRecord
    (clients : SharedClients)
    (slot : Nat)
    (record : Option ClientRecord) : SharedClients :=
  { clients with records := clients.records.set slot record }

/-- Room for the record of a slot. -/
def growRecords
    (clients : SharedClients)
    (slot room : Nat) : Except Error Nat × SharedClients :=
  if slot < clients.records.length then (.ok room, clients)
  else
    match room with
    | 0 => (.error .outOfMemory, clients)
    | room + 1 =>
        (.ok room,
          { clients with
            records := clients.records ++
              List.replicate (slot + 1 - clients.records.length) none })

/-- Release the connection of a client whose admission failed. -/
def unwind
    (clients : SharedClients)
    (peer : Peer)
    (cause : Error) : Except Error Peer × List Fd × SharedClients :=
  let (result, closed, reactor) := clients.reactor.abandon peer cause
  (result, closed, { clients with reactor })

/-- The objects of a new client, and its first receive.  Two allocations came
before: the record and its buckets. -/
def admitObjects
    (clients : SharedClients)
    (display : Interface)
    (peer : Peer)
    (credentials : Credentials)
    (displayContext : Option Nat)
    (granted : Bool) : Except Error Peer × List Fd × SharedClients :=
  match SharedServerObjects.init clients.objectPool
      (List.replicate clients.bucketsPerClient {}) peer.generation
      clients.objectQuota display displayContext false granted with
  | (.error cause, objectPool) =>
      unwind { clients with objectPool } peer cause
  | (.ok objects, objectPool) =>
      match clients.reactor.prepareReceive peer with
      | (.error cause, reactor) =>
          unwind
            { clients with
              reactor
              objectPool := (objects.deinit objectPool none).2 } peer cause
      | (.ok _, reactor) =>
          (.ok peer, [],
            setRecord { clients with reactor, objectPool } peer.slot
              (some { peer, credentials, objects }))

/-- Admit the client behind an accepted descriptor.  The second result lists the
descriptors that are closed. -/
def admitPeer
    (clients : SharedClients)
    (display : Interface)
    (accepted : Listener.Accepted)
    (config : ActorConfig)
    (displayContext : Option Nat)
    (answers : AdmissionAnswers) :
    Except Error Peer × List Fd × SharedClients :=
  match peerCredentials answers.credentials with
  | .error cause => (.error cause, [accepted.fd], clients)
  | .ok credentials =>
      match clients.reactor.attachClosing accepted.fd config
          answers.attachRoom with
      | (.error cause, closed, reactor) =>
          (.error cause, closed, { clients with reactor })
      | (.ok peer, closed, reactor) =>
          let (result, more, clients) :=
            match growRecords { clients with reactor } peer.slot
                answers.room with
            | (.error cause, clients) => clients.unwind peer cause
            | (.ok room, clients) =>
                if (clients.record peer.slot).isSome then
                  (.error .unreachable, [], clients)
                else if room < 2 then clients.unwind peer .outOfMemory
                else
                  clients.admitObjects display peer credentials displayContext
                    (2 < room)
          (result, closed ++ more, clients)

/-- The record of a client, unless its handle is stale. -/
def get
    (clients : SharedClients)
    (peer : Peer) : Except Error ClientRecord :=
  match clients.reactor.getActor peer with
  | .error cause => .error cause
  | .ok _ =>
      match clients.record peer.slot with
      | none => .error .staleHandle
      | some record =>
          if record.peer.generation ≠ peer.generation then
            .error .staleHandle
          else .ok record

/-- Release an idle client: its objects, its record, and its connection. -/
def destroy
    (clients : SharedClients)
    (peer : Peer)
    (hook : Option
      (RemovalHook (SharedServerObjects × SharedObjectPool))) :
    Except Error Unit × List Fd × SharedClients :=
  match clients.reactor.getActor peer with
  | .error cause => (.error cause, [], clients)
  | .ok actor =>
      if !actor.canDeinit then (.error .actorBusy, [], clients)
      else
        match clients.get peer with
        | .error cause => (.error cause, [], clients)
        | .ok record =>
            let objectPool :=
              (record.objects.deinit clients.objectPool hook).2
            let clients :=
              setRecord { clients with objectPool } peer.slot none
            match clients.reactor.destroyClosing peer with
            | (.error _, closed, reactor) =>
                (.error .unreachable, closed, { clients with reactor })
            | (.ok _, closed, reactor) =>
                (.ok (), closed, { clients with reactor })

end SharedClients

/-- A listening socket and its accept. -/
structure Endpoint where
  fd : Fd
  listener : Listener := {}
  deriving DecidableEq, Repr

/-- The part of a server that accepts clients.  The submission queue holds the
operations of the listener beside those of the reactor. -/
structure Runtime where
  endpoint : Endpoint
  clients : SharedClients
  actorConfig : ActorConfig
  tagged : List TaggedSubmission := []
  deriving DecidableEq, Repr

namespace Runtime

/-- Queue an operation of the listener. -/
def onListener
    {α : Type}
    (runtime : Runtime)
    (operate : Listener → SharedRing → Except Error α × SharedRing × Listener) :
    Except Error α × Runtime :=
  let (result, shared, listener) := operate runtime.endpoint.listener
    { ring := runtime.clients.reactor.ring, tagged := runtime.tagged }
  (result,
    { runtime with
      endpoint := { runtime.endpoint with listener }
      clients := { runtime.clients with
        reactor := { runtime.clients.reactor with ring := shared.ring } }
      tagged := shared.tagged })

/-- Apply a completion of the listener.  An accepted descriptor becomes a
client. -/
def completeListener
    (runtime : Runtime)
    (display : Interface)
    (completion : Cqe)
    (displayContext : Option Nat)
    (answers : AdmissionAnswers) :
    Except Error (Option Peer) × List Fd × Runtime :=
  match runtime.endpoint.listener.complete completion with
  | (.error cause, closed, listener) =>
      (.error cause, closed,
        { runtime with endpoint := { runtime.endpoint with listener } })
  | (.ok (.accepted accepted), closed, listener) =>
      let (result, more, clients) := runtime.clients.admitPeer display accepted
        runtime.actorConfig displayContext answers
      (result.map some, closed ++ more,
        { runtime with
          endpoint := { runtime.endpoint with listener }
          clients })
  | (.ok .acceptStopped, closed, listener)
  | (.ok .cancelComplete, closed, listener) =>
      (.ok none, closed,
        { runtime with endpoint := { runtime.endpoint with listener } })

/-- Route a completion and apply it if it is the listener's. -/
def onCompletion
    (runtime : Runtime)
    (display : Interface)
    (completion : Cqe)
    (displayContext : Option Nat)
    (answers : AdmissionAnswers) :
    Except Error (Option Peer) × List Fd × Runtime :=
  match runtime.clients.reactor.routeAny (some runtime.endpoint.listener)
      completion with
  | (some .listener, closed) =>
      let (result, more, runtime) := runtime.completeListener display
        completion displayContext answers
      (result, closed ++ more, runtime)
  | (some (.connection _), closed) | (none, closed) =>
      (.ok none, closed, runtime)

end Runtime
end Wayring
