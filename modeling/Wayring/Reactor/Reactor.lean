import Wayring.Connection.Actor
import Wayring.Reactor.Slots

/-!
# Reactor

Connection records, their kernel operations, and the list of receives that
wait for a buffer.  The ring keeps the operations that are queued until their
last completion.
-/

namespace Wayring

/-- What a queued operation does. -/
inductive Submission.Kind
  | receive
  | send (byteCount : Nat)
  | cancel
  deriving DecidableEq, Repr

/-- A queued operation. -/
structure Submission where
  userData : Nat
  fd : Fd
  kind : Submission.Kind
  deriving DecidableEq, Repr

/-- The free entries of the submission queue, and the operations that have not
had their last completion. -/
structure Ring where
  free : Nat
  outstanding : List Submission := []
  deriving DecidableEq, Repr

/-- Queue a submission. -/
def Ring.queue
    (ring : Ring)
    (submission : Submission) : Except Error Ring :=
  match ring.free with
  | 0 => .error .submissionQueueFull
  | free + 1 =>
      .ok { free, outstanding := ring.outstanding ++ [submission] }

/-- The budgets of a connection. -/
structure ActorConfig where
  receivedFdBudget : Nat
  transmitByteBudget : Nat
  transmitFdBudget : Nat
  deriving DecidableEq, Repr

/-- A place in the list of deferred receives. -/
structure DeferredReceive where
  generation : Nat
  previous : Option Nat
  next : Option Nat
  deriving DecidableEq, Repr

/-- What the reactor keeps for a connection. -/
structure ConnectionRecord where
  actor : Actor
  /-- Nothing when no receive is deferred. -/
  deferredReceive : Option DeferredReceive := none
  fd : Fd
  deriving DecidableEq, Repr

/-- The connections of a ring and what they share. -/
structure Reactor where
  ring : Ring
  slots : Slots := {}
  records : List (Option ConnectionRecord) := []
  deferredReceiveHead : Option Nat := none
  deferredReceiveTail : Option Nat := none
  receiveRearmPending : Bool := false
  sendDescriptorCapacity : Nat
  sendControlStride : Nat
  fragmentBlocks : SharedBlocks
  /-- Transmit blocks and descriptors. -/
  storage : Storage
  deriving DecidableEq, Repr

namespace Reactor

/-- The record in a slot. -/
def record (reactor : Reactor) (slot : Nat) : Option ConnectionRecord :=
  reactor.records[slot]?.join

/-- Write the record of a slot. -/
def setRecord
    (reactor : Reactor)
    (slot : Nat)
    (record : Option ConnectionRecord) : Reactor :=
  { reactor with records := reactor.records.set slot record }

/-- Change the record in a slot. -/
def updateRecord
    (reactor : Reactor)
    (slot : Nat)
    (change : ConnectionRecord → ConnectionRecord) : Reactor :=
  reactor.setRecord slot ((reactor.record slot).map change)

/-- Give a slot its place in the list, or none. -/
def setDeferred
    (reactor : Reactor)
    (slot : Nat)
    (deferredReceive : Option DeferredReceive) : Reactor :=
  reactor.updateRecord slot fun record => { record with deferredReceive }

/-- Change the place of a parked receive. -/
def updateDeferred
    (reactor : Reactor)
    (slot : Nat)
    (change : DeferredReceive → DeferredReceive) : Reactor :=
  reactor.updateRecord slot fun record =>
    { record with deferredReceive := record.deferredReceive.map change }

/-- Replace the actor in a slot. -/
def setActor (reactor : Reactor) (slot : Nat) (actor : Actor) : Reactor :=
  reactor.updateRecord slot fun record => { record with actor }

/-- The record of a peer, unless its handle is stale. -/
def getRecord
    (reactor : Reactor)
    (peer : Peer) : Except Error ConnectionRecord :=
  match reactor.slots.token peer .receive with
  | .error cause => .error cause
  | .ok _ =>
      match reactor.record peer.slot with
      | none => .error .unreachable
      | some record => .ok record

/-- The actor of a peer, unless its handle is stale. -/
def getActor (reactor : Reactor) (peer : Peer) : Except Error Actor :=
  (reactor.getRecord peer).map ConnectionRecord.actor

/-! ## Admission -/

/-- Room for the record of a slot. -/
def growRecords
    (reactor : Reactor)
    (slot room : Nat) : Except Error Nat × Reactor :=
  if slot < reactor.records.length then (.ok room, reactor)
  else
    match room with
    | 0 => (.error .outOfMemory, reactor)
    | room + 1 =>
        (.ok room,
          { reactor with
            records := reactor.records ++
              List.replicate (slot + 1 - reactor.records.length) none })

/-- Attach a socket, which is closed on an error.  A record needs three
allocations. -/
def attach
    (reactor : Reactor)
    (socketFd : Fd)
    (config : ActorConfig)
    (room : Nat) : Except Error Peer × Reactor :=
  if config.transmitFdBudget > reactor.sendDescriptorCapacity then
    (.error .sendDescriptorCapacityExceeded, reactor)
  else
    let grows := reactor.slots.freeHead = none
    match reactor.slots.acquire (room > 0) with
    | (.error cause, slots) => (.error cause, { reactor with slots })
    | (.ok peer, slots) =>
        let reactor := { reactor with slots }
        match reactor.growRecords peer.slot
            (if grows then room - 1 else room) with
        | (.error cause, reactor) =>
            (.error cause,
              { reactor with slots := (reactor.slots.deactivate peer).2 })
        | (.ok room, reactor) =>
            if room < 3 then
              (.error .outOfMemory,
                { reactor with slots := (reactor.slots.deactivate peer).2 })
            else
              (.ok peer,
                reactor.setRecord peer.slot <| some
                  { actor := Actor.initSharedFragments peer.slot
                      peer.generation config.receivedFdBudget
                      config.transmitByteBudget config.transmitFdBudget
                    fd := socketFd })

/-! ## Receives -/

/-- Arm a receive and queue it. -/
def prepareReceive
    (reactor : Reactor)
    (peer : Peer) : Except Error Unit × Reactor :=
  match reactor.getRecord peer with
  | .error cause => (.error cause, reactor)
  | .ok record =>
      match record.actor.armReceive with
      | .error cause => (.error cause, reactor)
      | .ok actor =>
          match reactor.ring.queue
              { userData := (actor.token .receive).encode
                fd := record.fd
                kind := .receive } with
          | .error cause => (.error cause, reactor)
          | .ok ring =>
              (.ok (), setActor { reactor with ring } peer.slot actor)

/-- A new last place of the list. -/
def linkDeferred (reactor : Reactor) (peer : Peer) : Reactor :=
  let node : DeferredReceive :=
    { generation := peer.generation
      previous := reactor.deferredReceiveTail
      next := none }
  let placed := reactor.setDeferred peer.slot (some node)
  let linked :=
    match reactor.deferredReceiveTail with
    | none => { placed with deferredReceiveHead := some peer.slot }
    | some tail =>
        placed.updateDeferred tail fun before =>
          { before with next := some peer.slot }
  { linked with deferredReceiveTail := some peer.slot }

/-- Park a receive at the end of the list. -/
def deferReceive
    (reactor : Reactor)
    (peer : Peer) : Except Error Bool × Reactor :=
  match reactor.getRecord peer with
  | .error cause => (.error cause, reactor)
  | .ok record =>
      if record.actor.lifecycle ≠ .open then (.error .closing, reactor)
      else if record.actor.receiveActive then
        (.error .receiveAlreadyActive, reactor)
      else
        match record.deferredReceive with
        | some node =>
            if node.generation ≠ peer.generation then
              (.error .staleHandle, reactor)
            else (.ok false, reactor)
        | none => (.ok true, reactor.linkDeferred peer)

/-- The place before an unlinked one, or the head, links to the one after. -/
def unlinkForward (reactor : Reactor) (node : DeferredReceive) : Reactor :=
  match node.previous with
  | none => { reactor with deferredReceiveHead := node.next }
  | some previous =>
      reactor.updateDeferred previous fun before =>
        { before with next := node.next }

/-- The place after an unlinked one, or the tail, links to the one before. -/
def unlinkBackward (reactor : Reactor) (node : DeferredReceive) : Reactor :=
  match node.next with
  | none => { reactor with deferredReceiveTail := node.previous }
  | some next =>
      reactor.updateDeferred next fun after =>
        { after with previous := node.previous }

/-- Take a slot out of the deferred list. -/
def removeDeferredReceive (reactor : Reactor) (slot : Nat) : Reactor :=
  match (reactor.record slot).bind ConnectionRecord.deferredReceive with
  | none => reactor
  | some node =>
      ((reactor.unlinkForward node).unlinkBackward node).setDeferred slot none

/-- A selected buffer is back, unless the kernel keeps it. -/
def noteReceiveBufferReturned (reactor : Reactor) (completion : Cqe) : Reactor :=
  if completion.returnsBuffer then { reactor with receiveRearmPending := true }
  else reactor

/-- Give a receive buffer back to the kernel. -/
def releaseReceived
    (reactor : Reactor)
    (peer : Peer)
    (completion : Cqe) : Except Error Unit × Reactor :=
  match reactor.getRecord peer with
  | .error cause => (.error cause, reactor)
  | .ok _ =>
      if completion.buffer then
        (.ok (), reactor.noteReceiveBufferReturned completion)
      else (.error .noBufferSelected, reactor)

/-- Rearm deferred receives in order, and drop those that no longer wait.  A
full submission queue keeps the permit. -/
def sweepDeferred :
    Nat → Reactor → Nat → Except Error Nat × Reactor
  | 0, reactor, prepared =>
      (if reactor.deferredReceiveHead = none then .ok prepared
        else .error .unreachable, reactor)
  | fuel + 1, reactor, prepared =>
      match reactor.deferredReceiveHead with
      | none => (.ok prepared, reactor)
      | some slot =>
          match (reactor.record slot).bind
              ConnectionRecord.deferredReceive with
          | none => (.error .unreachable, reactor)
          | some node =>
              let peer : Peer := { slot, generation := node.generation }
              match reactor.getActor peer with
              | .error _ =>
                  sweepDeferred fuel (reactor.removeDeferredReceive slot)
                    prepared
              | .ok actor =>
                  if actor.lifecycle ≠ .open ∨ actor.receiveActive then
                    sweepDeferred fuel (reactor.removeDeferredReceive slot)
                      prepared
                  else
                    match reactor.prepareReceive peer with
                    | (.error .submissionQueueFull, reactor) =>
                        (.ok prepared,
                          { reactor with receiveRearmPending := true })
                    | (.error cause, reactor) => (.error cause, reactor)
                    | (.ok _, reactor) =>
                        sweepDeferred fuel
                          (reactor.removeDeferredReceive slot) (prepared + 1)

/-- One sweep, if a returned buffer permits it. -/
def prepareDeferredReceives (reactor : Reactor) : Except Error Nat × Reactor :=
  if !reactor.receiveRearmPending ∨ reactor.deferredReceiveHead = none then
    (.ok 0, reactor)
  else
    sweepDeferred (reactor.records.length + 1)
      { reactor with receiveRearmPending := false } 0

/-- Whether a sweep could prepare a receive. -/
def deferredReceivesPending (reactor : Reactor) : Bool :=
  reactor.receiveRearmPending && reactor.deferredReceiveHead.isSome

/-! ## Sends -/

/-- Begin a send of what is queued and queue the operation. -/
def prepareSend
    (reactor : Reactor)
    [Native]
    (peer : Peer) : Except Error Unit × Reactor :=
  match reactor.getRecord peer with
  | .error cause => (.error cause, reactor)
  | .ok record =>
      if record.actor.transmit.sendActive then
        (.error .sendAlreadyActive, reactor)
      else
        match record.actor.transmit.snapshot reactor.storage
            reactor.sendDescriptorCapacity reactor.sendControlStride with
        | .error cause => (.error cause, reactor)
        | .ok snapshot =>
            match record.actor.beginSend snapshot with
            | .error cause => (.error cause, reactor)
            | .ok actor =>
                match reactor.ring.queue
                    { userData := (actor.token .send).encode
                      fd := record.fd
                      kind := .send snapshot.byteCount } with
                | .error cause =>
                    match actor.transmit.failed with
                    | .error _ => (.error .unreachable, reactor)
                    | .ok transmit =>
                        (.error cause,
                          reactor.setActor peer.slot { actor with transmit })
                | .ok ring =>
                    (.ok (), setActor { reactor with ring } peer.slot actor)

/-! ## Closing -/

/-- Close a connection, and cancel its operations if there are any. -/
def prepareClose
    (reactor : Reactor)
    (peer : Peer) : Except Error Bool × Reactor :=
  match reactor.getRecord peer with
  | .error cause => (.error cause, reactor)
  | .ok record =>
      let actor := record.actor.beginClose
      if !actor.receiveActive ∧ !actor.transmit.sendActive then
        (.ok false, reactor.setActor peer.slot actor)
      else
        match actor.requestCancel with
        | .error cause => (.error cause, reactor)
        | .ok actor =>
            match reactor.ring.queue
                { userData := (actor.token .cancel).encode
                  fd := record.fd
                  kind := .cancel } with
            | .error cause => (.error cause, reactor)
            | .ok ring =>
                (.ok true, setActor { reactor with ring } peer.slot actor)

/-- A connection that is released gives up its place in the list. -/
def releaseDeferred
    (reactor : Reactor)
    (peer : Peer)
    (record : ConnectionRecord) : Reactor :=
  match record.deferredReceive with
  | none => reactor
  | some node =>
      if node.generation = peer.generation then
        reactor.removeDeferredReceive peer.slot
      else reactor

/-- Release an idle connection. -/
def destroyPeer
    (reactor : Reactor)
    (peer : Peer) : Except Error Unit × Reactor :=
  match reactor.getRecord peer with
  | .error cause => (.error cause, reactor)
  | .ok record =>
      if !record.actor.canDeinit then (.error .actorBusy, reactor)
      else
        match record.actor.deinit reactor.fragmentBlocks reactor.storage with
        | .error cause => (.error cause, reactor)
        | .ok (fragmentBlocks, storage) =>
            let reactor := reactor.releaseDeferred peer record
            match reactor.slots.deactivate peer with
            | (.error cause, _) => (.error cause, reactor)
            | (.ok _, slots) =>
                (.ok (),
                  setRecord { reactor with slots, fragmentBlocks, storage }
                    peer.slot none)

/-! ## Completions -/

/-- The peer that a completion is routed to. -/
def routedPeer (reactor : Reactor) (routed : Routed) : Peer where
  slot := routed.slot
  generation :=
    ((reactor.record routed.slot).map fun record =>
      record.actor.generation).getD 0

/-- Route a completion of a connection. -/
def route (reactor : Reactor) (completion : Cqe) : Option Routed :=
  match Token.decode completion.userData with
  | .error _ => none
  | .ok token =>
      match token.operation with
      | .accept | .acceptCancel => none
      | .receive | .send | .cancel => reactor.slots.routeToken token

/-- Apply a completion that belongs to a connection. -/
def completeRouted
    (reactor : Reactor)
    (routed : Routed)
    (completion : Cqe) : Except Error CompletionEvent × Reactor :=
  match reactor.getActor (reactor.routedPeer routed) with
  | .error cause => (.error cause, reactor)
  | .ok actor =>
      let (result, actor, storage) :=
        actor.completeRouted reactor.storage routed.operation completion
      (result, setActor { reactor with storage } routed.slot actor)

end Reactor
end Wayring
