import Wayring.Connection.Completion
import Wayring.Connection.State
import Wayring.Transport.Framer
import Wayring.Transport.Queue

/-!
# Connection actor

The state of one connection.  Its blocks and descriptor entries are leased from
pools that all connections share.
-/

namespace Wayring

/-- One end of a connection, with its queues. -/
structure Actor where
  slot : Nat
  generation : Nat
  framer : Framer
  receivedFds : FdQueue
  transmit : Tx.Queue
  state : State := {}
  deriving DecidableEq, Repr

/-- What a completion means for a connection. -/
inductive CompletionEvent
  | received (length : Nat) (more : Bool)
  | sent (length : Nat) (moreQueued : Bool)
  | disconnected
  | receiveStopped
  | sendStopped
  | buffersExhausted
  | cancelComplete
  deriving DecidableEq, Repr

namespace Actor

/-- An open connection with empty queues over shared pools. -/
def initSharedFragments
    (slot generation receivedFdBudget transmitByteBudget transmitFdBudget :
      Nat) : Actor where
  slot
  generation
  framer := Framer.initShared
  receivedFds := FdQueue.init receivedFdBudget
  transmit := Tx.Queue.init transmitByteBudget transmitFdBudget

/-- How far the connection is from its end. -/
def lifecycle (actor : Actor) : Lifecycle := actor.state.lifecycle

/-- Whether a receive is armed. -/
def receiveActive (actor : Actor) : Bool := actor.state.receiving

/-- Whether a cancellation was asked for. -/
def cancelRequested (actor : Actor) : Bool := actor.state.phase.cancelRequested

/-- Whether a cancellation is outstanding. -/
def cancelActive (actor : Actor) : Bool := actor.state.phase.cancelActive

/-- Whether messages may be dispatched. -/
def canDispatch (actor : Actor) : Bool := actor.state.phase = .open

/-- No kernel operation uses the connection. -/
def canDeinit (actor : Actor) : Bool :=
  !actor.receiveActive && !actor.cancelActive && !actor.transmit.sendActive

/-- The token of an operation of this connection. -/
def token (actor : Actor) (operation : Operation) : Token where
  operation
  slot := actor.slot
  generation := actor.generation

/-- Take a step of the statechart. -/
def advance (actor : Actor) (input : Input) : Except Error Actor :=
  (actor.state.step input).map fun state => { actor with state }

/-- Descriptors change owner only if the whole message is queued. -/
def enqueue
    (actor : Actor)
    (storage : Storage)
    (bytes : List UInt8)
    (descriptors : List Fd)
    (room : Tx.Room) : Except Error Unit × Actor × Storage :=
  if actor.state.phase ≠ .open then (.error .closing, actor, storage)
  else
    let (result, transmit, storage) :=
      actor.transmit.enqueue storage bytes descriptors room
    (result, { actor with transmit }, storage)

/-- Note that a receive was submitted. -/
def armReceive (actor : Actor) : Except Error Actor :=
  actor.advance .armReceive

/-- Note that a send of a snapshot was submitted. -/
def beginSend (actor : Actor) (snapshot : Tx.Snapshot) : Except Error Actor :=
  match actor.lifecycle with
  | .protocolError => .error .protocolErrorPending
  | .closing => .error .closing
  | .open | .draining =>
      (actor.transmit.begin snapshot).map fun transmit =>
        { actor with transmit }

/-- Stop protocol dispatch.  A last event may still be queued. -/
def beginProtocolError (actor : Actor) : Except Error Actor :=
  actor.advance .beginProtocolError

/-- The last event is queued, and all output drains in order. -/
def commitProtocolError (actor : Actor) : Except Error Actor :=
  match actor.advance .commitProtocolError with
  | .error cause => .error cause
  | .ok next =>
      if actor.transmit.queuedBytes = 0 then .error .emptyMessage
      else .ok next

/-- Close; what was reserved but not finished is dropped. -/
def beginClose (actor : Actor) : Actor :=
  { actor with
    state := { actor.state with phase := actor.state.phase.closed } }

/-- Enter closing with a cancellation in flight. -/
def requestCancel (actor : Actor) : Except Error Actor :=
  actor.advance .requestCancel

/-- Queue the descriptors of the control records of a receive. -/
def ingestControl
    (actor : Actor)
    (storage : Storage)
    [Native]
    (control : List UInt8)
    (room : Nat) : Except Error Nat × Actor × Storage :=
  let (result, _, receivedFds, fds) :=
    Ancillary.enqueueRights control actor.receivedFds storage.fds room
  (result, { actor with receivedFds }, { storage with fds })

/-- Give all storage back.  None of the pools can refuse. -/
def deinit
    (actor : Actor)
    (fragmentBlocks : SharedBlocks)
    (storage : Storage) : Except Error (SharedBlocks × Storage) :=
  match actor.framer.deinit fragmentBlocks with
  | (.error _, _) => .error .unreachable
  | (.ok _, fragmentBlocks) =>
      match actor.receivedFds.deinit storage.fds with
      | (.error _, _, _) => .error .unreachable
      | (.ok _, _, fds) =>
          match actor.transmit.deinit { storage with fds } with
          | (.error _, _) => .error .unreachable
          | (.ok _, storage) => .ok (fragmentBlocks, storage)

/-- A result for a step that the statechart may refuse. -/
def settle
    (actor : Actor)
    (input : Input)
    (event : Except Error CompletionEvent) :
    Except Error CompletionEvent × Actor :=
  match actor.advance input with
  | .error cause => (.error cause, actor)
  | .ok actor => (event, actor)

/-- What the completion of a receive brings. -/
def completeReceive
    (actor : Actor)
    (cqe : Cqe) : Except Error CompletionEvent × Actor :=
  match cqe.result with
  | .count 0 => actor.settle .receiveCloses (.ok .disconnected)
  | .count length =>
      actor.settle (if cqe.more then .receiveContinues else .receiveStops)
        (.ok (.received length cqe.more))
  | .failed cause =>
      if actor.state.phase ≠ .open ∧ cause = .canceled then
        actor.settle .receiveStops (.ok .receiveStopped)
      else if cause = .noBuffers then
        actor.settle .receiveStops (.ok .buffersExhausted)
      else actor.settle .receiveCloses (.error .ioFailure)

/-- A send that failed, by an error or by sending nothing. -/
def failSend
    (actor : Actor)
    (canceled : Bool) : Except Error CompletionEvent × Actor :=
  match actor.transmit.failed with
  | .error cause => (.error cause, actor)
  | .ok transmit =>
      if actor.lifecycle = .closing ∧ canceled then
        (.ok .sendStopped, { actor with transmit })
      else settle { actor with transmit } .sendFails (.error .ioFailure)

/-- What the completion of a send brings. -/
def completeSend
    (actor : Actor)
    (storage : Storage)
    (cqe : Cqe) : Except Error CompletionEvent × Actor × Storage :=
  match cqe.result with
  | .count 0 =>
      let (result, actor) := actor.failSend false
      (result, actor, storage)
  | .failed cause =>
      let (result, actor) := actor.failSend (cause = .canceled)
      (result, actor, storage)
  | .count written =>
      match actor.transmit.complete storage written with
      | (.error cause, transmit, storage) =>
          (.error cause, { actor with transmit }, storage)
      | (.ok _, transmit, storage) =>
          let moreQueued : Bool := transmit.queuedBytes > 0
          let event := .ok (.sent written moreQueued)
          if moreQueued then (event, { actor with transmit }, storage)
          else
            let (result, actor) :=
              settle { actor with transmit } .sendDrained event
            (result, actor, storage)

/-- What the completion of a cancellation brings. -/
def completeCancel
    (actor : Actor)
    (cqe : Cqe) : Except Error CompletionEvent × Actor :=
  actor.settle .cancelCompletes <|
    match cqe.result with
    | .count _ => .ok .cancelComplete
    | .failed cause =>
        if cause = .noEntry ∨ cause = .already then .ok .cancelComplete
        else .error .ioFailure

/-- Apply a completion of the connection's current generation. -/
def completeRouted
    (actor : Actor)
    (storage : Storage)
    (operation : Operation)
    (cqe : Cqe) : Except Error CompletionEvent × Actor × Storage :=
  match operation with
  | .receive =>
      let (result, actor) := actor.completeReceive cqe
      (result, actor, storage)
  | .send => actor.completeSend storage cqe
  | .cancel =>
      let (result, actor) := actor.completeCancel cqe
      (result, actor, storage)
  | .accept | .acceptCancel => (.error .unexpectedCompletion, actor, storage)

end Actor
end Wayring
