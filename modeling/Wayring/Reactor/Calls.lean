import Wayring.Connection.ProtocolError
import Wayring.Reactor.Reactor

/-!
# Reactor calls

What an event loop does with a reactor, in any order.  The kernel completes the
operations that are queued: a receive any number of times, and each operation
once for the last time.
-/

namespace Wayring

namespace Ring

/-- Whether the kernel may complete an operation so.  Only a receive that
delivered data stays active, and a send does not send more than it was given. -/
def allows (submission : Submission) (completion : Cqe) : Bool :=
  match submission.kind, completion.result with
  | .receive, .count length => !completion.more || decide (0 < length)
  | .receive, .failed _ => !completion.more
  | .send byteCount, .count length =>
      !completion.more && decide (length ≤ byteCount)
  | .send _, .failed _ => !completion.more
  | .cancel, _ => !completion.more

/-- The ring after a completion, if the kernel may send it. -/
def deliver (ring : Ring) (completion : Cqe) : Option Ring :=
  match ring.outstanding.find? fun submission =>
      submission.userData = completion.userData with
  | none => none
  | some submission =>
      if !allows submission completion then none
      else if completion.more then some ring
      else
        some { ring with
          outstanding := ring.outstanding.eraseP fun submission =>
            submission.userData = completion.userData }

end Ring

namespace Reactor

/-- Apply an operation to the actor of a peer. -/
def onActor
    {α : Type}
    (reactor : Reactor)
    (peer : Peer)
    (operate : Actor → Storage → Except Error α × Actor × Storage) :
    Except Error α × Reactor :=
  match reactor.getActor peer with
  | .error cause => (.error cause, reactor)
  | .ok actor =>
      let (result, actor, storage) := operate actor reactor.storage
      (result, setActor { reactor with storage } peer.slot actor)

/-- Calls, with the memory that they find.  `complete` is a completion from the
kernel, and `submit` leaves some entries of the submission queue free. -/
inductive Call
  | attach (socketFd : Fd) (config : ActorConfig) (room : Nat)
  | prepareReceive (peer : Peer)
  | prepareSend (peer : Peer)
  | prepareClose (peer : Peer)
  | enqueue
      (peer : Peer)
      (bytes : List UInt8)
      (descriptors : List Fd)
      (room : Tx.Room)
  | beginClose (peer : Peer)
  | postError
      (peer : Peer)
      (objectId code : UInt32)
      (message : List UInt8)
      (room : Tx.Room)
  | complete (completion : Cqe)
  | deferReceive (peer : Peer)
  | releaseReceived (peer : Peer) (completion : Cqe)
  | noteReceiveBufferReturned (completion : Cqe)
  | prepareDeferredReceives
  | destroyPeer (peer : Peer)
  | submit (free : Nat)
  deriving DecidableEq, Repr

/-- What a call answers. -/
inductive Answer
  | done
  | peer (peer : Peer)
  | deferred (parked : Bool)
  | prepared (count : Nat)
  | closed (queued : Bool)
  | completed (event : CompletionEvent)
  deriving DecidableEq, Repr

/-- A call with its answer. -/
structure Turn where
  call : Call
  before : Reactor
  answer : Except Error Answer
  after : Reactor

section Turns

variable [Native]

/-- A completion that the kernel cannot send does not take place. -/
def onCompletion
    (reactor : Reactor)
    (completion : Cqe) : Except Error Answer × Reactor :=
  match reactor.ring.deliver completion with
  | none => (.error .invalidCompletion, reactor)
  | some ring =>
      let reactor := { reactor with ring }
      match reactor.route completion with
      | none => (.error .invalidCompletion, reactor)
      | some routed =>
          let (result, reactor) := reactor.completeRouted routed completion
          (result.map .completed, reactor)

/-- One call. -/
def step (call : Call) (reactor : Reactor) : Except Error Answer × Reactor :=
  match call with
  | .attach socketFd config room =>
      let (result, reactor) := reactor.attach socketFd config room
      (result.map .peer, reactor)
  | .prepareReceive peer =>
      let (result, reactor) := reactor.prepareReceive peer
      (result.map fun _ => .done, reactor)
  | .prepareSend peer =>
      let (result, reactor) := reactor.prepareSend peer
      (result.map fun _ => .done, reactor)
  | .prepareClose peer =>
      let (result, reactor) := reactor.prepareClose peer
      (result.map .closed, reactor)
  | .enqueue peer bytes descriptors room =>
      let (result, reactor) := reactor.onActor peer fun actor storage =>
        actor.enqueue storage bytes descriptors room
      (result.map fun _ => .done, reactor)
  | .beginClose peer =>
      reactor.onActor peer fun actor storage =>
        (.ok .done, actor.beginClose, storage)
  | .postError peer objectId code message room =>
      let (result, reactor) := reactor.onActor peer fun actor storage =>
        actor.postError storage objectId code message room
      (result.map fun _ => .done, reactor)
  | .complete completion => reactor.onCompletion completion
  | .deferReceive peer =>
      let (result, reactor) := reactor.deferReceive peer
      (result.map .deferred, reactor)
  | .releaseReceived peer completion =>
      let (result, reactor) := reactor.releaseReceived peer completion
      (result.map fun _ => .done, reactor)
  | .noteReceiveBufferReturned completion =>
      (.ok .done, reactor.noteReceiveBufferReturned completion)
  | .prepareDeferredReceives =>
      let (result, reactor) := reactor.prepareDeferredReceives
      (result.map .prepared, reactor)
  | .destroyPeer peer =>
      let (result, reactor) := reactor.destroyPeer peer
      (result.map fun _ => .done, reactor)
  | .submit free =>
      (.ok .done, { reactor with ring := { reactor.ring with free } })

/-- The turn of a call. -/
def turn (call : Call) (reactor : Reactor) : Turn where
  call
  before := reactor
  answer := (step call reactor).1
  after := (step call reactor).2

/-- Calls in order, with their answers. -/
def turns : List Call → Reactor → List Turn
  | [], _ => []
  | call :: calls, reactor =>
      turn call reactor :: turns calls (step call reactor).2

/-- The reactor after some calls. -/
def run : List Call → Reactor → Reactor
  | [], reactor => reactor
  | call :: calls, reactor => run calls (step call reactor).2

end Turns

/-- A reactor without connections. -/
def start
    (free sendDescriptorCapacity sendControlStride : Nat)
    (fragmentBlocks : SharedBlocks)
    (storage : Storage) : Reactor where
  ring := { free }
  sendDescriptorCapacity
  sendControlStride
  fragmentBlocks
  storage

end Reactor
end Wayring
