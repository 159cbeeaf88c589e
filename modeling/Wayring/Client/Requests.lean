import Wayring.Codec.Acceptance
import Wayring.Codec.Encoding
import Wayring.Objects.ClientRuns
import Wayring.Objects.Pointers

/-!
# Client requests

A client checks a request against its objects, puts it on the transmit queue,
and destroys the object of a destructor once the whole request is queued.
-/

namespace Wayring
namespace Codec

/-- Check the objects that a message names before it is sent. -/
def validateObjects
    (validation : Validation)
    (signature : Signature)
    (payload : Payload signature) : Except Error Unit := do
  let _ ← validateFields validation signature
    (Payload.decoded signature payload)
  .ok ()

end Codec

namespace Client

/-- What a call must not do. -/
inductive Fault
  /-- Reading an object through a pointer into storage that is gone. -/
  | stalePointer
  /-- Failing where the source marks failure unreachable. -/
  | unreachable
  deriving DecidableEq, Repr

/-- A request of a generated interface. -/
structure Request where
  interface : Interface
  opcode : Nat
  signature : Codec.Signature

/-- The objects of a client and its transmit queue. -/
structure Connection where
  objects : ClientObjects
  queue : Tx.Queue
  storage : Storage

/-- Destroy an object.  A failure is marked unreachable. -/
def retire
    (objects : ClientObjects)
    (handle : Handle) : Except Fault ClientObjects :=
  let (result, objects) :=
    if handle.id < serverIdStart then objects.retireLocal handle
    else objects.removePeer handle
  match result with
  | .error _ => .error .unreachable
  | .ok _ => .ok objects

/-- Send a request.  Its object is destroyed only when the whole request is on
the queue. -/
def sendRequest
    [Native]
    (request : Request)
    (connection : Connection)
    (handle : Handle)
    (payload : Codec.Payload request.signature)
    (room : Tx.Room) : Except Fault (Except Error Unit × Connection) :=
  let { objects, queue, storage } := connection
  match objects.objectNamespace.resolve handle with
  | none => .ok (.error .staleHandle, connection)
  | some object =>
      if object.destroyed then .ok (.error .destroyedObject, connection)
      else if object.interface ≠ request.interface then
        .ok (.error .wrongInterface, connection)
      else
        match object.interface.request request.opcode object.version with
        | .error cause => .ok (.error cause, connection)
        | .ok message =>
            match Codec.validateObjects (.request objects.objectNamespace.get)
                request.signature payload with
            | .error cause => .ok (.error cause, connection)
            | .ok _ =>
                match Codec.encode request.signature request.opcode queue
                    storage (UInt32.ofNat handle.id) payload room with
                | (.error cause, queue, storage) =>
                    .ok (.error cause, { objects, queue, storage })
                | (.ok _, queue, storage) =>
                    if message.destructor then do
                      let objects ← retire objects handle
                      .ok (.ok (), { objects, queue, storage })
                    else .ok (.ok (), { objects, queue, storage })

end Client
end Wayring
