import Wayring.Codec.Encoding
import Wayring.Connection.Actor

/-!
# Terminal errors

A server ends a connection with one `wl_display.error` event behind its queued
output.
-/

namespace Wayring

/-- The events of `wl_display`. -/
inductive DisplayEvent
  | error (objectId code : UInt32) (message : List UInt8)
  | deleteId (id : UInt32)
  deriving DecidableEq, Repr

namespace DisplayEvent

/-- The opcode of the event. -/
def opcode : DisplayEvent → Nat
  | .error .. => 0
  | .deleteId _ => 1

/-- The types of its arguments. -/
def signature : DisplayEvent → Codec.Signature
  | .error .. => [.object none false, .uint, .string false]
  | .deleteId _ => [.uint]

/-- Its arguments. -/
def payload : (event : DisplayEvent) → Codec.Payload event.signature
  | .error objectId code message => (objectId, code, message, ())
  | .deleteId id => (id, ())

variable [Native]

/-- Put an event of the display on a queue. -/
def encode
    (event : DisplayEvent)
    (queue : Tx.Queue)
    (storage : Storage)
    (room : Tx.Room) : Except Error Unit × Tx.Queue × Storage :=
  Codec.encode event.signature event.opcode queue storage
    (UInt32.ofNat displayId) event.payload room

end DisplayEvent

namespace Actor

variable [Native]

/-- Stop dispatch and queue the terminal error.  A failure closes the
connection. -/
def postError
    (actor : Actor)
    (storage : Storage)
    (objectId code : UInt32)
    (message : List UInt8)
    (room : Tx.Room) : Except Error Unit × Actor × Storage :=
  match actor.beginProtocolError with
  | .error cause => (.error cause, actor, storage)
  | .ok actor =>
      match (DisplayEvent.error objectId code message).encode actor.transmit
          storage room with
      | (.error cause, transmit, storage) =>
          (.error cause, beginClose { actor with transmit }, storage)
      | (.ok _, transmit, storage) =>
          match commitProtocolError { actor with transmit } with
          | .error cause =>
              (.error cause, beginClose { actor with transmit }, storage)
          | .ok actor => (.ok (), actor, storage)

end Actor
end Wayring
