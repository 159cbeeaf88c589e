import Wayring.Metadata
import Wayring.Objects.Table

/-!
# Object namespaces

The per-connection namespace over an object table: versions are checked at
insertion, message availability at lookup, and a destroyed object stays behind
as a tombstone that only event dispatch can still see.
-/

namespace Wayring

/-- First ID of the range reserved for server-created objects. -/
def serverIdStart : Nat := 0xff000000

/-- The ID of `wl_display`. -/
def displayId : Nat := 1

/-- One protocol object.  `destroyed` marks a client object whose destructor
was published while its `delete_id` is outstanding. -/
structure Object where
  interface : Interface
  version : Nat
  context : Option Nat := none
  destroyed : Bool := false
  deriving DecidableEq, Repr

/-- The object and message metadata a dispatch resolves to. -/
structure Dispatch where
  object : Object
  message : Message
  deriving DecidableEq, Repr

/-- An object namespace of one connection. -/
structure Namespace where
  table : Table Object
  deriving DecidableEq, Repr

namespace Namespace

/-- A namespace of fixed capacity. -/
def init (maxObjects : Nat) (granted : Bool) : Except Error Namespace := do
  let table ← Table.init maxObjects granted
  .ok { table }

/-- A namespace that may grow. -/
def initGrowable
    (initialObjects : Nat)
    (granted : Bool) : Except Error Namespace := do
  let table ← Table.initGrowable initialObjects granted
  .ok { table }

/-- Insert an object after checking its version against its interface. -/
def insert
    (objects : Namespace)
    (id : Nat)
    (interface : Interface)
    (version : Nat)
    (context : Option Nat)
    (granted : Bool) : Except Error (Handle × Namespace) := do
  interface.validateVersion version
  let (handle, table) ←
    objects.table.insert id { interface, version, context } granted
  .ok (handle, { objects with table })

/-- Resolve a request to a live object and its message. -/
def request
    (objects : Namespace)
    (id opcode : Nat) : Except Error Dispatch :=
  match objects.table.get id with
  | none => .error .unknownObject
  | some object =>
      if object.destroyed then .error .destroyedObject
      else do
        let message ← object.interface.request opcode object.version
        .ok { object, message }

/-- Resolve an event, also on a tombstone. -/
def event
    (objects : Namespace)
    (id opcode : Nat) : Except Error Dispatch :=
  match objects.table.get id with
  | none => .error .unknownObject
  | some object => do
      let message ← object.interface.event opcode object.version
      .ok { object, message }

/-- Take the object of a handle out. -/
def remove
    (objects : Namespace)
    (handle : Handle) : Option (Object × Namespace) := do
  let (object, table) ← objects.table.removeHandle handle
  some (object, { objects with table })

/-- The live object of an ID. -/
def get (objects : Namespace) (id : Nat) : Option Object := do
  let object ← objects.table.get id
  if object.destroyed then none else some object

/-- An object argument of an event: a tombstone reads as null. -/
def eventArgument
    (objects : Namespace)
    (id : Nat) : Except Error (Option Object) :=
  match objects.table.get id with
  | none => .error .unknownObject
  | some object => .ok (if object.destroyed then none else some object)

/-- The object of a handle. -/
def resolve (objects : Namespace) (handle : Handle) : Option Object :=
  objects.table.resolve handle

/-- The handle of the object under an ID. -/
def lookupHandle (objects : Namespace) (id : Nat) : Option Handle :=
  objects.table.lookupHandle id

/-- Set the tombstone flag through the pointer of a resolved object. -/
def markDestroyed (objects : Namespace) (id : Nat) : Namespace :=
  { objects with
    table := objects.table.modify id fun object =>
      { object with destroyed := true } }

end Namespace
end Wayring
