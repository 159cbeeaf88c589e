import Wayring.Objects.ClientIds

/-!
# Client objects

The client's coupling of ID reuse to its dispatch namespace.  A creation that
fails after taking an ID gives the ID back; a local destruction leaves a
tombstone until the server confirms it with `delete_id`.
-/

namespace Wayring

/-- The client's namespace and ID tracker. -/
structure ClientObjects where
  objectNamespace : Namespace
  ids : ClientIds
  deriving DecidableEq, Repr

/-- What the allocator answers to the two requests an operation can make. -/
structure Grants where
  ids : Bool
  table : Bool
  deriving DecidableEq, Repr

namespace ClientObjects

/-- Bounded storage, holding only the display object. -/
def init
    (maxObjects maxClientIds : Nat)
    (displayInterface : Interface)
    (displayContext : Option Nat)
    (grants : Grants) : Except Error ClientObjects := do
  let objectNamespace ← Namespace.init maxObjects grants.table
  let ids ← ClientIds.init maxClientIds grants.ids
  let (_, objectNamespace) ←
    objectNamespace.insert displayId displayInterface 1 displayContext false
  .ok { objectNamespace, ids }

/-- Growable storage, holding only the display object. -/
def initGrowable
    (initialObjects initialClientIds : Nat)
    (displayInterface : Interface)
    (displayContext : Option Nat)
    (grants : Grants) : Except Error ClientObjects := do
  let objectNamespace ← Namespace.initGrowable initialObjects grants.table
  let ids ← ClientIds.initGrowable initialClientIds grants.ids
  let (_, objectNamespace) ←
    objectNamespace.insert displayId displayInterface 1 displayContext false
  .ok { objectNamespace, ids }

/-- Create a local object under a new ID.  A failed insertion gives the ID back;
the source marks a failure of that unreachable. -/
def createLocal
    (objects : ClientObjects)
    (interface : Interface)
    (version : Nat)
    (context : Option Nat)
    (grants : Grants) : Except Error Handle × ClientObjects :=
  match objects.ids.acquire grants.ids with
  | .error cause => (.error cause, objects)
  | .ok (id, ids) =>
      match objects.objectNamespace.insert id interface version context
          grants.table with
      | .ok (handle, objectNamespace) =>
          (.ok handle, { objectNamespace, ids })
      | .error cause =>
          match ids.cancelUnpublished id with
          | .ok ids => (.error cause, { objects with ids })
          | .error _ => (.error cause, { objects with ids })

/-- Remove a local object whose creation request was never published. -/
def cancelLocal
    (objects : ClientObjects)
    (handle : Handle) : Except Error Object × ClientObjects :=
  if handle.id < 2 ∨ handle.id ≥ serverIdStart then
    (.error .invalidLocalId, objects)
  else
    match objects.objectNamespace.resolve handle with
    | none => (.error .staleHandle, objects)
    | some _ =>
        match objects.ids.cancelUnpublished handle.id with
        | .error cause => (.error cause, objects)
        | .ok ids =>
            match objects.objectNamespace.remove handle with
            | none => (.error .staleHandle, { objects with ids })
            | some (object, objectNamespace) =>
                (.ok object, { objectNamespace, ids })

/-- Turn a local object into a tombstone that waits for `delete_id`. -/
def retireLocal
    (objects : ClientObjects)
    (handle : Handle) : Except Error Object × ClientObjects :=
  if handle.id < 2 ∨ handle.id ≥ serverIdStart then
    (.error .invalidLocalId, objects)
  else
    match objects.objectNamespace.resolve handle with
    | none => (.error .staleHandle, objects)
    | some object =>
        if object.destroyed then (.error .destroyedObject, objects)
        else
          match objects.ids.retire handle.id with
          | .error cause => (.error cause, objects)
          | .ok ids =>
              (.ok { object with destroyed := true },
                { objectNamespace :=
                    objects.objectNamespace.markDestroyed handle.id
                  ids })

/-- Apply `delete_id`: drop the tombstone and free its ID. -/
def deleted
    (objects : ClientObjects)
    (id : Nat) : Except Error Unit × ClientObjects :=
  match objects.objectNamespace.lookupHandle id with
  | none => (.error .unknownObject, objects)
  | some handle =>
      match objects.objectNamespace.resolve handle with
      | none => (.error .unknownObject, objects)
      | some object =>
          if !object.destroyed then (.error .invalidTransition, objects)
          else
            match objects.ids.deleted id with
            | .error cause => (.error cause, objects)
            | .ok ids =>
                match objects.objectNamespace.remove handle with
                | none => (.error .unknownObject, { objects with ids })
                | some (_, objectNamespace) =>
                    (.ok (), { objectNamespace, ids })

/-- Insert an object the server created under an ID of its own range. -/
def insertPeer
    (objects : ClientObjects)
    (id : Nat)
    (interface : Interface)
    (version : Nat)
    (context : Option Nat)
    (grants : Grants) : Except Error Handle × ClientObjects :=
  if id < serverIdStart then (.error .invalidPeerId, objects)
  else
    match objects.objectNamespace.insert id interface version context
        grants.table with
    | .error cause => (.error cause, objects)
    | .ok (handle, objectNamespace) =>
        (.ok handle, { objects with objectNamespace })

/-- Remove an object of the server's range. -/
def removePeer
    (objects : ClientObjects)
    (handle : Handle) : Except Error Object × ClientObjects :=
  if handle.id < serverIdStart then (.error .invalidPeerId, objects)
  else
    match objects.objectNamespace.remove handle with
    | none => (.error .staleHandle, objects)
    | some (object, objectNamespace) =>
        (.ok object, { objects with objectNamespace })

/-! ## Runs -/

/-- The public operations. -/
inductive Operation
  | createLocal
      (interface : Interface)
      (version : Nat)
      (context : Option Nat)
  | cancelLocal (handle : Handle)
  | retireLocal (handle : Handle)
  | deleted (id : Nat)
  | insertPeer
      (id : Nat)
      (interface : Interface)
      (version : Nat)
      (context : Option Nat)
  | removePeer (handle : Handle)
  deriving DecidableEq, Repr

/-- The value a successful operation returns. -/
inductive Reply
  | local (handle : Handle)
  | peer (handle : Handle)
  | object (object : Object)
  | done
  deriving DecidableEq, Repr

/-- One operation with the allocator's answers to it. -/
structure Call where
  operation : Operation
  grants : Grants
  deriving DecidableEq, Repr

/-- Run one call. -/
def step (objects : ClientObjects) (call : Call) :
    Except Error Reply × ClientObjects :=
  match call.operation with
  | .createLocal interface version context =>
      let (result, objects) :=
        objects.createLocal interface version context call.grants
      (result.map .local, objects)
  | .cancelLocal handle =>
      let (result, objects) := objects.cancelLocal handle
      (result.map .object, objects)
  | .retireLocal handle =>
      let (result, objects) := objects.retireLocal handle
      (result.map .object, objects)
  | .deleted id =>
      let (result, objects) := objects.deleted id
      (result.map fun _ => .done, objects)
  | .insertPeer id interface version context =>
      let (result, objects) :=
        objects.insertPeer id interface version context call.grants
      (result.map .peer, objects)
  | .removePeer handle =>
      let (result, objects) := objects.removePeer handle
      (result.map .object, objects)

/-- Run calls in order, collecting their results. -/
def run (objects : ClientObjects) :
    List Call → List (Except Error Reply) × ClientObjects
  | [] => ([], objects)
  | call :: calls =>
      let (result, objects) := objects.step call
      let (results, objects) := objects.run calls
      (result :: results, objects)

/-- The IDs that successful creations returned. -/
def handedOut (results : List (Except Error Reply)) : List Nat :=
  results.filterMap fun
    | .ok (.local handle) => some handle.id
    | _ => none

/-- An ID that dispatch reaches. -/
def Live (objects : ClientObjects) (id : Nat) : Prop :=
  ∃ object, objects.objectNamespace.table.get id = some object ∧
    object.destroyed = false

/-- An ID kept only until its `delete_id`. -/
def Tombstone (objects : ClientObjects) (id : Nat) : Prop :=
  ∃ object, objects.objectNamespace.table.get id = some object ∧
    object.destroyed = true

/-- An ID the namespace does not know. -/
def Absent (objects : ClientObjects) (id : Nat) : Prop :=
  objects.objectNamespace.table.get id = none

end ClientObjects
end Wayring
