import Wayring.Objects.ClientObjects
import Wayring.Objects.IdTracker
import Wayring.Objects.TableMap

/-!
# The client's view of its objects

The client's objects over the abstract ID tracker.  A failed operation leaves
the view alone by construction; the refinement shows that `ClientObjects`
computes the same results, whatever its storage did meanwhile.
-/

namespace Wayring

/-- The client's namespace with the abstract ID tracker. -/
structure ClientView where
  objectNamespace : Namespace
  tracker : IdTracker

namespace ClientView

open ClientObjects (Operation Reply Call)

/-- Create a local object; `storage` is the tracker's storage failure, if
any. -/
def createLocal
    (view : ClientView)
    (storage : Option Error)
    (interface : Interface)
    (version : Nat)
    (context : Option Nat)
    (granted : Bool) : Except Error Handle × ClientView :=
  match storage with
  | some cause => (.error cause, view)
  | none =>
      match view.objectNamespace.insert (view.tracker.upcoming + 2) interface
          version context granted with
      | .error cause => (.error cause, view)
      | .ok (handle, objectNamespace) =>
          (.ok handle, { objectNamespace, tracker := view.tracker.acquire })

/-- Remove a live local object and return its ID. -/
def cancelLocal
    (view : ClientView)
    (handle : Handle) : Except Error Object × ClientView :=
  if handle.id < 2 ∨ handle.id ≥ serverIdStart then
    (.error .invalidLocalId, view)
  else
    match view.objectNamespace.resolve handle with
    | none => (.error .staleHandle, view)
    | some object =>
        if object.destroyed then (.error .invalidTransition, view)
        else
          match view.objectNamespace.remove handle with
          | none => (.error .staleHandle, view)
          | some (object, objectNamespace) =>
              (.ok object,
                { objectNamespace
                  tracker := view.tracker.release (handle.id - 2) })

/-- Turn a live local object into a tombstone. -/
def retireLocal
    (view : ClientView)
    (handle : Handle) : Except Error Object × ClientView :=
  if handle.id < 2 ∨ handle.id ≥ serverIdStart then
    (.error .invalidLocalId, view)
  else
    match view.objectNamespace.resolve handle with
    | none => (.error .staleHandle, view)
    | some object =>
        if object.destroyed then (.error .destroyedObject, view)
        else
          (.ok { object with destroyed := true },
            { objectNamespace := view.objectNamespace.markDestroyed handle.id
              tracker := view.tracker.retire (handle.id - 2) })

/-- Drop a tombstone and return its ID. -/
def deleted
    (view : ClientView)
    (id : Nat) : Except Error Unit × ClientView :=
  match view.objectNamespace.lookupHandle id with
  | none => (.error .unknownObject, view)
  | some handle =>
      match view.objectNamespace.resolve handle with
      | none => (.error .unknownObject, view)
      | some object =>
          if !object.destroyed then (.error .invalidTransition, view)
          else
            match view.objectNamespace.remove handle with
            | none => (.error .unknownObject, view)
            | some (_, objectNamespace) =>
                (.ok (),
                  { objectNamespace, tracker := view.tracker.release (id - 2) })

/-- Insert a server-created object. -/
def insertPeer
    (view : ClientView)
    (id : Nat)
    (interface : Interface)
    (version : Nat)
    (context : Option Nat)
    (granted : Bool) : Except Error Handle × ClientView :=
  if id < serverIdStart then (.error .invalidPeerId, view)
  else
    match view.objectNamespace.insert id interface version context granted with
    | .error cause => (.error cause, view)
    | .ok (handle, objectNamespace) =>
        (.ok handle, { view with objectNamespace })

/-- Remove a server-created object. -/
def removePeer
    (view : ClientView)
    (handle : Handle) : Except Error Object × ClientView :=
  if handle.id < serverIdStart then (.error .invalidPeerId, view)
  else
    match view.objectNamespace.remove handle with
    | none => (.error .staleHandle, view)
    | some (object, objectNamespace) =>
        (.ok object, { view with objectNamespace })

/-- Run one call. -/
def step (view : ClientView) (storage : Option Error) (call : Call) :
    Except Error Reply × ClientView :=
  match call.operation with
  | .createLocal interface version context =>
      let (result, view) := view.createLocal storage interface version context
        call.grants.table
      (result.map .local, view)
  | .cancelLocal handle =>
      let (result, view) := view.cancelLocal handle
      (result.map .object, view)
  | .retireLocal handle =>
      let (result, view) := view.retireLocal handle
      (result.map .object, view)
  | .deleted id =>
      let (result, view) := view.deleted id
      (result.map fun _ => .done, view)
  | .insertPeer id interface version context =>
      let (result, view) := view.insertPeer id interface version context
        call.grants.table
      (result.map .peer, view)
  | .removePeer handle =>
      let (result, view) := view.removePeer handle
      (result.map .object, view)

/-- Every operation that fails leaves the view as it was. -/
theorem step_error
    {view : ClientView} {storage : Option Error} {call : Call} {cause : Error}
    (failed : (view.step storage call).1 = .error cause) :
    (view.step storage call).2 = view := by
  obtain ⟨operation, grants⟩ := call
  cases operation with
  | createLocal interface version context =>
      simp only [step, createLocal] at failed ⊢
      split at failed
      · rfl
      · split at failed
        · rfl
        · cases failed
  | cancelLocal handle =>
      simp only [step, cancelLocal] at failed ⊢
      split_ifs at failed ⊢ with range
      · rfl
      · split at failed
        · rfl
        · split_ifs at failed ⊢ with destroyed
          · rfl
          · split at failed
            · rfl
            · cases failed
  | retireLocal handle =>
      simp only [step, retireLocal] at failed ⊢
      split_ifs at failed ⊢ with range
      · rfl
      · split at failed
        · rfl
        · split_ifs at failed ⊢ with destroyed
          · rfl
          · cases failed
  | deleted id =>
      simp only [step, deleted] at failed ⊢
      split at failed
      · rfl
      · split at failed
        · rfl
        · split_ifs at failed ⊢ with live
          · rfl
          · split at failed
            · rfl
            · cases failed
  | insertPeer id interface version context =>
      simp only [step, insertPeer] at failed ⊢
      split_ifs at failed ⊢ with range
      · rfl
      · split at failed
        · rfl
        · cases failed
  | removePeer handle =>
      simp only [step, removePeer] at failed ⊢
      split_ifs at failed ⊢ with range
      · rfl
      · split at failed
        · rfl
        · cases failed

end ClientView
end Wayring
