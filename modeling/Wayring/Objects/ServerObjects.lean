import Wayring.Foundation.Cascade
import Wayring.Objects.Namespace
import Wayring.Objects.SharedPool

/-!
# Server objects

The ownership rules of one client connection on the server: over a table of
its own with an allocator for the IDs that the server creates, and over the
shared pool.  An object is removed by the client or by the server, and the
removal hook of the connection is told.
-/

namespace Wayring

/-! ## IDs created by a server -/

/-- The allocator of server IDs.  The entry of a free ID holds the next free
one. -/
structure ServerIds where
  entries : List Nat
  nextIndex : Nat := 0
  freeHead : Nat := maxU32 - 2
  deriving DecidableEq, Repr

namespace ServerIds

/-- The mark of an ID that was never handed out. -/
def neverUsed : Nat := maxU32

/-- The mark of an ID in use. -/
def active : Nat := neverUsed - 1

/-- The end of the free list. -/
def noFreeId : Nat := neverUsed - 2

/-- A fixed number of IDs in the range of the server. -/
def init (maxIds : Nat) (granted : Bool) : Except Error ServerIds :=
  if maxIds = 0 ∨ maxIds > SharedObjectPool.serverIdSpace then
    .error .invalidConfig
  else if granted then .ok { entries := List.replicate maxIds neverUsed }
  else .error .outOfMemory

/-- The content of an entry. -/
def entry (ids : ServerIds) (index : Nat) : Nat :=
  ids.entries.getD index neverUsed

/-- Take the most recently released ID, or the first never used one. -/
def acquire (ids : ServerIds) : Except Error (Nat × ServerIds) :=
  if ids.freeHead ≠ noFreeId then
    let index := ids.freeHead
    .ok (serverIdStart + index,
      { ids with
        freeHead := ids.entry index
        entries := ids.entries.set index active })
  else if ids.nextIndex = ids.entries.length then .error .exhausted
  else
    let index := ids.nextIndex
    .ok (serverIdStart + index,
      { ids with
        nextIndex := ids.nextIndex + 1
        entries := ids.entries.set index active })

/-- Index of an ID that was handed out at some point. -/
def usedIndex (ids : ServerIds) (id : Nat) : Option Nat :=
  if id < serverIdStart then none
  else
    let index := id - serverIdStart
    if index ≥ ids.nextIndex then none else some index

/-- Make an ID reusable. -/
def release (ids : ServerIds) (id : Nat) : Except Error ServerIds :=
  match ids.usedIndex id with
  | none => .error .invalidId
  | some index =>
      if ids.entry index ≠ active then .error .invalidTransition
      else
        .ok { ids with
          entries := ids.entries.set index ids.freeHead
          freeHead := index }

end ServerIds

/-! ## Removals -/

/-- The removals that a hook may ask for. -/
inductive Removal
  | client (handle : Handle)
  | server (handle : Handle)
  deriving DecidableEq, Repr

/-- A call of the removal hook. -/
abbrev RemovalNotice (State : Type) := Cascade.Notice State Handle Object

/-- A removal hook. -/
abbrev RemovalHook (State : Type) :=
  Cascade.Hook State Handle Removal Handle Object

/-! ## Objects in a table -/

/-- The objects of one client connection. -/
structure ServerObjects where
  objects : Namespace
  ids : ServerIds
  deriving DecidableEq, Repr

namespace ServerObjects

/-- Bounded storage, holding only the display object. -/
def init
    (maxObjects maxServerIds : Nat)
    (displayInterface : Interface)
    (displayContext : Option Nat)
    (tableGranted idsGranted : Bool) : Except Error ServerObjects := do
  let objects ← Namespace.init maxObjects tableGranted
  let ids ← ServerIds.init maxServerIds idsGranted
  let (_, objects) ←
    objects.insert displayId displayInterface 1 displayContext false
  .ok { objects, ids }

/-- Insert an object under an ID that the client chose. -/
def insertClient
    (server : ServerObjects)
    (id : Nat)
    (interface : Interface)
    (version : Nat)
    (context : Option Nat) : Except Error (Handle × ServerObjects) :=
  if id < 2 ∨ id ≥ serverIdStart then .error .invalidClientId
  else do
    let (handle, objects) ←
      server.objects.insert id interface version context false
    .ok (handle, { server with objects })

/-- Remove a client's object without telling the hook. -/
def cancelClient
    (server : ServerObjects)
    (handle : Handle) : Except Error (Object × ServerObjects) :=
  if handle.id < 2 ∨ handle.id ≥ serverIdStart then .error .invalidClientId
  else
    match server.objects.remove handle with
    | none => .error .staleHandle
    | some (object, objects) => .ok (object, { server with objects })

/-- Create an object under an ID of the server's.  A failed insertion gives the
ID back; the source marks a failure of that unreachable. -/
def createLocal
    (server : ServerObjects)
    (interface : Interface)
    (version : Nat)
    (context : Option Nat) : Except Error Handle × ServerObjects :=
  match server.ids.acquire with
  | .error cause => (.error cause, server)
  | .ok (id, ids) =>
      match server.objects.insert id interface version context false with
      | .ok (handle, objects) => (.ok handle, { objects, ids })
      | .error cause =>
          match ids.release id with
          | .ok ids => (.error cause, { server with ids })
          | .error _ => (.error cause, { server with ids })

/-- Remove a server's object without telling the hook. -/
def cancelLocal
    (server : ServerObjects)
    (handle : Handle) : Except Error (Object × ServerObjects) :=
  if handle.id < serverIdStart then .error .invalidServerId
  else
    match server.objects.resolve handle with
    | none => .error .staleHandle
    | some _ => do
        let ids ← server.ids.release handle.id
        match server.objects.remove handle with
        | none => .error .staleHandle
        | some (object, objects) => .ok (object, { objects, ids })

/-- The part of a removal before the hook is told. -/
def cancel
    (server : ServerObjects) :
    Removal → Except Error (Object × ServerObjects)
  | .client handle => server.cancelClient handle
  | .server handle => server.cancelLocal handle

end ServerObjects

/-- The handle that a removal names. -/
def Removal.handle : Removal → Handle
  | client handle | server handle => handle

namespace ServerObjects

/-- The objects as their removal hook can use them: a lookup in a table
changes nothing. -/
def registry :
    Cascade.Registry ServerObjects Handle Removal Handle Object where
  look server _ := server
  remove server removal :=
    match server.cancel removal with
    | .error _ => none
    | .ok (object, server) => some (removal.handle, object, server)

/-- The first empty slot, from a given one. -/
def firstVacant
    (slots : List (Option (Table.Slot Object))) : Nat → Nat → Nat
  | 0, index => index
  | fuel + 1, index =>
      match LinearProbing.entryAt slots index with
      | none => index
      | some _ => firstVacant slots fuel (index + 1)

/-- The slot before `index`, with wrapping `usize` subtraction. -/
def slotBefore (length index : Nat) : Nat :=
  (index + usizeLimit - 1) % usizeLimit &&& (length - 1)

/-- Empty a slot without closing its hole. -/
def clear (server : ServerObjects) (index : Nat) : ServerObjects :=
  { server with
    objects.table.slots := server.objects.table.slots.set index none
    objects.table.count := server.objects.table.count - 1 }

/-- Walk the slots backwards, emptying each and telling the hook. -/
def sweep
    (hook : RemovalHook ServerObjects) :
    Nat → Nat → List (RemovalNotice ServerObjects) → ServerObjects →
      List (RemovalNotice ServerObjects) × ServerObjects
  | 0, _, notices, server => (notices, server)
  | rounds + 1, index, notices, server =>
      let index := slotBefore server.objects.table.slots.length index
      match LinearProbing.entryAt server.objects.table.slots index with
      | none => sweep hook rounds index notices server
      | some slot =>
          let (notices, server) := registry.notify hook notices
            { id := slot.id, generation := slot.generation } slot.value
            (server.clear index)
          sweep hook rounds index notices server

/-- Teardown: tell the hook about every object.  The result is what the hook
was told, and the storage that goes back to the allocator. -/
def deinit
    (server : ServerObjects)
    (hook : Option (RemovalHook ServerObjects)) :
    List (RemovalNotice ServerObjects) × ServerObjects :=
  match hook with
  | none => ([], server)
  | some hook =>
      let slots := server.objects.table.slots
      sweep hook slots.length (firstVacant slots slots.length 0) [] server

end ServerObjects

/-! ## Objects in the shared pool -/

/-- The objects of one client connection over the shared pool. -/
structure SharedServerObjects where
  objects : SharedNamespace
  deriving DecidableEq, Repr

namespace SharedServerObjects

/-- A namespace with only the display object, in a reserved entry of the pool
or in another. -/
def init
    (pool : SharedObjectPool)
    (buckets : List SharedObjectBucket)
    (connectionGeneration quota : Nat)
    (displayInterface : Interface)
    (displayContext : Option Nat)
    (reserved granted : Bool) :
    Except Error SharedServerObjects × SharedObjectPool :=
  match SharedNamespace.init buckets connectionGeneration quota with
  | .error cause => (.error cause, pool)
  | .ok objects =>
      let (result, objects, pool) :=
        if reserved then
          objects.insertReserved pool displayId displayInterface 1
            displayContext
        else
          objects.insert pool displayId displayInterface 1 displayContext
            granted
      match result with
      | .error cause => (.error cause, objects.deinit pool)
      | .ok _ => (.ok { objects }, pool)

/-- Insert an object under an ID that the client chose. -/
def insertClient
    (server : SharedServerObjects)
    (pool : SharedObjectPool)
    (id : Nat)
    (interface : Interface)
    (version : Nat)
    (context : Option Nat)
    (granted : Bool) :
    Except Error Handle × SharedServerObjects × SharedObjectPool :=
  if id < 2 ∨ id ≥ serverIdStart then (.error .invalidClientId, server, pool)
  else
    let (result, objects, pool) :=
      server.objects.insert pool id interface version context granted
    (result, { objects }, pool)

/-- Remove a client's object without telling the hook. -/
def cancelClient
    (server : SharedServerObjects)
    (pool : SharedObjectPool)
    (handle : Handle) :
    Except Error Object × SharedServerObjects × SharedObjectPool :=
  if handle.id < 2 ∨ handle.id ≥ serverIdStart then
    (.error .invalidClientId, server, pool)
  else
    match server.objects.remove pool handle with
    | (none, objects, pool) => (.error .staleHandle, { objects }, pool)
    | (some object, objects, pool) => (.ok object, { objects }, pool)

/-- Remove a server's object without telling the hook. -/
def cancelLocal
    (server : SharedServerObjects)
    (pool : SharedObjectPool)
    (handle : Handle) :
    Except Error Object × SharedServerObjects × SharedObjectPool :=
  if handle.id < serverIdStart then (.error .invalidServerId, server, pool)
  else
    match server.objects.remove pool handle with
    | (none, objects, pool) => (.error .staleHandle, { objects }, pool)
    | (some object, objects, pool) => (.ok object, { objects }, pool)

/-- The part of a removal before the hook is told. -/
def cancel
    (server : SharedServerObjects)
    (pool : SharedObjectPool) :
    Removal → Except Error Object × SharedServerObjects × SharedObjectPool
  | .client handle => server.cancelClient pool handle
  | .server handle => server.cancelLocal pool handle

/-- The objects and the pool as the removal hook can use them: a lookup fills
the one-entry cache. -/
def registry :
    Cascade.Registry (SharedServerObjects × SharedObjectPool) Handle Removal
      Handle Object where
  look state handle :=
    ({ objects := (state.1.objects.resolve state.2 handle).2 }, state.2)
  remove state removal :=
    match state.1.cancel state.2 removal with
    | (.error _, _) => none
    | (.ok object, state) => some (removal.handle, object, state)

/-- Remove the newest object and tell the hook, until none is left. -/
def sweep
    (hook : RemovalHook (SharedServerObjects × SharedObjectPool)) :
    Nat → List (RemovalNotice (SharedServerObjects × SharedObjectPool)) →
      SharedServerObjects × SharedObjectPool →
      List (RemovalNotice (SharedServerObjects × SharedObjectPool)) ×
        SharedServerObjects × SharedObjectPool
  | 0, notices, state => (notices, state)
  | fuel + 1, notices, (server, pool) =>
      match server.objects.ownerTail with
      | none => (notices, server, pool)
      | some tail =>
          let node := pool.node tail
          let handle : Handle := { id := node.id, generation := node.generation }
          match server.objects.remove pool handle with
          | (none, objects, pool) => (notices, { objects }, pool)
          | (some object, objects, pool) =>
              let (notices, state) := registry.notify hook notices handle
                object ({ objects }, pool)
              sweep hook fuel notices state

/-- Teardown: tell the hook about every object, and give all entries back to
the pool.  Each round takes one entry, so the namespace's count is enough. -/
def deinit
    (server : SharedServerObjects)
    (pool : SharedObjectPool)
    (hook : Option (RemovalHook (SharedServerObjects × SharedObjectPool))) :
    List (RemovalNotice (SharedServerObjects × SharedObjectPool)) ×
      SharedObjectPool :=
  match hook with
  | none => ([], server.objects.deinit pool)
  | some hook =>
      let (notices, server, pool) :=
        sweep hook server.objects.count [] (server, pool)
      (notices, server.objects.deinit pool)

end SharedServerObjects
end Wayring
