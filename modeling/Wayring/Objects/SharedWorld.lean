import Wayring.Objects.SharedPool

/-!
# Namespaces over one pool

`SharedWorld` runs the operations of any number of connection namespaces on
one shared pool.  A slot stands for a bucket array and the namespace created
over it; the array keeps its contents when the namespace is torn down.
`MapWorld` is what the operations mean: one finite map for each slot, and a
count of the entries left in the pool.
-/

namespace Wayring

/-- One call on the pool or on the namespace of a slot. -/
inductive SharedOperation
  | init (slot connectionGeneration quota : Nat)
  | deinit (slot : Nat)
  | insert (slot id : Nat) (interface : Interface) (version : Nat)
      (context : Option Nat) (granted : Bool)
  | insertReserved (slot id : Nat) (interface : Interface) (version : Nat)
      (context : Option Nat)
  | insertServer (slot : Nat) (interface : Interface) (version : Nat)
      (context : Option Nat) (granted : Bool)
  | get (slot id : Nat)
  | resolve (slot : Nat) (handle : Handle)
  | lookupHandle (slot id : Nat)
  | request (slot id opcode : Nat)
  | event (slot id opcode : Nat)
  | remove (slot : Nat) (handle : Handle)
  | reserve (count : Nat)
  | restoreReservation
  deriving DecidableEq, Repr

/-- The slot an operation works on. -/
def SharedOperation.slot : SharedOperation → Option Nat
  | init slot _ _ | deinit slot | insert slot _ _ _ _ _
  | insertReserved slot _ _ _ _ | insertServer slot _ _ _ _ | get slot _
  | resolve slot _ | lookupHandle slot _ | request slot _ _ | event slot _ _
  | remove slot _ => some slot
  | reserve _ | restoreReservation => none

/-- Lookups and removals, which need nothing of the pool. -/
def SharedOperation.isLocal : SharedOperation → Bool
  | get _ _ | resolve _ _ | lookupHandle _ _ | request _ _ _ | event _ _ _
  | remove _ _ => true
  | _ => false

/-- What a successful call returns. -/
inductive SharedReply
  | done
  | inserted (handle : Handle)
  | object (found : Option Object)
  | handle (found : Option Handle)
  | dispatch (found : Dispatch)
  | removed (found : Option Object)
  deriving DecidableEq, Repr

/-- The result of one call. -/
abbrev SharedResult := Except Error SharedReply

/-- How many calls inserted an object. -/
def insertions (results : List SharedResult) : Nat :=
  results.countP fun
    | .ok (.inserted _) => true
    | _ => false

/-- The pool and the namespaces over it.  `used` records the connection
generations that namespaces of a slot were created under. -/
structure SharedWorld where
  pool : SharedObjectPool
  arrays : Nat → List SharedObjectBucket
  namespaces : Nat → Option SharedNamespace
  used : Nat → List Nat

namespace SharedWorld

/-- A new pool and cleared bucket arrays of given lengths. -/
def start (pool : SharedObjectPool) (lengths : Nat → Nat) : SharedWorld where
  pool := pool
  arrays := fun slot => List.replicate (lengths slot) {}
  namespaces := fun _ => none
  used := fun _ => []

/-- The buckets of a slot, with the namespace that owns them or without. -/
def array (world : SharedWorld) (slot : Nat) : List SharedObjectBucket :=
  match world.namespaces slot with
  | none => world.arrays slot
  | some objects => objects.buckets

/-- Put a namespace and the pool back after a call. -/
def put
    (world : SharedWorld)
    (slot : Nat)
    (objects : SharedNamespace)
    (pool : SharedObjectPool) : SharedWorld :=
  { world with
    pool
    namespaces := Function.update world.namespaces slot (some objects) }

/-- A call on the namespace of a slot; there is none to call on an empty
slot. -/
def onNamespace
    (world : SharedWorld)
    (slot : Nat)
    (action : SharedNamespace → SharedObjectPool →
      SharedResult × SharedNamespace × SharedObjectPool) :
    Option (SharedResult × SharedWorld) :=
  (world.namespaces slot).map fun objects =>
    let (result, objects, pool) := action objects world.pool
    (result, world.put slot objects pool)

/-- One call.  It is `none` when the caller may not make it: a namespace is
created over an array that no namespace owns, under a generation that the
array has not seen, and a reservation is restored only while an unreserved
entry is available. -/
def step
    (world : SharedWorld) :
    SharedOperation → Option (SharedResult × SharedWorld)
  | .init slot connectionGeneration quota =>
      if (world.namespaces slot).isSome ∨
          connectionGeneration ∈ world.used slot then none
      else
        match SharedNamespace.init (world.arrays slot) connectionGeneration
            quota with
        | .error cause => some (.error cause, world)
        | .ok objects =>
            some (.ok .done,
              { world with
                namespaces :=
                  Function.update world.namespaces slot (some objects)
                used := Function.update world.used slot
                  (connectionGeneration :: world.used slot) })
  | .deinit slot =>
      (world.namespaces slot).map fun objects =>
        (.ok .done,
          { world with
            pool := objects.deinit world.pool
            arrays := Function.update world.arrays slot objects.buckets
            namespaces := Function.update world.namespaces slot none })
  | .insert slot id interface version context granted =>
      world.onNamespace slot fun objects pool =>
        let (result, objects, pool) :=
          objects.insert pool id interface version context granted
        (result.map .inserted, objects, pool)
  | .insertReserved slot id interface version context =>
      world.onNamespace slot fun objects pool =>
        let (result, objects, pool) :=
          objects.insertReserved pool id interface version context
        (result.map .inserted, objects, pool)
  | .insertServer slot interface version context granted =>
      world.onNamespace slot fun objects pool =>
        let (result, objects, pool) :=
          objects.insertServer pool interface version context granted
        (result.map .inserted, objects, pool)
  | .get slot id =>
      world.onNamespace slot fun objects pool =>
        let (found, objects) := objects.get pool id
        (.ok (.object found), objects, pool)
  | .resolve slot handle =>
      world.onNamespace slot fun objects pool =>
        let (found, objects) := objects.resolve pool handle
        (.ok (.object found), objects, pool)
  | .lookupHandle slot id =>
      world.onNamespace slot fun objects pool =>
        let (found, objects) := objects.lookupHandle pool id
        (.ok (.handle found), objects, pool)
  | .request slot id opcode =>
      world.onNamespace slot fun objects pool =>
        let (result, objects) := objects.request pool id opcode
        (result.map .dispatch, objects, pool)
  | .event slot id opcode =>
      world.onNamespace slot fun objects pool =>
        let (result, objects) := objects.event pool id opcode
        (result.map .dispatch, objects, pool)
  | .remove slot handle =>
      world.onNamespace slot fun objects pool =>
        let (found, objects, pool) := objects.remove pool handle
        (.ok (.removed found), objects, pool)
  | .reserve count =>
      let (result, pool) := world.pool.reserve count
      some (result.map fun _ => .done, { world with pool })
  | .restoreReservation =>
      if world.pool.reservedCount < world.pool.availableCount then
        some (.ok .done,
          { world with pool := world.pool.restoreReservation })
      else none

/-- A sequence of calls. -/
def run
    (world : SharedWorld) :
    List SharedOperation → Option (List SharedResult × SharedWorld)
  | [] => some ([], world)
  | operation :: rest => do
      let (result, world) ← world.step operation
      let (results, world) ← world.run rest
      some (result :: results, world)

/-- The world up to the contents of the lookup caches. -/
def uncached (world : SharedWorld) : SharedWorld :=
  { world with
    namespaces := fun slot => (world.namespaces slot).map fun objects =>
      { objects with cachedId := 0, cachedIndex := none } }

/-- The entry a bucket walk of a slot's namespace finds for an ID. -/
def walkHandle
    (world : SharedWorld)
    (slot id : Nat) : Option (Handle × Object) := do
  let objects ← world.namespaces slot
  let location ← objects.findUncached world.pool id
  let node := world.pool.node location.index
  some ({ id, generation := node.generation }, node.object)

end SharedWorld

/-! ## Finite maps -/

/-- One entry of an object map. -/
structure ObjectEntry where
  handle : Handle
  object : Object
  deriving DecidableEq, Repr

/-- A map from IDs to handles and objects, in insertion order. -/
structure ObjectMap where
  quota : Nat
  entries : List ObjectEntry
  deriving DecidableEq, Repr

namespace ObjectMap

/-- The entry of an ID. -/
def lookup (map : ObjectMap) (id : Nat) : Option ObjectEntry :=
  map.entries.find? fun entry => entry.handle.id == id

/-- The entry a handle denotes. -/
def resolve (map : ObjectMap) (handle : Handle) : Option ObjectEntry :=
  (map.lookup handle.id).filter fun entry => entry.handle == handle

/-- Add an entry. -/
def add (map : ObjectMap) (entry : ObjectEntry) : ObjectMap :=
  { map with entries := map.entries ++ [entry] }

/-- Drop the entry of an ID. -/
def drop (map : ObjectMap) (id : Nat) : ObjectMap :=
  { map with
    entries := map.entries.filter fun entry => entry.handle.id != id }

/-- Whether a new object may take an ID. -/
def accept
    (map : ObjectMap)
    (id : Nat)
    (interface : Interface)
    (version : Nat) : Except Error Unit := do
  if id = 0 then .error .invalidId
  interface.validateVersion version
  if (map.lookup id).isSome then .error .duplicateId
  if map.entries.length = map.quota then .error .full

/-- The lowest server ID that is not in the map, or one past the largest. -/
def freeServerId (map : ObjectMap) : Nat :=
  SharedNamespace.firstFree (fun id => (map.lookup id).isSome)
    (maxU32 + 1 - serverIdStart) serverIdStart

/-- Whether the map has room for a server object, and its ID. -/
def acceptServer
    (map : ObjectMap)
    (interface : Interface)
    (version : Nat) : Except Error Nat := do
  interface.validateVersion version
  if map.entries.length = map.quota then .error .full
  if map.freeServerId > maxU32 then .error .full
  .ok map.freeServerId

/-- The object and message a request or an event for an entry denotes. -/
def dispatchOf
    (message : Interface → Nat → Except Error Message) :
    Option ObjectEntry → Except Error Dispatch
  | none => .error .unknownObject
  | some entry => do
      let message ← message entry.object.interface entry.object.version
      .ok { object := entry.object, message }

end ObjectMap

/-- The maps and the counts of the pool: its entries, the ones in no map, the
ones set aside, and the insertions so far. -/
structure MapWorld where
  maps : Nat → Option ObjectMap
  lengths : Nat → Nat
  used : Nat → List Nat
  total : Nat
  free : Nat
  reserved : Nat := 0
  issued : Nat := 0

namespace MapWorld

/-- No maps, and `capacity` free entries. -/
def start (capacity : Nat) (lengths : Nat → Nat) : MapWorld where
  maps := fun _ => none
  lengths := lengths
  used := fun _ => []
  total := capacity
  free := capacity

/-- Take an unreserved entry, or a new one. -/
def take (world : MapWorld) (granted : Bool) : Except Error MapWorld :=
  if world.free = world.reserved then
    if world.total ≥ sharedEnd then .error .full
    else if granted then .ok { world with total := world.total + 1 }
    else .error .outOfMemory
  else .ok { world with free := world.free - 1 }

/-- Take a reserved entry. -/
def takeReserved (world : MapWorld) : Except Error MapWorld :=
  if world.reserved = 0 then .error .full
  else .ok
    { world with free := world.free - 1, reserved := world.reserved - 1 }

/-- Add an object to the map of a slot, with the next handle. -/
def add
    (world : MapWorld)
    (slot : Nat)
    (map : ObjectMap)
    (id : Nat)
    (object : Object) : SharedResult × MapWorld :=
  let handle := { id, generation := nextGeneration^[world.issued] 1 }
  (.ok (.inserted handle),
    { world with
      maps := Function.update world.maps slot
        (some (map.add { handle, object }))
      issued := world.issued + 1 })

/-- A call on the map of a slot that may add an object. -/
def addWith
    (world : MapWorld)
    (slot : Nat)
    (object : Object)
    (accepted : ObjectMap → Except Error Nat)
    (taken : Except Error MapWorld) : Option (SharedResult × MapWorld) :=
  (world.maps slot).map fun map =>
    match accepted map, taken with
    | .error cause, _ => (.error cause, world)
    | .ok _, .error cause => (.error cause, world)
    | .ok id, .ok world => world.add slot map id object

/-- A call that reads the map of a slot. -/
def read
    (world : MapWorld)
    (slot : Nat)
    (result : ObjectMap → SharedResult) : Option (SharedResult × MapWorld) :=
  (world.maps slot).map fun map => (result map, world)

/-- What one call means. -/
def step (world : MapWorld) : SharedOperation → Option (SharedResult × MapWorld)
  | .init slot connectionGeneration quota =>
      if (world.maps slot).isSome ∨ connectionGeneration ∈ world.used slot then
        none
      else if world.lengths slot < 2 ∨
          !SharedNamespace.isPowerOfTwo (world.lengths slot) ∨
          connectionGeneration = 0 ∨ quota = 0 then
        some (.error .invalidConfig, world)
      else
        some (.ok .done,
          { world with
            maps := Function.update world.maps slot
              (some { quota, entries := [] })
            used := Function.update world.used slot
              (connectionGeneration :: world.used slot) })
  | .deinit slot =>
      (world.maps slot).map fun map =>
        (.ok .done,
          { world with
            maps := Function.update world.maps slot none
            free := world.free + map.entries.length })
  | .insert slot id interface version context granted =>
      world.addWith slot { interface, version, context }
        (fun map => (map.accept id interface version).map fun _ => id)
        (world.take granted)
  | .insertReserved slot id interface version context =>
      world.addWith slot { interface, version, context }
        (fun map => (map.accept id interface version).map fun _ => id)
        world.takeReserved
  | .insertServer slot interface version context granted =>
      world.addWith slot { interface, version, context }
        (fun map => map.acceptServer interface version)
        (world.take granted)
  | .get slot id =>
      world.read slot fun map =>
        .ok (.object ((map.lookup id).map ObjectEntry.object))
  | .resolve slot handle =>
      world.read slot fun map =>
        .ok (.object ((map.resolve handle).map ObjectEntry.object))
  | .lookupHandle slot id =>
      world.read slot fun map =>
        .ok (.handle ((map.lookup id).map ObjectEntry.handle))
  | .request slot id opcode =>
      world.read slot fun map =>
        (ObjectMap.dispatchOf
          (fun interface version => interface.request opcode version)
          (map.lookup id)).map .dispatch
  | .event slot id opcode =>
      world.read slot fun map =>
        (ObjectMap.dispatchOf
          (fun interface version => interface.event opcode version)
          (map.lookup id)).map .dispatch
  | .remove slot handle =>
      (world.maps slot).map fun map =>
        match map.resolve handle with
        | none => (.ok (.removed none), world)
        | some entry =>
            (.ok (.removed (some entry.object)),
              { world with
                maps := Function.update world.maps slot
                  (some (map.drop handle.id))
                free := world.free + 1 })
  | .reserve count =>
      some <|
        if count > world.free - world.reserved then (.error .full, world)
        else (.ok .done, { world with reserved := world.reserved + count })
  | .restoreReservation =>
      if world.reserved < world.free then
        some (.ok .done, { world with reserved := world.reserved + 1 })
      else none

/-- What a sequence of calls means. -/
def run
    (world : MapWorld) :
    List SharedOperation → Option (List SharedResult × MapWorld)
  | [] => some ([], world)
  | operation :: rest => do
      let (result, world) ← world.step operation
      let (results, world) ← world.run rest
      some (result :: results, world)

end MapWorld
end Wayring
