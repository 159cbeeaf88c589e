import Wayring.Objects.Namespace

/-!
# The shared object pool

Physical object entries that every server-side connection of a reactor draws
from.  A free entry is linked through its owner link; the all-ones index that
ends a list in the source is `none` here.
-/

namespace Wayring

/-- One past the largest index an entry can have. -/
def sharedEnd : Nat := maxU32

/-- A bucket, current only for the connection generation stamped on it. -/
structure SharedObjectBucket where
  connectionGeneration : Nat := 0
  head : Option Nat := none
  deriving DecidableEq, Repr

/-- One pool entry. -/
structure SharedObjectNode where
  object : Object :=
    { interface := { name := "", version := 0, requests := [], events := [] }
      version := 0 }
  id : Nat := 0
  generation : Nat := 0
  bucketNext : Option Nat := none
  ownerPrevious : Option Nat := none
  ownerNext : Option Nat := none
  deriving DecidableEq, Repr

/-- The pool of one reactor. -/
structure SharedObjectPool where
  nodes : List SharedObjectNode := []
  freeHead : Option Nat
  availableCount : Nat
  reservedCount : Nat := 0
  nextGeneration : Nat := 1
  deriving DecidableEq, Repr

namespace SharedObjectPool

/-- The entry at an index. -/
def node (pool : SharedObjectPool) (index : Nat) : SharedObjectNode :=
  pool.nodes.getD index {}

/-- Write to the entry at an index. -/
def modifyNode
    (pool : SharedObjectPool)
    (index : Nat)
    (change : SharedObjectNode → SharedObjectNode) : SharedObjectPool :=
  { pool with nodes := pool.nodes.set index (change (pool.node index)) }

/-- How many IDs the server range holds. -/
def serverIdSpace : Nat := maxU32 - serverIdStart + 1

/-- A pool of `capacity` free entries, linked in index order. -/
def init (capacity : Nat) (granted : Bool) : Except Error SharedObjectPool :=
  if capacity = 0 ∨ capacity > serverIdSpace then .error .invalidConfig
  else if granted then
    .ok
      { nodes := (List.range capacity).map fun index =>
          { ownerNext :=
              if index + 1 < capacity then some (index + 1) else none }
        freeHead := some 0
        availableCount := capacity }
  else .error .outOfMemory

/-- Set entries aside for `acquireReserved`. -/
def reserve
    (pool : SharedObjectPool)
    (count : Nat) : Except Error Unit × SharedObjectPool :=
  if count > pool.availableCount - pool.reservedCount then
    (.error .full, pool)
  else (.ok (), { pool with reservedCount := pool.reservedCount + count })

/-- Set one more entry aside; the source asserts that there is one. -/
def restoreReservation (pool : SharedObjectPool) : SharedObjectPool :=
  { pool with reservedCount := pool.reservedCount + 1 }

/-- Pop the free list. -/
def acquirePhysical
    (pool : SharedObjectPool) : Except Error Nat × SharedObjectPool :=
  match pool.freeHead with
  | none => (.error .full, pool)
  | some index =>
      (.ok index,
        { pool with
          freeHead := (pool.node index).ownerNext
          availableCount := pool.availableCount - 1 })

/-- Take an unreserved entry; the pool grows when there is none. -/
def acquire
    (pool : SharedObjectPool)
    (granted : Bool) : Except Error Nat × SharedObjectPool :=
  if pool.availableCount = pool.reservedCount then
    if pool.nodes.length ≥ sharedEnd then (.error .full, pool)
    else if granted then
      (.ok pool.nodes.length, { pool with nodes := pool.nodes ++ [{}] })
    else (.error .outOfMemory, pool)
  else pool.acquirePhysical

/-- Take a reserved entry. -/
def acquireReserved
    (pool : SharedObjectPool) : Except Error Nat × SharedObjectPool :=
  if pool.reservedCount = 0 then (.error .full, pool)
  else
    match { pool with
        reservedCount := pool.reservedCount - 1 }.acquirePhysical with
    | (.ok index, pool) => (.ok index, pool)
    | (.error cause, pool) =>
        (.error cause, { pool with reservedCount := pool.reservedCount + 1 })

/-- Push an entry on the free list. -/
def release (pool : SharedObjectPool) (index : Nat) : SharedObjectPool :=
  { pool.modifyNode index fun node =>
      { node with ownerNext := pool.freeHead } with
    freeHead := some index
    availableCount := pool.availableCount + 1 }

/-- Push a whole owner chain on the free list. -/
def releaseChain
    (pool : SharedObjectPool)
    (head tail : Option Nat)
    (count : Nat) : SharedObjectPool :=
  match head, tail with
  | some head, some tail =>
      { pool.modifyNode tail fun node =>
          { node with ownerNext := pool.freeHead } with
        freeHead := some head
        availableCount := pool.availableCount + count }
  | _, _ => pool

/-- Advance the generation counter. -/
def takeGeneration (pool : SharedObjectPool) : Nat × SharedObjectPool :=
  (pool.nextGeneration,
    { pool with
      nextGeneration := Wayring.nextGeneration pool.nextGeneration })

end SharedObjectPool

/-! ## Connection namespaces -/

/-- A connection's view of the shared pool.  Its buckets are the array it was
created over; it owns them until `deinit`. -/
structure SharedNamespace where
  buckets : List SharedObjectBucket
  connectionGeneration : Nat
  quota : Nat
  count : Nat := 0
  ownerHead : Option Nat := none
  ownerTail : Option Nat := none
  cachedId : Nat := 0
  cachedIndex : Option Nat := none
  nextServerId : Nat := serverIdStart
  deriving DecidableEq, Repr

namespace SharedNamespace

/-- Where a bucket walk found an ID, and the entry before it. -/
structure Location where
  index : Nat
  previous : Option Nat
  deriving DecidableEq, Repr

/-- Whether a length is a power of two. -/
def isPowerOfTwo (length : Nat) : Bool :=
  length != 0 && length &&& (length - 1) == 0

/-- An empty namespace over a cleared bucket array. -/
def init
    (buckets : List SharedObjectBucket)
    (connectionGeneration quota : Nat) : Except Error SharedNamespace :=
  if buckets.length < 2 ∨ !isPowerOfTwo buckets.length ∨
      connectionGeneration = 0 ∨ quota = 0 then
    .error .invalidConfig
  else .ok { buckets, connectionGeneration, quota }

/-- Give every entry back to the pool at once. -/
def deinit
    (objects : SharedNamespace)
    (pool : SharedObjectPool) : SharedObjectPool :=
  pool.releaseChain objects.ownerHead objects.ownerTail objects.count

/-- Home bucket of an ID, by the hash the object tables use. -/
def home (objects : SharedNamespace) (id : Nat) : Nat :=
  Table.home objects.buckets.length id

/-- The bucket at an index. -/
def bucket (objects : SharedNamespace) (index : Nat) : SharedObjectBucket :=
  objects.buckets.getD index {}

/-- Walk a bucket chain. -/
def walk
    (pool : SharedObjectPool)
    (id : Nat) : Nat → Option Nat → Option Nat → Option Location
  | 0, _, _ => none
  | fuel + 1, previous, current =>
      match current with
      | none => none
      | some index =>
          if (pool.node index).id = id then some { index, previous }
          else walk pool id fuel (some index) (pool.node index).bucketNext

/-- Find an ID by its bucket.  No chain is longer than the pool. -/
def findUncached
    (objects : SharedNamespace)
    (pool : SharedObjectPool)
    (id : Nat) : Option Location :=
  if id = 0 then none
  else
    let bucket := objects.bucket (objects.home id)
    if bucket.connectionGeneration ≠ objects.connectionGeneration then none
    else walk pool id (pool.nodes.length + 1) none bucket.head

/-- Find an ID through the one-entry cache. -/
def find
    (objects : SharedNamespace)
    (pool : SharedObjectPool)
    (id : Nat) : Option Location × SharedNamespace :=
  if id = 0 then (none, objects)
  else if objects.cachedId = id then
    (objects.cachedIndex.map fun index => { index, previous := none }, objects)
  else
    match objects.findUncached pool id with
    | none => (none, objects)
    | some location =>
        (some location,
          { objects with
            cachedId := id
            cachedIndex := some location.index })

/-- Make a bucket current for this connection. -/
def activateBucket (objects : SharedNamespace) (id : Nat) : SharedNamespace :=
  let index := objects.home id
  if (objects.bucket index).connectionGeneration ≠
      objects.connectionGeneration then
    { objects with
      buckets := objects.buckets.set index
        { connectionGeneration := objects.connectionGeneration
          head := none } }
  else objects

/-- Write the head of an ID's bucket. -/
def setBucketHead
    (objects : SharedNamespace)
    (id : Nat)
    (head : Option Nat) : SharedNamespace :=
  let index := objects.home id
  { objects with
    buckets := objects.buckets.set index
      { objects.bucket index with head } }

/-- Store an object in an acquired entry, at the head of its bucket and the
tail of the owner chain. -/
def insertAcquired
    (objects : SharedNamespace)
    (pool : SharedObjectPool)
    (index id : Nat)
    (interface : Interface)
    (version : Nat)
    (context : Option Nat) : Handle × SharedNamespace × SharedObjectPool :=
  let objects := objects.activateBucket id
  let (generation, pool) := pool.takeGeneration
  let pool := pool.modifyNode index fun _ =>
    { object := { interface, version, context }
      id
      generation
      bucketNext := (objects.bucket (objects.home id)).head
      ownerPrevious := objects.ownerTail
      ownerNext := none }
  let objects := objects.setBucketHead id (some index)
  let (objects, pool) :=
    match objects.ownerTail with
    | none => ({ objects with ownerHead := some index }, pool)
    | some tail =>
        (objects, pool.modifyNode tail fun node =>
          { node with ownerNext := some index })
  ({ id, generation },
    { objects with ownerTail := some index, count := objects.count + 1 },
    pool)

/-- Insert a new ID into an unreserved entry. -/
def insert
    (objects : SharedNamespace)
    (pool : SharedObjectPool)
    (id : Nat)
    (interface : Interface)
    (version : Nat)
    (context : Option Nat)
    (granted : Bool) :
    Except Error Handle × SharedNamespace × SharedObjectPool :=
  if id = 0 then (.error .invalidId, objects, pool)
  else
    match interface.validateVersion version with
    | .error cause => (.error cause, objects, pool)
    | .ok _ =>
        let (found, objects) := objects.find pool id
        if found.isSome then (.error .duplicateId, objects, pool)
        else if objects.count = objects.quota then
          (.error .full, objects, pool)
        else
          match pool.acquire granted with
          | (.error cause, pool) => (.error cause, objects, pool)
          | (.ok index, pool) =>
              let (handle, objects, pool) :=
                objects.insertAcquired pool index id interface version context
              (.ok handle, objects, pool)

/-- Insert a new ID into a reserved entry. -/
def insertReserved
    (objects : SharedNamespace)
    (pool : SharedObjectPool)
    (id : Nat)
    (interface : Interface)
    (version : Nat)
    (context : Option Nat) :
    Except Error Handle × SharedNamespace × SharedObjectPool :=
  if id = 0 then (.error .invalidId, objects, pool)
  else
    match interface.validateVersion version with
    | .error cause => (.error cause, objects, pool)
    | .ok _ =>
        let (found, objects) := objects.find pool id
        if found.isSome then (.error .duplicateId, objects, pool)
        else if objects.count = objects.quota then
          (.error .full, objects, pool)
        else
          match pool.acquireReserved with
          | (.error cause, pool) => (.error cause, objects, pool)
          | (.ok index, pool) =>
              let (handle, objects, pool) :=
                objects.insertAcquired pool index id interface version context
              (.ok handle, objects, pool)

/-- The first ID from the cursor that no bucket holds, at most one past the
largest ID. -/
def firstFree (occupied : Nat → Bool) : Nat → Nat → Nat
  | 0, id => id
  | fuel + 1, id =>
      if id ≤ maxU32 ∧ occupied id then firstFree occupied fuel (id + 1)
      else id

/-- Insert an object under the lowest free server ID. -/
def insertServer
    (objects : SharedNamespace)
    (pool : SharedObjectPool)
    (interface : Interface)
    (version : Nat)
    (context : Option Nat)
    (granted : Bool) :
    Except Error Handle × SharedNamespace × SharedObjectPool :=
  match interface.validateVersion version with
  | .error cause => (.error cause, objects, pool)
  | .ok _ =>
      if objects.count = objects.quota then (.error .full, objects, pool)
      else
        let id := firstFree
          (fun id => (objects.findUncached pool id).isSome)
          (maxU32 + 1 - objects.nextServerId) objects.nextServerId
        if id > maxU32 then (.error .full, objects, pool)
        else
          match pool.acquire granted with
          | (.error cause, pool) => (.error cause, objects, pool)
          | (.ok index, pool) =>
              let (handle, objects, pool) :=
                objects.insertAcquired pool index id interface version context
              (.ok handle, { objects with nextServerId := id + 1 }, pool)

/-- The object of an ID. -/
def get
    (objects : SharedNamespace)
    (pool : SharedObjectPool)
    (id : Nat) : Option Object × SharedNamespace :=
  let (found, objects) := objects.find pool id
  (found.map fun location => (pool.node location.index).object, objects)

/-- The object a handle still denotes. -/
def resolve
    (objects : SharedNamespace)
    (pool : SharedObjectPool)
    (handle : Handle) : Option Object × SharedNamespace :=
  let (found, objects) := objects.find pool handle.id
  (found.bind fun location =>
    let node := pool.node location.index
    if node.generation ≠ handle.generation then none else some node.object,
    objects)

/-- The current handle of an ID. -/
def lookupHandle
    (objects : SharedNamespace)
    (pool : SharedObjectPool)
    (id : Nat) : Option Handle × SharedNamespace :=
  let (found, objects) := objects.find pool id
  (found.map fun location =>
    { id, generation := (pool.node location.index).generation }, objects)

/-- Resolve a request to its object and message. -/
def request
    (objects : SharedNamespace)
    (pool : SharedObjectPool)
    (id opcode : Nat) : Except Error Dispatch × SharedNamespace :=
  match objects.get pool id with
  | (none, objects) => (.error .unknownObject, objects)
  | (some object, objects) =>
      (do
        let message ← object.interface.request opcode object.version
        .ok { object, message }, objects)

/-- Resolve an event to its object and message. -/
def event
    (objects : SharedNamespace)
    (pool : SharedObjectPool)
    (id opcode : Nat) : Except Error Dispatch × SharedNamespace :=
  match objects.get pool id with
  | (none, objects) => (.error .unknownObject, objects)
  | (some object, objects) =>
      (do
        let message ← object.interface.event opcode object.version
        .ok { object, message }, objects)

/-- Unlink the entry a handle denotes from its bucket and from the owner
chain, and give it back to the pool. -/
def remove
    (objects : SharedNamespace)
    (pool : SharedObjectPool)
    (handle : Handle) :
    Option Object × SharedNamespace × SharedObjectPool :=
  match objects.findUncached pool handle.id with
  | none => (none, objects, pool)
  | some location =>
      let node := pool.node location.index
      if node.generation ≠ handle.generation then (none, objects, pool)
      else
        let objects :=
          if objects.cachedIndex = some location.index then
            { objects with cachedId := 0, cachedIndex := none }
          else objects
        let (objects, pool) :=
          match location.previous with
          | none =>
              ((objects.activateBucket handle.id).setBucketHead handle.id
                node.bucketNext, pool)
          | some previous =>
              (objects, pool.modifyNode previous fun before =>
                { before with bucketNext := node.bucketNext })
        let (objects, pool) :=
          match node.ownerPrevious with
          | none => ({ objects with ownerHead := node.ownerNext }, pool)
          | some previous =>
              (objects, pool.modifyNode previous fun before =>
                { before with ownerNext := node.ownerNext })
        let (objects, pool) :=
          match node.ownerNext with
          | none => ({ objects with ownerTail := node.ownerPrevious }, pool)
          | some following =>
              (objects, pool.modifyNode following fun after =>
                { after with ownerPrevious := node.ownerPrevious })
        let objects :=
          { objects with
            count := objects.count - 1
            nextServerId :=
              if handle.id ≥ serverIdStart then
                min objects.nextServerId handle.id
              else objects.nextServerId }
        (some node.object, objects, pool.release location.index)

end SharedNamespace
end Wayring
