import Wayring.Error
import Wayring.Foundation.Arena
import Wayring.Objects.Table

/-!
# Shared memory pools

Pools of mapped client memory, the buffers that clients create in them, and
the pins that keep a mapping in place while the compositor reads it.  Pool
resources, buffers, and pins hold independent references to one mapping.

The store keeps a log of what it does to each mapping.
-/

namespace Wayring
namespace Shm

/-! ## Validation -/

/-- A pixel format and its width in bytes. -/
structure Format where
  value : Nat
  bytesPerPixel : Nat
  deriving DecidableEq, Repr

/-- Immutable metadata of a buffer. -/
structure Buffer where
  offset : Nat
  width : Nat
  height : Nat
  stride : Nat
  format : Format
  extent : Nat
  deriving DecidableEq, Repr

/-- Where the buffer ends in its pool. -/
def Buffer.stop (buffer : Buffer) : Nat := buffer.offset + buffer.extent

/-- The largest integer that a request can carry. -/
def maxI32 : Nat := 2 ^ 31 - 1

/-- Configured bounds. -/
structure Limits where
  maxPoolBytes : Nat
  deriving DecidableEq, Repr

/-- Limits have to be positive and within what requests can carry. -/
def Limits.validate (limits : Limits) : Except Error Unit :=
  if limits.maxPoolBytes = 0 ∨ limits.maxPoolBytes > maxI32 then
    .error .invalidConfig
  else .ok ()

/-- The size of a new pool. -/
def createPool (limits : Limits) (requestedSize : Int) : Except Error Nat := do
  limits.validate
  if requestedSize ≤ 0 then .error .invalidPoolSize
  let size := requestedSize.toNat
  if size > limits.maxPoolBytes then .error .poolTooLarge
  .ok size

/-- The new size of a pool, which may not shrink. -/
def resizePool
    (limits : Limits)
    (currentSize : Nat)
    (requestedSize : Int) : Except Error Nat := do
  let size ← createPool limits requestedSize
  if size < currentSize then .error .invalidResize
  .ok size

/-- Multiplication of machine words. -/
def checkedMul (left right : Nat) : Except Error Nat :=
  if left * right < usizeLimit then .ok (left * right)
  else .error .sizeOverflow

/-- Addition of machine words. -/
def checkedAdd (left right : Nat) : Except Error Nat :=
  if left + right < usizeLimit then .ok (left + right)
  else .error .sizeOverflow

/-- Validate buffer metadata against a pool size. -/
def createBuffer
    (poolSize : Nat)
    (format : Format)
    (offset width height stride : Int) : Except Error Buffer := do
  if format.bytesPerPixel = 0 then .error .invalidConfig
  if offset < 0 then .error .outOfBounds
  if width ≤ 0 ∨ height ≤ 0 then .error .invalidDimensions
  if stride ≤ 0 then .error .invalidStride
  let rowBytes ← checkedMul width.toNat format.bytesPerPixel
  if stride.toNat < rowBytes then .error .invalidStride
  let extent ← checkedMul stride.toNat height.toNat
  let stop ← checkedAdd offset.toNat extent
  if stop > poolSize then .error .outOfBounds
  .ok
    { offset := offset.toNat
      width := width.toNat
      height := height.toNat
      stride := stride.toNat
      format, extent }

/-! ## The store -/

/-- A mapped range of addresses. -/
structure Mapping where
  address : Nat := 0
  length : Nat := 0
  deriving DecidableEq, Repr

/-- One pool. -/
structure Pool where
  resourceAlive : Bool := false
  fd : Nat := 0
  mapping : Mapping := {}
  declaredSize : Nat := 0
  pendingSize : Nat := 0
  bufferCount : Nat := 0
  pinCount : Nat := 0
  sealedDirect : Bool := false
  invalidBacking : Bool := false
  deriving DecidableEq, Repr

/-- Metadata of a node that was never used. -/
def unusedBuffer : Buffer where
  offset := 0
  width := 0
  height := 0
  stride := 0
  format := { value := 0, bytesPerPixel := 0 }
  extent := 0

/-- One buffer of a pool. -/
structure BufferRecord where
  pool : Arena.Token := { index := 0, generation := 0 }
  metadata : Buffer := unusedBuffer
  deriving DecidableEq, Repr

/-- One pin of a buffer's range. -/
structure PinRecord where
  accessCount : Nat := 0
  pool : Arena.Token := { index := 0, generation := 0 }
  metadata : Buffer := unusedBuffer
  deriving DecidableEq, Repr

/-- What is done to the mapping of a pool, or to the references to it. -/
inductive PoolEvent
  | map (mapping : Mapping) (fd : Nat)
  | remap (mapping : Mapping)
  | unmap (mapping : Mapping)
  | close (fd : Nat)
  | destroyResource
  | addBuffer (buffer : Nat)
  | destroyBuffer (buffer : Nat)
  | pin (pin : Nat)
  | unpin (pin : Nat)
  deriving DecidableEq, Repr

/-- The store, with the log of what was done to the pool at each index. -/
structure Store where
  limits : Limits
  pools : Arena Pool := {}
  buffers : Arena BufferRecord := {}
  pins : Arena PinRecord := {}
  log : List (Nat × PoolEvent) := []
  deriving DecidableEq, Repr

/-- What the kernel knows of a file: whether it is sealed against shrinking,
and its size. -/
structure FileState where
  shrinkSealed : Option Bool
  size : Option Nat
  deriving DecidableEq, Repr

/-- Whether a file is sealed against shrinking below a size. -/
def fileCannotShrinkBelow (file : FileState) (size : Nat) : Bool :=
  file.shrinkSealed == some true && file.size.any fun actual => actual ≥ size

/-- The allocator's and the kernel's answers to one call. -/
structure Answers where
  granted : Bool
  mapping : Except Nat Nat
  file : FileState
  deriving DecidableEq, Repr

/-- Generations are 32-bit words. -/
def generations : Nat := 2 ^ 32

namespace Store

/-- Note an event of a pool. -/
def record (store : Store) (pool : Nat) (event : PoolEvent) : Store :=
  { store with log := store.log ++ [(pool, event)] }

/-- Room for another pool. -/
def growPool (store : Store) (granted : Bool) : Except Error Store :=
  match store.pools.grow maxU32 {} granted with
  | none => .error .outOfMemory
  | some pools => .ok { store with pools }

/-- Room for another buffer. -/
def growBuffer (store : Store) (granted : Bool) : Except Error Store :=
  match store.buffers.grow maxU32 {} granted with
  | none => .error .outOfMemory
  | some buffers => .ok { store with buffers }

/-- Room for another pin. -/
def growPin (store : Store) (granted : Bool) : Except Error Store :=
  match store.pins.grow maxU32 {} granted with
  | none => .error .outOfMemory
  | some pins => .ok { store with pins }

/-- Grow some number of times. -/
def repeatGrowth
    (grow : Store → Except Error Store) : Nat → Store → Except Error Store
  | 0, store => .ok store
  | count + 1, store => do
      let store ← grow store
      repeatGrowth grow count store

/-- A store without pools. -/
def init
    (limits : Limits)
    (poolCapacity bufferCapacity : Nat)
    (granted : Bool) : Except Error Store := do
  limits.validate
  if poolCapacity = 0 ∨ bufferCapacity = 0 ∨ poolCapacity ≥ maxU32 ∨
      bufferCapacity ≥ maxU32 then
    .error .invalidConfig
  let store ← repeatGrowth (fun store => store.growPool granted) poolCapacity
    { limits }
  let store ← repeatGrowth (fun store => store.growBuffer granted)
    bufferCapacity store
  repeatGrowth (fun store => store.growPin granted) bufferCapacity store

/-- Write to a pool. -/
def modifyPool
    (store : Store)
    (index : Nat)
    (change : Pool → Pool) : Store :=
  { store with pools := store.pools.modify index change }

/-- Unmap a pool without references and close its descriptor. -/
def releasePoolIfUnused (store : Store) (index : Nat) : Store :=
  match store.pools.slots[index]? with
  | none => store
  | some slot =>
      let node := slot.content
      if node.resourceAlive ∨ node.bufferCount ≠ 0 ∨ node.pinCount ≠ 0 then
        store
      else
        ({ store with
          pools := store.pools.release generations index }.record index
            (.unmap node.mapping)).record index (.close node.fd)

/-- Grow a mapping to the size it waits for. -/
def applyPendingResize
    (store : Store)
    (index : Nat)
    (node : Pool)
    (answers : Answers) : Except Error Unit × Store :=
  if node.pendingSize = 0 then (.ok (), store)
  else
    match answers.mapping with
    | .error code => (.error (.system code), store)
    | .ok address =>
        let mapping := { address, length := node.pendingSize }
        (.ok (),
          (store.modifyPool index fun node =>
            { node with
              mapping
              pendingSize := 0
              sealedDirect := fileCannotShrinkBelow answers.file
                node.pendingSize }).record index (.remap mapping))

/-- Map a file as a pool. -/
def addPool
    (store : Store)
    (fd : Nat)
    (requestedSize : Int)
    (answers : Answers) : Except Error Arena.Token × Store :=
  match if store.pools.free = none then store.growPool answers.granted
    else .ok store with
  | .error cause => (.error cause, store)
  | .ok store =>
      match createPool store.limits requestedSize with
      | .error cause => (.error cause, store)
      | .ok size =>
          match answers.mapping with
          | .error code => (.error (.system code), store)
          | .ok address =>
              let mapping := { address, length := size }
              match store.pools.take
                  { resourceAlive := true
                    fd, mapping
                    declaredSize := size
                    sealedDirect :=
                      fileCannotShrinkBelow answers.file size } with
              | none => (.error .unreachable, store)
              | some (token, pools) =>
                  (.ok token,
                    { store with pools }.record token.index
                      (.map mapping fd))

/-- The client destroys a pool; buffers and pins may keep it. -/
def destroyPoolResource
    (store : Store)
    (token : Arena.Token) : Except Error Unit × Store :=
  match store.pools.resolve token with
  | none => (.error .stalePool, store)
  | some node =>
      if !node.resourceAlive then (.error .resourceDestroyed, store)
      else
        (.ok (),
          ((store.modifyPool token.index fun node =>
              { node with resourceAlive := false }).record token.index
            .destroyResource).releasePoolIfUnused token.index)

/-- Growth waits while a pin holds the mapping in place. -/
def resize
    (store : Store)
    (token : Arena.Token)
    (requestedSize : Int)
    (answers : Answers) : Except Error Unit × Store :=
  match store.pools.resolve token with
  | none => (.error .stalePool, store)
  | some node =>
      if !node.resourceAlive then (.error .resourceDestroyed, store)
      else
        match resizePool store.limits node.declaredSize requestedSize with
        | .error cause => (.error cause, store)
        | .ok size =>
            if size = node.declaredSize then
              if node.pinCount = 0 then
                store.applyPendingResize token.index node answers
              else (.ok (), store)
            else if node.pinCount ≠ 0 then
              (.ok (), store.modifyPool token.index fun node =>
                { node with declaredSize := size, pendingSize := size })
            else
              match answers.mapping with
              | .error code => (.error (.system code), store)
              | .ok address =>
                  let mapping := { address, length := size }
                  (.ok (),
                    (store.modifyPool token.index fun node =>
                      { node with
                        mapping
                        declaredSize := size
                        pendingSize := 0
                        sealedDirect := fileCannotShrinkBelow answers.file
                          size }).record token.index (.remap mapping))

/-- Make a buffer inside a pool. -/
def addBuffer
    (store : Store)
    (poolToken : Arena.Token)
    (format : Format)
    (offset width height stride : Int)
    (answers : Answers) : Except Error Arena.Token × Store :=
  match store.pools.resolve poolToken with
  | none => (.error .stalePool, store)
  | some pool =>
      if !pool.resourceAlive then (.error .resourceDestroyed, store)
      else
        match if store.buffers.free = none then
            store.growBuffer answers.granted
          else .ok store with
        | .error cause => (.error cause, store)
        | .ok store =>
            match createBuffer pool.declaredSize format offset width height
                stride with
            | .error cause => (.error cause, store)
            | .ok metadata =>
                match store.buffers.take { pool := poolToken, metadata } with
                | none => (.error .unreachable, store)
                | some (token, buffers) =>
                    (.ok token,
                      ({ store with buffers }.modifyPool poolToken.index
                        fun pool =>
                          { pool with
                            bufferCount := pool.bufferCount + 1 }).record
                        poolToken.index (.addBuffer token.index))

/-- The client destroys a buffer; pins may keep its pool. -/
def destroyBuffer
    (store : Store)
    (token : Arena.Token) : Except Error Unit × Store :=
  match store.buffers.resolve token with
  | none => (.error .staleBuffer, store)
  | some node =>
      match store.pools.resolve node.pool with
      | none => (.error .stalePool, store)
      | some _ =>
          (.ok (),
            (({ store with
                buffers :=
                  store.buffers.release generations token.index }.modifyPool
              node.pool.index fun pool =>
                { pool with bufferCount := pool.bufferCount - 1 }).record
              node.pool.index (.destroyBuffer token.index)).releasePoolIfUnused
              node.pool.index)

/-- Hold a buffer's range in place.  Growth that could wait no longer is
applied first. -/
def pin
    (store : Store)
    (token : Arena.Token)
    (answers : Answers) : Except Error Arena.Token × Store :=
  match store.buffers.resolve token with
  | none => (.error .staleBuffer, store)
  | some buffer =>
      match store.pools.resolve buffer.pool with
      | none => (.error .stalePool, store)
      | some pool =>
          if pool.pendingSize ≠ 0 ∧ pool.pinCount ≠ 0 then
            (.error .resizePending, store)
          else
            match store.applyPendingResize buffer.pool.index pool answers with
            | (.error cause, store) => (.error cause, store)
            | (.ok _, store) =>
                match if store.pins.free = none then
                    store.growPin answers.granted
                  else .ok store with
                | .error cause => (.error cause, store)
                | .ok store =>
                    match store.pins.take
                        { pool := buffer.pool
                          metadata := buffer.metadata } with
                    | none => (.error .unreachable, store)
                    | some (token, pins) =>
                        (.ok token,
                          ({ store with pins }.modifyPool buffer.pool.index
                            fun pool =>
                              { pool with
                                pinCount := pool.pinCount + 1 }).record
                            buffer.pool.index (.pin token.index))

/-- Drop a pin, then apply growth that waited for it.  When the growth fails
the pin is dropped all the same. -/
def unpin
    (store : Store)
    (token : Arena.Token)
    (answers : Answers) : Except Error Unit × Store :=
  match store.pins.resolve token with
  | none => (.error .stalePin, store)
  | some node =>
      if node.accessCount ≠ 0 then (.error .accessActive, store)
      else
        match store.pools.resolve node.pool with
        | none => (.error .stalePool, store)
        | some pool =>
            let store :=
              ({ store with
                pins := store.pins.release generations token.index }.modifyPool
                node.pool.index fun pool =>
                  { pool with pinCount := pool.pinCount - 1 }).record
                node.pool.index (.unpin token.index)
            let pool := { pool with pinCount := pool.pinCount - 1 }
            if pool.pinCount = 0 ∧ pool.pendingSize ≠ 0 then
              let (result, store) :=
                store.applyPendingResize node.pool.index pool answers
              (result, store.releasePoolIfUnused node.pool.index)
            else (.ok (), store.releasePoolIfUnused node.pool.index)

/-- A queued read of a pinned range. -/
structure Copy where
  pin : Arena.Token
  expectedLength : Nat
  userData : Nat
  deriving DecidableEq, Repr

/-- Give the pin of a copy back after a failure, which the source asserts to
succeed. -/
def abandonCopy
    (store : Store)
    (pin : Arena.Token)
    (cause : Error)
    (answers : Answers) : Except Error Copy × Store :=
  match store.unpin pin answers with
  | (.ok _, store) => (.error cause, store)
  | (.error _, store) => (.error .unreachable, store)

/-- Pin a buffer and queue a read of it into a destination. -/
def prepareCopy
    (store : Store)
    (token : Arena.Token)
    (destinationLength userData : Nat)
    (queued : Bool)
    (answers later : Answers) : Except Error Copy × Store :=
  match store.pin token answers with
  | (.error cause, store) => (.error cause, store)
  | (.ok pin, store) =>
      match store.pins.resolve pin with
      | none => store.abandonCopy pin .stalePin later
      | some node =>
          if destinationLength < node.metadata.extent then
            store.abandonCopy pin .destinationTooSmall later
          else
            match store.pools.resolve node.pool with
            | none => store.abandonCopy pin .stalePool later
            | some _ =>
                if !queued then
                  store.abandonCopy pin .submissionQueueFull later
                else
                  (.ok
                    { pin
                      expectedLength := node.metadata.extent
                      userData }, store)

/-- Release the pin of a copy whose read completed. -/
def completeCopy
    (store : Store)
    (copy : Copy)
    (userData : Nat)
    (result : Int)
    (answers : Answers) : Except Error Nat × Store :=
  if userData ≠ copy.userData then (.error .invalidCompletion, store)
  else
    match store.unpin copy.pin answers with
    | (.error cause, store) => (.error cause, store)
    | (.ok _, store) =>
        if result < 0 then (.error .copyFailed, store)
        else if result.toNat ≠ copy.expectedLength then
          (.error .shortRead, store)
        else (.ok result.toNat, store)

end Store

/-! ## Scoped access -/

/-- A thread's fault guard: the pool under access, how deeply accesses to it
nest, and whether a fault replaced its pages. -/
structure Guard where
  activePool : Option Nat := none
  depth : Nat := 0
  backingFaulted : Bool := false
  deriving DecidableEq, Repr

/-- An access handed out, and the addresses it exposes. -/
structure Access where
  pin : Arena.Token
  pool : Nat
  guarded : Bool
  active : Bool := true
  thread : Nat
  bytes : Mapping
  deriving DecidableEq, Repr

/-- The store, the guards of all threads, and the accesses handed out. -/
structure World where
  store : Store
  guards : Nat → Guard := fun _ => {}
  accesses : List Access := []

namespace World

/-- Change the access count of a pin. -/
def modifyPin
    (world : World)
    (index : Nat)
    (change : PinRecord → PinRecord) : World :=
  { world with store := { world.store with
      pins := world.store.pins.modify index change } }

/-- Expose the bytes of a pin. -/
def expose
    (world : World)
    (thread : Nat)
    (token : Arena.Token)
    (node : PinRecord)
    (pool : Pool)
    (guarded : Bool) : Except Error Unit × World :=
  let world := world.modifyPin token.index fun node =>
    { node with accessCount := node.accessCount + 1 }
  if node.metadata.stop ≤ pool.mapping.length then
    (.ok (),
      { world with
        accesses := world.accesses ++
          [{ pin := token
             pool := node.pool.index
             guarded, thread
             bytes :=
              { address := pool.mapping.address + node.metadata.offset
                length := node.metadata.extent } }] })
  else (.error .unreachable, world)

/-- Begin an access on a thread.  Pools whose file may shrink are guarded. -/
def beginAccess
    (world : World)
    (thread : Nat)
    (token : Arena.Token)
    (handlerReady : Bool) : Except Error Unit × World :=
  match world.store.pins.resolve token with
  | none => (.error .stalePin, world)
  | some node =>
      match world.store.pools.resolve node.pool with
      | none => (.error .stalePool, world)
      | some pool =>
          if pool.invalidBacking then (.error .invalidBacking, world)
          else if pool.sealedDirect then
            world.expose thread token node pool false
          else
            let guard := world.guards thread
            if guard.activePool.any fun active => active ≠ node.pool.index then
              (.error .accessConflict, world)
            else if !handlerReady then (.error .signalSetupFailed, world)
            else
              let guard :=
                if guard.activePool = none then
                  { guard with
                    activePool := some node.pool.index
                    backingFaulted := false }
                else guard
              { world with
                guards := Function.update world.guards thread
                  { guard with depth := guard.depth + 1 } }.expose thread token
                node pool true

/-- Mark an access ended. -/
def closeAccess (world : World) (index : Nat) (access : Access) : World :=
  { world with
    accesses := world.accesses.set index
      { access with active := false, bytes := {} } }

/-- End an access on the thread it began on. -/
def endAccess
    (world : World)
    (index : Nat)
    (access : Access) : Except Error Unit × World :=
  if !access.active then (.error .stalePin, world)
  else
    match world.store.pins.resolve access.pin with
    | none => (.error .stalePin, world)
    | some node =>
        if node.accessCount = 0 then (.error .unreachable, world)
        else
          let world := world.modifyPin access.pin.index fun node =>
            { node with accessCount := node.accessCount - 1 }
          if !access.guarded then (.ok (), world.closeAccess index access)
          else
            let guard := world.guards access.thread
            if guard.activePool ≠ some access.pool ∨ guard.depth = 0 then
              (.error .unreachable, world)
            else
              let guard := { guard with depth := guard.depth - 1 }
              let ended :=
                if guard.depth = 0 then
                  { guard with activePool := none, backingFaulted := false }
                else guard
              let world := { world with
                guards := Function.update world.guards access.thread ended }
              if guard.depth = 0 ∧ guard.backingFaulted then
                (.error .invalidBacking,
                  { world with
                    store := world.store.modifyPool access.pool fun pool =>
                      { pool with invalidBacking := true } }.closeAccess index
                    access)
              else (.ok (), world.closeAccess index access)

/-- A truncation fault: under a guard, the handler maps zero pages in place of
the lost ones and notes the fault.  Other faults are not the store's. -/
def fault (world : World) (thread : Nat) : World :=
  if (world.guards thread).activePool = none then world
  else
    { world with
      guards := Function.update world.guards thread
        { world.guards thread with backingFaulted := true } }

end World
end Shm
end Wayring
