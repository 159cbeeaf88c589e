import Wayring.Error
import Wayring.Foundation.LeasePool
import Wayring.Foundation.Segments
import Wayring.Objects.Table

/-!
# Shared pools

Reactor-wide storage shared by all connections: byte blocks for transmit
queues and fragments, and entries for queued descriptors.  Reserves grow on
demand.  `room` is how many allocations a call finds memory for.
-/

namespace Wayring

open LeasePool (Lease Failure)

/-- A claim on a byte block. -/
abbrev BlockLease := Lease Unit

/-- A file descriptor, as the bits of the source's signed word. -/
abbrev Fd := UInt32

/-- A claim on a descriptor entry, which holds the descriptor. -/
abbrev FdLease := Lease Fd

/-- The end of the free list. -/
def freeSentinel : Nat := maxU32

/-- Pool errors under the source's names. -/
def poolError : Failure → Error
  | .overflow => .capacityOverflow
  | .denied => .outOfMemory
  | .stale => .staleLease
  | .linked => .invalidConfig
  | .broken => .unreachable

/-- Byte blocks of one size. -/
structure SharedBlocks where
  blockSize : Nat
  pool : LeasePool (List UInt8) := {}
  deriving DecidableEq, Repr

namespace SharedBlocks

/-- How many blocks are free. -/
def available (blocks : SharedBlocks) : Nat := blocks.pool.available

/-- A new block.  Bytes are written before they are read. -/
def newBlock (blocks : SharedBlocks) : List UInt8 :=
  List.replicate blocks.blockSize 0

/-- Have a number of free blocks. -/
def ensureAvailable
    (blocks : SharedBlocks)
    (count room : Nat) : Except Error Unit × SharedBlocks :=
  let (result, pool) :=
    blocks.pool.ensureAvailable freeSentinel blocks.newBlock count room
  (result.mapError poolError, { blocks with pool })

/-- A pool of blocks of one size. -/
def init (blockSize blockCount room : Nat) : Except Error SharedBlocks :=
  if blockSize = 0 ∨ blockCount = 0 ∨ blockCount > freeSentinel then
    .error .invalidConfig
  else if blockSize * blockCount ≥ usizeLimit then .error .capacityOverflow
  else
    match ensureAvailable { blockSize } blockCount room with
    | (.error cause, _) => .error cause
    | (.ok _, blocks) => .ok blocks

/-- Lease a block. -/
def acquire
    (blocks : SharedBlocks)
    (room : Nat) : Except Error BlockLease × SharedBlocks :=
  let (result, pool) :=
    blocks.pool.acquire freeSentinel (2 ^ 32) (fun _ => ()) blocks.newBlock id
      room
  (result.mapError poolError, { blocks with pool })

/-- Give a block back. -/
def release
    (blocks : SharedBlocks)
    (lease : BlockLease) : Except Error Unit × SharedBlocks :=
  let (result, pool) := blocks.pool.release (fun _ => ()) lease
  (result.mapError poolError, { blocks with pool })

/-- Put a block behind another. -/
def link
    (blocks : SharedBlocks)
    (source target : BlockLease) : Except Error Unit × SharedBlocks :=
  let (result, pool) := blocks.pool.link (fun _ => ()) source target
  (result.mapError poolError, { blocks with pool })

/-- The block behind a block. -/
def nextLease
    (blocks : SharedBlocks)
    (lease : BlockLease) : Except Error (Option BlockLease) :=
  (blocks.pool.nextLease (fun _ => ()) lease).mapError poolError

/-- The bytes of a block. -/
def bytes (blocks : SharedBlocks) (lease : BlockLease) : List UInt8 :=
  ((blocks.pool.nodes[lease.index]?).map LeasePool.Node.content).getD []

/-- Copy bytes into a block. -/
def copyInto
    (blocks : SharedBlocks)
    (lease : BlockLease)
    (start : Nat)
    (new : List UInt8) : SharedBlocks :=
  { blocks with
    pool := blocks.pool.write lease.index fun items =>
      Segments.overwrite items start new }

end SharedBlocks

/-- Descriptor entries.  The pool owns a descriptor from `acquire` until `take`
returns it. -/
structure SharedFds where
  pool : LeasePool Fd := {}
  deriving DecidableEq, Repr

namespace SharedFds

/-- The descriptor of an entry that was never used. -/
def noFd : Fd := UInt32.ofNat (2 ^ 32 - 1)

/-- How many entries are free. -/
def available (fds : SharedFds) : Nat := fds.pool.available

/-- Have a number of free entries. -/
def ensureAvailable
    (fds : SharedFds)
    (count room : Nat) : Except Error Unit × SharedFds :=
  let (result, pool) := fds.pool.ensureAvailable freeSentinel noFd count room
  (result.mapError poolError, { pool })

/-- A pool of entries for descriptors. -/
def init (capacity room : Nat) : Except Error SharedFds :=
  if capacity = 0 ∨ capacity > freeSentinel then .error .invalidConfig
  else
    match ensureAvailable {} capacity room with
    | (.error cause, _) => .error cause
    | (.ok _, fds) => .ok fds

/-- Lease an entry for a descriptor. -/
def acquire
    (fds : SharedFds)
    (fd : Fd)
    (room : Nat) : Except Error FdLease × SharedFds :=
  let (result, pool) :=
    fds.pool.acquire freeSentinel (2 ^ 32) id noFd (fun _ => fd) room
  (result.mapError poolError, { pool })

/-- Release an entry, and give its descriptor to the caller. -/
def take
    (fds : SharedFds)
    (lease : FdLease) : Except Error Fd × SharedFds :=
  let (result, pool) := fds.pool.release id lease
  ((result.map fun _ => lease.key).mapError poolError, { pool })

/-- Put an entry behind another. -/
def link
    (fds : SharedFds)
    (source target : FdLease) : Except Error Unit × SharedFds :=
  let (result, pool) := fds.pool.link id source target
  (result.mapError poolError, { pool })

/-- The entry behind an entry. -/
def nextLease
    (fds : SharedFds)
    (lease : FdLease) : Except Error (Option FdLease) :=
  (fds.pool.nextLease id lease).mapError poolError

end SharedFds
end Wayring
