import Wayring.Transport.Ancillary

/-!
# Transmit queue

Byte-budgeted queues over reactor-wide blocks.  A queue keeps a chain of
blocks and an independent ordered stream of descriptors; both are taken only
when there is room for both.
-/

namespace Wayring

/-- The pools that queues share. -/
structure Storage where
  blocks : SharedBlocks
  fds : SharedFds
  deriving DecidableEq, Repr

namespace Tx

/-- A range of one block. -/
structure Range where
  lease : BlockLease
  start : Nat
  stop : Nat
  deriving DecidableEq, Repr

/-- How long a range of a block is. -/
def Range.length (range : Range) : Nat := range.stop - range.start

/-- The bytes of a range, as they are in the block now. -/
def Range.read (range : Range) (blocks : SharedBlocks) : List UInt8 :=
  ((blocks.bytes range.lease).take range.stop).drop range.start

/-- At most the first two blocks, and the control record of all queued
descriptors. -/
structure Snapshot where
  first : Range
  second : Option Range
  control : List UInt8
  descriptorCount : Nat
  deriving DecidableEq, Repr

/-- How many bytes a snapshot offers. -/
def Snapshot.byteCount (snapshot : Snapshot) : Nat :=
  snapshot.first.length + (snapshot.second.map Range.length).getD 0

/-- What a snapshot sends. -/
def Snapshot.read (snapshot : Snapshot) (blocks : SharedBlocks) : List UInt8 :=
  snapshot.first.read blocks ++
    (snapshot.second.map fun range => range.read blocks).getD []

/-- A send in progress. -/
structure Flight where
  byteCount : Nat
  descriptorCount : Nat
  deriving DecidableEq, Repr

/-- What a connection has to send. -/
structure Queue where
  byteBudget : Nat
  head : Option BlockLease := none
  tail : Option BlockLease := none
  headOffset : Nat := 0
  tailUsed : Nat := 0
  byteCount : Nat := 0
  descriptors : FdQueue
  active : Option Flight := none
  reservationActive : Bool := false
  deriving DecidableEq, Repr

/-- Blocks reserved for a message that is being written. -/
structure Reservation where
  byteCount : Nat
  written : Nat := 0
  originalTail : Option BlockLease
  originalTailUsed : Nat
  tailSpace : Nat
  existingWritten : Nat := 0
  newHead : Option BlockLease
  newTail : Option BlockLease
  currentNew : Option BlockLease
  currentNewOffset : Nat := 0
  finalTailUsed : Nat
  finished : Bool := false
  deriving DecidableEq, Repr

/-- The allocations that a call finds memory for. -/
structure Room where
  blocks : Nat
  fds : Nat
  deriving DecidableEq, Repr

namespace Queue

/-- An empty queue. -/
def init (byteBudget descriptorBudget : Nat) : Queue where
  byteBudget
  descriptors := FdQueue.init descriptorBudget

/-- How many bytes are queued. -/
def queuedBytes (queue : Queue) : Nat := queue.byteCount

/-- Whether a send is in flight. -/
def sendActive (queue : Queue) : Bool := queue.active.isSome

/-- Room in the last block. -/
def tailSpace (queue : Queue) (blockSize : Nat) : Nat :=
  if queue.tail = none then 0 else blockSize - queue.tailUsed

/-- New blocks that some bytes need. -/
def blocksNeeded (queue : Queue) (blockSize byteCount : Nat) : Nat :=
  let tailSpace := queue.tailSpace blockSize
  (byteCount - min byteCount tailSpace + blockSize - 1) / blockSize

/-- Room for a message. -/
def ensureCapacity
    (queue : Queue)
    (storage : Storage)
    (byteCount descriptorCount : Nat)
    (room : Room) : Except Error Unit × Storage :=
  if queue.reservationActive then (.error .reservationActive, storage)
  else if byteCount > queue.byteBudget - queue.byteCount then
    (.error .byteBudgetExceeded, storage)
  else
    match queue.descriptors.ensureCapacity storage.fds descriptorCount
        room.fds with
    | (.error cause, fds) => (.error cause, { storage with fds })
    | (.ok _, fds) =>
        let (result, blocks) := storage.blocks.ensureAvailable
          (queue.blocksNeeded storage.blocks.blockSize byteCount) room.blocks
        (result, { blocks, fds })

/-- A last block that is not full. -/
def readyTail
    (queue : Queue)
    (blocks : SharedBlocks) : Except Error BlockLease × Queue × SharedBlocks :=
  match queue.tail with
  | none =>
      match blocks.acquire 0 with
      | (.error _, blocks) => (.error .unreachable, queue, blocks)
      | (.ok block, blocks) =>
          (.ok block,
            { queue with
              head := some block
              headOffset := 0
              tail := some block
              tailUsed := 0 }, blocks)
  | some tail =>
      if queue.tailUsed = blocks.blockSize then
        match blocks.acquire 0 with
        | (.error _, blocks) => (.error .unreachable, queue, blocks)
        | (.ok block, blocks) =>
            match blocks.link tail block with
            | (.error _, blocks) => (.error .unreachable, queue, blocks)
            | (.ok _, blocks) =>
                (.ok block, { queue with tail := some block, tailUsed := 0 },
                  blocks)
      else (.ok tail, queue, blocks)

/-- Copy bytes to the end of the chain, block by block.  Each round copies at
least one byte. -/
def appendBytes :
    Nat → List UInt8 → Queue → SharedBlocks →
      Except Error Unit × Queue × SharedBlocks
  | _, [], queue, blocks => (.ok (), queue, blocks)
  | 0, _ :: _, queue, blocks => (.error .unreachable, queue, blocks)
  | fuel + 1, remaining, queue, blocks =>
      match queue.readyTail blocks with
      | (.error cause, queue, blocks) => (.error cause, queue, blocks)
      | (.ok tail, queue, blocks) =>
          let count := min remaining.length (blocks.blockSize - queue.tailUsed)
          appendBytes fuel (remaining.drop count)
            { queue with tailUsed := queue.tailUsed + count }
            (blocks.copyInto tail queue.tailUsed (remaining.take count))

/-- Queue a message. -/
def enqueue
    (queue : Queue)
    (storage : Storage)
    (bytes : List UInt8)
    (descriptors : List Fd)
    (room : Room) : Except Error Unit × Queue × Storage :=
  if bytes = [] then (.error .emptyMessage, queue, storage)
  else
    match queue.ensureCapacity storage bytes.length descriptors.length room with
    | (.error cause, storage) => (.error cause, queue, storage)
    | (.ok _, storage) =>
        match appendBytes bytes.length bytes queue storage.blocks with
        | (.error cause, queue, blocks) =>
            (.error cause, queue, { storage with blocks })
        | (.ok _, queue, blocks) =>
            let (result, appended, fds) :=
              FdQueue.appendAll descriptors queue.descriptors storage.fds
            (result,
              { queue with
                byteCount := queue.byteCount + bytes.length
                descriptors := appended }, { blocks, fds })

/-! ## Reservations -/

/-- Release a chain of blocks.  There are at most as many as the pool has. -/
def releasePrivateChain :
    Nat → Option BlockLease → SharedBlocks → Except Error Unit × SharedBlocks
  | _, none, blocks => (.ok (), blocks)
  | 0, some _, blocks => (.error .unreachable, blocks)
  | fuel + 1, some block, blocks =>
      match blocks.nextLease block with
      | .error _ => (.error .unreachable, blocks)
      | .ok next =>
          match blocks.release block with
          | (.error _, blocks) => (.error .unreachable, blocks)
          | (.ok _, blocks) => releasePrivateChain fuel next blocks

/-- Acquire linked blocks after those acquired so far. -/
def acquireChain :
    Nat → Option BlockLease → Option BlockLease → SharedBlocks →
      Except Error Unit × Option BlockLease × Option BlockLease × SharedBlocks
  | 0, newHead, newTail, blocks => (.ok (), newHead, newTail, blocks)
  | count + 1, newHead, newTail, blocks =>
      match blocks.acquire 0 with
      | (.error cause, blocks) => (.error cause, newHead, newTail, blocks)
      | (.ok block, blocks) =>
          match newTail with
          | none => acquireChain count (some block) (some block) blocks
          | some tail =>
              match blocks.link tail block with
              | (.error cause, blocks) =>
                  (.error cause, newHead, newTail, blocks)
              | (.ok _, blocks) =>
                  acquireChain count newHead (some block) blocks

/-- Begin a message that is written in place. -/
def reserve
    (queue : Queue)
    (blocks : SharedBlocks)
    (byteCount room : Nat) :
    Except Error Reservation × Queue × SharedBlocks :=
  if queue.reservationActive then
    (.error .reservationActive, queue, blocks)
  else if byteCount = 0 then (.error .emptyMessage, queue, blocks)
  else if byteCount > queue.byteBudget - queue.byteCount then
    (.error .byteBudgetExceeded, queue, blocks)
  else
    let tailSpace := queue.tailSpace blocks.blockSize
    let newBytes := byteCount - min byteCount tailSpace
    let blocksNeeded := queue.blocksNeeded blocks.blockSize byteCount
    match if blocksNeeded ≠ 0 then blocks.ensureAvailable blocksNeeded room
      else (.ok (), blocks) with
    | (.error cause, blocks) => (.error cause, queue, blocks)
    | (.ok _, blocks) =>
        match acquireChain blocksNeeded none none blocks with
        | (.error cause, newHead, _, blocks) =>
            match releasePrivateChain blocks.pool.nodes.length newHead
                blocks with
            | (.error cause, blocks) => (.error cause, queue, blocks)
            | (.ok _, blocks) => (.error cause, queue, blocks)
        | (.ok _, newHead, newTail, blocks) =>
            (.ok
              { byteCount
                originalTail := queue.tail
                originalTailUsed := queue.tailUsed
                tailSpace, newHead, newTail
                currentNew := newHead
                finalTailUsed :=
                  if newBytes = 0 then queue.tailUsed + byteCount
                  else if newBytes % blocks.blockSize = 0 then blocks.blockSize
                  else newBytes % blocks.blockSize },
              { queue with reservationActive := true }, blocks)

/-! ## Sends -/

/-- Where the bytes of a block end. -/
def blockEnd (queue : Queue) (blockSize : Nat) (lease : BlockLease) : Nat :=
  match queue.tail with
  | some tail => if lease.index = tail.index then queue.tailUsed else blockSize
  | none => blockSize

/-- What to send next. -/
def snapshot
    (queue : Queue)
    (storage : Storage)
    [Native]
    (scratchLength controlLength : Nat) : Except Error Snapshot :=
  if queue.reservationActive then .error .reservationActive
  else
    match queue.head with
    | none => .error .emptyMessage
    | some head =>
        if queue.descriptors.count > scratchLength then
          .error .descriptorBudgetExceeded
        else
          let blockSize := storage.blocks.blockSize
          let first : Range :=
            { lease := head
              start := queue.headOffset
              stop := queue.blockEnd blockSize head }
          match storage.blocks.nextLease head with
          | .error cause => .error cause
          | .ok next =>
              let second := next.map fun next : BlockLease =>
                { lease := next
                  start := 0
                  stop := queue.blockEnd blockSize next : Range }
              if queue.descriptors.count > 0 then
                match queue.descriptors.copyTo storage.fds scratchLength with
                | .error cause => .error cause
                | .ok copied =>
                    match Ancillary.encodeRights controlLength copied with
                    | .error cause => .error cause
                    | .ok control =>
                        .ok
                          { first, second, control
                            descriptorCount := queue.descriptors.count }
              else
                .ok { first, second, control := [], descriptorCount := 0 }

/-- Appending stays valid while a snapshot is in flight. -/
def begin (queue : Queue) (snapshot : Snapshot) : Except Error Queue :=
  if queue.reservationActive then .error .reservationActive
  else if queue.sendActive then .error .sendAlreadyActive
  else if snapshot.byteCount = 0 ∨ snapshot.byteCount > queue.byteCount ∨
      snapshot.descriptorCount > queue.descriptors.count then
    .error .invalidCompletion
  else
    let flight : Flight :=
      { byteCount := snapshot.byteCount
        descriptorCount := snapshot.descriptorCount }
    .ok { queue with active := some flight }

/-- Drop sent bytes from the front of the chain.  Each round but the last
releases a block. -/
def consume :
    Nat → Nat → Queue → SharedBlocks → Except Error Unit × Queue × SharedBlocks
  | _, 0, queue, blocks => (.ok (), queue, blocks)
  | 0, _ + 1, queue, blocks => (.error .unreachable, queue, blocks)
  | fuel + 1, remaining, queue, blocks =>
      match queue.head with
      | none => (.error .invalidCompletion, queue, blocks)
      | some head =>
          let stop := queue.blockEnd blocks.blockSize head
          let available := stop - queue.headOffset
          if remaining < available then
            (.ok (), { queue with headOffset := queue.headOffset + remaining },
              blocks)
          else
            match blocks.nextLease head with
            | .error cause => (.error cause, queue, blocks)
            | .ok next =>
                match blocks.release head with
                | (.error cause, blocks) => (.error cause, queue, blocks)
                | (.ok _, blocks) =>
                    consume fuel (remaining - available)
                      (if next = none then
                        { queue with
                          head := none
                          headOffset := 0
                          tail := none
                          tailUsed := 0 }
                      else { queue with head := next, headOffset := 0 })
                      blocks

/-- Sent bytes leave the queue, and so do all descriptors of the send, which
the kernel passed on with its first byte.  The result lists the closed ones. -/
def complete
    (queue : Queue)
    (storage : Storage)
    (written : Nat) : Except Error (List Fd) × Queue × Storage :=
  if queue.reservationActive then
    (.error .reservationActive, queue, storage)
  else
    match queue.active with
    | none => (.error .noSendActive, queue, storage)
    | some active =>
        if written = 0 ∨ written > active.byteCount then
          (.error .invalidCompletion, queue, storage)
        else
          match consume (storage.blocks.pool.nodes.length + 1) written queue
              storage.blocks with
          | (.error cause, queue, blocks) =>
              (.error cause, queue, { storage with blocks })
          | (.ok _, queue, blocks) =>
              let queue := { queue with byteCount := queue.byteCount - written }
              match FdQueue.popAndClose active.descriptorCount
                  queue.descriptors storage.fds with
              | (.error cause, descriptors, fds) =>
                  (.error cause, { queue with descriptors }, { blocks, fds })
              | (.ok closed, descriptors, fds) =>
                  (.ok closed, { queue with descriptors, active := none },
                    { blocks, fds })

/-- The send in flight failed; everything stays queued. -/
def failed (queue : Queue) : Except Error Queue :=
  if queue.reservationActive then .error .reservationActive
  else if !queue.sendActive then .error .noSendActive
  else .ok { queue with active := none }

/-- Release all blocks and close all descriptors. -/
def deinit
    (queue : Queue)
    (storage : Storage) : Except Error (List Fd) × Storage :=
  if queue.reservationActive then (.error .unreachable, storage)
  else
    match releasePrivateChain storage.blocks.pool.nodes.length queue.head
        storage.blocks with
    | (.error cause, blocks) => (.error cause, { storage with blocks })
    | (.ok _, blocks) =>
        let (result, _, fds) := queue.descriptors.deinit storage.fds
        (result, { blocks, fds })

end Queue

namespace Reservation

/-- Copy bytes into the reserved blocks.  Each round copies at least one
byte. -/
def writeNew :
    Nat → List UInt8 → Reservation → SharedBlocks →
      Except Error Unit × Reservation × SharedBlocks
  | _, [], reservation, blocks => (.ok (), reservation, blocks)
  | 0, _ :: _, reservation, blocks => (.error .unreachable, reservation, blocks)
  | fuel + 1, remaining, reservation, blocks =>
      match reservation.currentNew with
      | none => (.error .reservationOverflow, reservation, blocks)
      | some block =>
          let count := min remaining.length
            (blocks.blockSize - reservation.currentNewOffset)
          let blocks := blocks.copyInto block reservation.currentNewOffset
            (remaining.take count)
          let reservation := { reservation with
            currentNewOffset := reservation.currentNewOffset + count
            written := reservation.written + count }
          if reservation.currentNewOffset = blocks.blockSize then
            match blocks.nextLease block with
            | .error cause => (.error cause, reservation, blocks)
            | .ok next =>
                writeNew fuel (remaining.drop count)
                  { reservation with
                    currentNew := next
                    currentNewOffset := 0 }
                  blocks
          else writeNew fuel (remaining.drop count) reservation blocks

/-- Write the next bytes of the message: first behind the queue's last byte,
then into the new blocks. -/
def write
    (reservation : Reservation)
    (blocks : SharedBlocks)
    (bytes : List UInt8) : Except Error Unit × Reservation × SharedBlocks :=
  if reservation.finished ∨
      bytes.length > reservation.byteCount - reservation.written then
    (.error .reservationOverflow, reservation, blocks)
  else
    match reservation.originalTail with
    | none => writeNew bytes.length bytes reservation blocks
    | some tail =>
        let count := min bytes.length
          (reservation.tailSpace - reservation.existingWritten)
        writeNew (bytes.drop count).length (bytes.drop count)
          { reservation with
            existingWritten := reservation.existingWritten + count
            written := reservation.written + count }
          (blocks.copyInto tail
            (reservation.originalTailUsed + reservation.existingWritten)
            (bytes.take count))

/-- Link the new blocks behind the queue's last one. -/
def publish
    (reservation : Reservation)
    (queue : Queue)
    (blocks : SharedBlocks) : Except Error Unit × Queue × SharedBlocks :=
  match reservation.newHead with
  | none => (.ok (), { queue with tail := reservation.originalTail }, blocks)
  | some newHead =>
      match reservation.originalTail with
      | none =>
          (.ok (),
            { queue with
              head := some newHead
              tail := reservation.newTail }, blocks)
      | some tail =>
          match blocks.link tail newHead with
          | (.error cause, blocks) => (.error cause, queue, blocks)
          | (.ok _, blocks) =>
              (.ok (), { queue with tail := reservation.newTail }, blocks)

/-- Publish the message and its descriptors. -/
def commit
    (reservation : Reservation)
    (queue : Queue)
    (storage : Storage)
    (descriptors : List Fd)
    (room : Nat) : Except Error Unit × Reservation × Queue × Storage :=
  if reservation.finished ∨ reservation.written ≠ reservation.byteCount then
    (.error .invalidCompletion, reservation, queue, storage)
  else
    match if descriptors.length ≠ 0 then
        queue.descriptors.ensureCapacity storage.fds descriptors.length room
      else (.ok (), storage.fds) with
    | (.error cause, fds) =>
        (.error cause, reservation, queue, { storage with fds })
    | (.ok _, fds) =>
        match reservation.publish queue storage.blocks with
        | (.error cause, _, blocks) =>
            (.error cause, reservation, queue, { blocks, fds })
        | (.ok _, queue, blocks) =>
            let (result, appended, fds) :=
              FdQueue.appendAll descriptors queue.descriptors fds
            (result,
              { reservation with finished := true, newHead := none },
              { queue with
                tailUsed := reservation.finalTailUsed
                byteCount := queue.byteCount + reservation.byteCount
                descriptors := appended
                reservationActive := false },
              { blocks, fds })

/-- Give the reserved blocks back. -/
def abort
    (reservation : Reservation)
    (queue : Queue)
    (blocks : SharedBlocks) :
    Except Error Unit × Reservation × Queue × SharedBlocks :=
  if reservation.finished then (.ok (), reservation, queue, blocks)
  else
    let (result, blocks) := Queue.releasePrivateChain blocks.pool.nodes.length
      reservation.newHead blocks
    (result, { reservation with finished := true, newHead := none },
      { queue with reservationActive := false }, blocks)

end Reservation
end Tx
end Wayring
