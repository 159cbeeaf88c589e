import Wayring.Transport.Pools
import Wayring.Transport.Wire

/-!
# Ancillary descriptors

Ordered ownership of descriptors, and the control records that carry them
between processes.
-/

namespace Wayring

/-- A first-in first-out queue of descriptors with a budget. -/
structure FdQueue where
  budget : Nat
  head : Option FdLease := none
  tail : Option FdLease := none
  count : Nat := 0
  deriving DecidableEq, Repr

namespace FdQueue

/-- An empty queue. -/
def init (budget : Nat) : FdQueue := { budget }

/-- How many descriptors the budget leaves. -/
def available (queue : FdQueue) : Nat := queue.budget - queue.count

/-- Room for a number of descriptors. -/
def ensureCapacity
    (queue : FdQueue)
    (fds : SharedFds)
    (count room : Nat) : Except Error Unit × SharedFds :=
  if count > queue.available then (.error .descriptorBudgetExceeded, fds)
  else fds.ensureAvailable count room

/-- Give the oldest descriptor to the caller. -/
def pop
    (queue : FdQueue)
    (fds : SharedFds) : Except Error Fd × FdQueue × SharedFds :=
  if queue.count = 0 then (.error .empty, queue, fds)
  else
    match queue.head with
    | none => (.error .unreachable, queue, fds)
    | some head =>
        match fds.nextLease head with
        | .error cause => (.error cause, queue, fds)
        | .ok next =>
            match fds.take head with
            | (.error cause, fds) =>
                (.error cause, { queue with head := next }, fds)
            | (.ok fd, fds) =>
                (.ok fd,
                  { queue with
                    head := next
                    tail := if next = none then none else queue.tail
                    count := queue.count - 1 },
                  fds)

/-- Pop and close some descriptors. -/
def popAndClose :
    Nat → FdQueue → SharedFds → Except Error (List Fd) × FdQueue × SharedFds
  | 0, queue, fds => (.ok [], queue, fds)
  | count + 1, queue, fds =>
      match queue.pop fds with
      | (.error cause, queue, fds) => (.error cause, queue, fds)
      | (.ok fd, queue, fds) =>
          let (result, queue, fds) := popAndClose count queue fds
          (result.map (fd :: ·), queue, fds)

/-- Close descriptors from the front.  The result lists them. -/
def discard
    (queue : FdQueue)
    (fds : SharedFds)
    (count : Nat) : Except Error (List Fd) × FdQueue × SharedFds :=
  if queue.count < count then (.error .empty, queue, fds)
  else popAndClose count queue fds

/-- Close all descriptors. -/
def deinit
    (queue : FdQueue)
    (fds : SharedFds) : Except Error (List Fd) × FdQueue × SharedFds :=
  popAndClose queue.count queue fds

/-- Queue a descriptor. -/
def append
    (queue : FdQueue)
    (fds : SharedFds)
    (fd : Fd)
    (room : Nat) : Except Error Unit × FdQueue × SharedFds :=
  match queue.ensureCapacity fds 1 room with
  | (.error cause, fds) => (.error cause, queue, fds)
  | (.ok _, fds) =>
      match fds.acquire fd room with
      | (.error cause, fds) => (.error cause, queue, fds)
      | (.ok lease, fds) =>
          match queue.tail with
          | none =>
              (.ok (),
                { queue with
                  head := some lease
                  tail := some lease
                  count := queue.count + 1 }, fds)
          | some tail =>
              match fds.link tail lease with
              | (.error cause, fds) => (.error cause, queue, (fds.take lease).2)
              | (.ok _, fds) =>
                  (.ok (),
                    { queue with
                      tail := some lease
                      count := queue.count + 1 }, fds)

/-- Append descriptors that are known to fit. -/
def appendAll :
    List Fd → FdQueue → SharedFds → Except Error Unit × FdQueue × SharedFds
  | [], queue, fds => (.ok (), queue, fds)
  | fd :: rest, queue, fds =>
      match queue.append fds fd 0 with
      | (.error _, queue, fds) => (.error .unreachable, queue, fds)
      | (.ok _, queue, fds) => appendAll rest queue fds

/-- Follow the links from an entry.  A chain of another length is broken. -/
def collect (fds : SharedFds) : Nat → Option FdLease → Except Error (List Fd)
  | 0, none => .ok []
  | count + 1, some lease =>
      match fds.nextLease lease with
      | .error cause => .error cause
      | .ok next => (collect fds count next).map (lease.key :: ·)
  | _, _ => .error .unreachable

/-- All descriptors, if there is room for them. -/
def copyTo
    (queue : FdQueue)
    (fds : SharedFds)
    (destinationLength : Nat) : Except Error (List Fd) :=
  if destinationLength < queue.count then .error .descriptorBudgetExceeded
  else collect fds queue.count queue.head

end FdQueue

namespace Ancillary

/-- The size of a control record's header: its length, level, and type. -/
def headerSize : Nat := 16

/-- A length rounded up to the alignment of control records. -/
def cmsgAlign (length : Nat) : Nat := (length + 7) / 8 * 8

/-- Where the data of a control record starts. -/
def cmsgDataOffset : Nat := cmsgAlign headerSize

/-- The level of records for sockets. -/
def solSocket : Nat := 1

/-- The type of records that carry descriptors. -/
def scmRights : Nat := 1

/-- The size of a record with a number of descriptors. -/
def rightsControlSize (fdCount : Nat) : Except Error Nat :=
  if fdCount = 0 then .ok 0
  else if fdCount * 4 ≥ usizeLimit then .error .overflow
  else if cmsgDataOffset + fdCount * 4 ≥ usizeLimit then .error .overflow
  else .ok (cmsgAlign (cmsgDataOffset + fdCount * 4))

variable [Native]

/-- One record of descriptors. -/
def encodeRights
    (storageLength : Nat)
    (fds : List Fd) : Except Error (List UInt8) :=
  if fds = [] then .error .malformedControl
  else
    match rightsControlSize fds.length with
    | .error cause => .error cause
    | .ok space =>
        if storageLength < space then .error .controlBufferTooSmall
        else
          let used := cmsgDataOffset + fds.length * 4
          .ok (Wire.writeWord 8 used ++ Wire.writeWord 4 solSocket ++
            Wire.writeWord 4 scmRights ++
            fds.flatMap (fun fd => Wire.writeWord 4 fd.toNat) ++
            List.replicate (space - used) 0)

/-- What is left to read of the control records, and of the descriptors of the
last one read. -/
structure RightsIterator where
  records : List UInt8
  rights : List UInt8 := []
  deriving DecidableEq, Repr

namespace RightsIterator

/-- The next descriptor.  Each round reads one record, so there are at most as
many rounds as bytes. -/
def nextWithin :
    Nat → RightsIterator → Except Error (Option (Fd × RightsIterator))
  | 0, _ => .error .unreachable
  | fuel + 1, iterator =>
      if iterator.rights ≠ [] then
        .ok (some
          (UInt32.ofNat (Wire.readU32 iterator.rights),
            { iterator with rights := iterator.rights.drop 4 }))
      else if iterator.records = [] then .ok none
      else if iterator.records.length < headerSize then
        .error .malformedControl
      else
        let record := iterator.records
        let length := Wire.readWord (record.take 8)
        let level := Wire.readWord ((record.drop 8).take 4)
        let type := Wire.readWord ((record.drop 12).take 4)
        if length < cmsgDataOffset ∨ length > record.length then
          .error .malformedControl
        else
          let alignedLength := cmsgAlign length
          if alignedLength > record.length ∧ length ≠ record.length then
            .error .malformedControl
          else
            let records := record.drop (min alignedLength record.length)
            if level ≠ solSocket ∨ type ≠ scmRights then
              nextWithin fuel { records, rights := [] }
            else
              let data := (record.take length).drop cmsgDataOffset
              if data.length = 0 ∨ data.length % 4 ≠ 0 then
                .error .malformedControl
              else nextWithin fuel { records, rights := data }

/-- The next descriptor of the control records. -/
def next (iterator : RightsIterator) :
    Except Error (Option (Fd × RightsIterator)) :=
  nextWithin (iterator.records.length + 2) iterator

/-- All descriptors up to the end or to the first malformed record.  Every
descriptor takes four bytes. -/
def collectWithin :
    Nat → RightsIterator → List Fd × Except Error Unit
  | 0, _ => ([], .error .unreachable)
  | fuel + 1, iterator =>
      match iterator.next with
      | .error cause => ([], .error cause)
      | .ok none => ([], .ok ())
      | .ok (some (fd, iterator)) =>
          let (fds, result) := collectWithin fuel iterator
          (fd :: fds, result)

/-- All descriptors of the control records. -/
def collect (control : List UInt8) : List Fd × Except Error Unit :=
  collectWithin (control.length + 1) { records := control }

end RightsIterator

/-- Close the descriptors of all records, or of those before a malformed one.
The result lists them. -/
def closeRights (control : List UInt8) : List Fd :=
  (RightsIterator.collect control).1

/-- Take the descriptors of all records into a queue, or close them.  The
second result lists the closed ones. -/
def enqueueRights
    (control : List UInt8)
    (queue : FdQueue)
    (fds : SharedFds)
    (room : Nat) : Except Error Nat × List Fd × FdQueue × SharedFds :=
  match RightsIterator.collect control with
  | (_, .error cause) => (.error cause, closeRights control, queue, fds)
  | (rights, .ok _) =>
      if rights.length = 0 then (.ok 0, [], queue, fds)
      else
        match queue.ensureCapacity fds rights.length room with
        | (.error cause, fds) =>
            (.error cause, closeRights control, queue, fds)
        | (.ok _, fds) =>
            match FdQueue.appendAll rights queue fds with
            | (.error cause, queue, fds) =>
                (.error cause, closeRights control, queue, fds)
            | (.ok _, queue, fds) => (.ok rights.length, [], queue, fds)

end Ancillary
end Wayring
