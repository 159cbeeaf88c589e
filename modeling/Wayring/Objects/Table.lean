import Wayring.Error
import Wayring.Foundation.Generation
import Wayring.Foundation.LinearProbing

/-!
# Object tables

Open-addressed storage from IDs to values, bounded or growable.  A slot whose
ID is zero is empty in the source; here it is `none`.  Slot indices come from
Fibonacci hashing, the cyclic step is a mask, and deletion shifts later
entries of a run back.
-/

namespace Wayring

/-- An ID together with the generation its object was inserted under. -/
structure Handle where
  id : Nat
  generation : Nat
  deriving DecidableEq, Repr

/-- The value of a `usize` multiplication's bound. -/
def usizeLimit : Nat := 2 ^ 64

/-- The largest `u32`. -/
def maxU32 : Nat := 2 ^ 32 - 1

/-- Advance a `u32` generation counter, skipping zero when it wraps. -/
def nextGeneration (generation : Nat) : Nat :=
  Generation.next (2 ^ 32) generation

namespace Table

/-- One occupied slot. -/
structure Slot (Value : Type) where
  id : Nat
  generation : Nat
  value : Value
  deriving DecidableEq, Repr

end Table

/-- Open-addressed storage.  `growth` records whether the table has an
allocator to double with. -/
structure Table (Value : Type) where
  slots : List (Option (Table.Slot Value))
  maxEntries : Nat
  count : Nat := 0
  nextGeneration : Nat := 1
  growth : Bool := false
  deriving DecidableEq, Repr

namespace Table

variable {Value : Type}

/-- The least power of two that is at least `value`, a shift by the bit length
of its predecessor. -/
def ceilPowerOfTwo (value : Nat) : Nat :=
  if value ≤ 1 then 1 else 2 ^ (Nat.log2 (value - 1) + 1)

/-- Slots allocated for a logical capacity: a power of two that leaves a
quarter of them empty. -/
def slotCount (maxEntries : Nat) : Except Error Nat :=
  let scaled := maxEntries * 4
  if usizeLimit ≤ scaled then .error .capacityOverflow
  else
    let minimumSlots := (scaled + 2) / 3
    let rounded := ceilPowerOfTwo (max minimumSlots 2)
    if usizeLimit ≤ rounded then .error .capacityOverflow
    else .ok rounded

/-- Home slot of an ID: the top bits of a 64-bit multiplicative hash. -/
def home (length id : Nat) : Nat :=
  let mixed := id * 0x9e3779b97f4a7c15 % 2 ^ 64
  let bits := Nat.log2 length
  mixed >>> (63 - (bits - 1))

/-- The slot after `index`. -/
def next (length index : Nat) : Nat :=
  (index + 1) &&& (length - 1)

/-- Forward steps from an entry's home to a slot, with wrapping `usize`
subtraction. -/
def probeDistance (capacity home index : Nat) : Nat :=
  ((index + usizeLimit - home) % usizeLimit) &&& (capacity - 1)

/-- A table of a fixed logical capacity. -/
def init (maxEntries : Nat) (granted : Bool) : Except Error (Table Value) :=
  if maxEntries = 0 ∨ maxEntries > maxU32 then .error .invalidConfig
  else do
    let length ← slotCount maxEntries
    if granted then
      .ok { slots := List.replicate length none, maxEntries }
    else .error .outOfMemory

/-- A table whose capacity doubles when it is full. -/
def initGrowable
    (initialEntries : Nat)
    (granted : Bool) : Except Error (Table Value) := do
  let table ← init initialEntries granted
  .ok { table with growth := true }

/-- Follow the probe sequence of an ID to the ID or to an empty slot. -/
def probe
    (slots : List (Option (Slot Value)))
    (id : Nat) : LinearProbing.Probe :=
  LinearProbing.probe (next slots.length) (fun slot => slot.id == id) slots
    slots.length (home slots.length id)

/-- Follow the probe sequence of an ID to an empty slot, whatever it passes. -/
def probeVacant
    (slots : List (Option (Slot Value)))
    (id : Nat) : LinearProbing.Probe :=
  LinearProbing.probe (next slots.length) (fun _ => false) slots
    slots.length (home slots.length id)

/-- The slot that holds an ID. -/
def find (table : Table Value) (id : Nat) : Option Nat :=
  if id = 0 then none
  else
    match probe table.slots id with
    | .hit index => some index
    | _ => none

/-- The slot contents stored under an ID. -/
def lookup (table : Table Value) (id : Nat) : Option (Slot Value) :=
  (table.find id).bind (LinearProbing.entryAt table.slots)

/-- The value stored under an ID. -/
def get (table : Table Value) (id : Nat) : Option Value :=
  (table.lookup id).map Slot.value

/-- The value a handle still denotes. -/
def resolve (table : Table Value) (handle : Handle) : Option Value := do
  let slot ← table.lookup handle.id
  if slot.generation ≠ handle.generation then none else some slot.value

/-- The current handle of an ID. -/
def lookupHandle (table : Table Value) (id : Nat) : Option Handle := do
  let slot ← table.lookup id
  some { id, generation := slot.generation }

/-- Place one slot of the old storage into the new one. -/
def rehash
    (slots : List (Option (Slot Value))) :
    Option (Slot Value) → List (Option (Slot Value))
  | none => slots
  | some slot =>
      match probeVacant slots slot.id with
      | .vacant index => slots.set index (some slot)
      | _ => slots

/-- Rehash into a table of twice the logical capacity. -/
def grow (table : Table Value) (granted : Bool) : Except Error (Table Value) :=
  if table.maxEntries = maxU32 then .error .full
  else do
    let maxEntries := min (table.maxEntries * 2) maxU32
    let length ← slotCount maxEntries
    if granted then
      .ok { table with
        slots := table.slots.foldl rehash (List.replicate length none)
        maxEntries }
    else .error .outOfMemory

/-- Store a value in a known empty slot under the next generation. -/
def place
    (table : Table Value)
    (index id : Nat)
    (value : Value) : Handle × Table Value :=
  let generation := table.nextGeneration
  ({ id, generation },
    { table with
      slots := table.slots.set index (some { id, generation, value })
      nextGeneration := Wayring.nextGeneration generation
      count := table.count + 1 })

/-- Insert a new ID.  A full growable table doubles first; a failure leaves
the table alone. -/
def insert
    (table : Table Value)
    (id : Nat)
    (value : Value)
    (granted : Bool) : Except Error (Handle × Table Value) :=
  if id = 0 then .error .invalidId
  else
    match probe table.slots id with
    | .hit _ => .error .duplicateId
    | .exhausted => .error .full
    | .vacant index =>
        if table.count = table.maxEntries then
          if table.growth then do
            let table ← table.grow granted
            match probeVacant table.slots id with
            | .vacant index => .ok (table.place index id value)
            | _ => .error .full
          else .error .full
        else .ok (table.place index id value)

/-- Empty a slot and shift the rest of its run back. -/
def closeHole
    (slots : List (Option (Slot Value)))
    (hole : Nat) : List (Option (Slot Value)) :=
  LinearProbing.closeHole (next slots.length) (probeDistance slots.length)
    (fun slot => home slots.length slot.id) slots.length slots hole
    (next slots.length hole)

/-- Remove the object of an ID. -/
def remove (table : Table Value) (id : Nat) : Option (Value × Table Value) := do
  let index ← table.find id
  let slot ← LinearProbing.entryAt table.slots index
  some (slot.value,
    { table with
      slots := closeHole table.slots index
      count := table.count - 1 })

/-- Remove the object a handle denotes. -/
def removeHandle
    (table : Table Value)
    (handle : Handle) : Option (Value × Table Value) := do
  let index ← table.find handle.id
  let slot ← LinearProbing.entryAt table.slots index
  if slot.generation ≠ handle.generation then none
  else
    some (slot.value,
      { table with
        slots := closeHole table.slots index
        count := table.count - 1 })

/-- Write through the value pointer of an ID. -/
def modify
    (table : Table Value)
    (id : Nat)
    (change : Value → Value) : Table Value :=
  match table.find id with
  | none => table
  | some index =>
      match LinearProbing.entryAt table.slots index with
      | none => table
      | some slot =>
          { table with
            slots := table.slots.set index
              (some { slot with value := change slot.value }) }

end Table
end Wayring
