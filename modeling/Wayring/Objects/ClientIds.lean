import Mathlib.Tactic
import Wayring.Foundation.Chain
import Wayring.Objects.Namespace

/-!
# Client IDs

The reuse protocol of IDs created by a client.  An entry holds a state
sentinel while its ID is in use and the index of the next free entry while it
is free, so the free list costs no storage.
-/

namespace Wayring

/-- The ID tracker of a client.  `growth` records whether it may reallocate. -/
structure ClientIds where
  entries : List Nat
  nextIndex : Nat := 0
  freeHead : Nat := maxU32 - 3
  growth : Bool := false
  deriving DecidableEq, Repr

namespace ClientIds

/-- The mark of an ID that was never handed out. -/
def neverUsed : Nat := maxU32

/-- The mark of an ID in use. -/
def active : Nat := neverUsed - 1

/-- The mark of an ID whose `delete_id` is awaited. -/
def awaitingDelete : Nat := neverUsed - 2

/-- The end of the free list. -/
def noFreeId : Nat := neverUsed - 3

/-- How many IDs the client range holds. -/
def idSpace : Nat := serverIdStart - 2

/-- A fixed number of IDs. -/
def init (maxIds : Nat) (granted : Bool) : Except Error ClientIds :=
  if maxIds = 0 ∨ maxIds > idSpace then .error .invalidConfig
  else if granted then .ok { entries := List.replicate maxIds neverUsed }
  else .error .outOfMemory

/-- A number of IDs that may grow. -/
def initGrowable (initialIds : Nat) (granted : Bool) :
    Except Error ClientIds := do
  let ids ← init initialIds granted
  .ok { ids with growth := true }

/-- The content of an entry. -/
def entry (ids : ClientIds) (index : Nat) : Nat :=
  ids.entries.getD index neverUsed

/-- Double the entries, up to the whole client range. -/
def grow (ids : ClientIds) (granted : Bool) : Except Error ClientIds :=
  if !ids.growth then .error .exhausted
  else if ids.entries.length = idSpace then .error .exhausted
  else if granted then
    let oldLength := ids.entries.length
    let newLength := min (oldLength * 2) idSpace
    .ok { ids with
      entries := ids.entries ++
        List.replicate (newLength - oldLength) neverUsed }
  else .error .outOfMemory

/-- Take the most recently released ID, or the first never used one. -/
def acquire (ids : ClientIds) (granted : Bool) :
    Except Error (Nat × ClientIds) :=
  if ids.freeHead ≠ noFreeId then
    let index := ids.freeHead
    .ok (index + 2,
      { ids with
        freeHead := ids.entry index
        entries := ids.entries.set index active })
  else do
    let ids ←
      if ids.nextIndex = ids.entries.length then ids.grow granted else .ok ids
    let index := ids.nextIndex
    .ok (index + 2,
      { ids with
        nextIndex := index + 1
        entries := ids.entries.set index active })

/-- Index of an ID in the client range. -/
def indexOf (id : Nat) : Option Nat :=
  if id < 2 ∨ id ≥ serverIdStart then none else some (id - 2)

/-- Index of an ID that was handed out at some point. -/
def usedIndex (ids : ClientIds) (id : Nat) : Option Nat := do
  let index ← indexOf id
  if index ≥ ids.nextIndex then none else some index

/-- Put an entry at the front of the free list. -/
def releaseIndex (ids : ClientIds) (index : Nat) : ClientIds :=
  { ids with
    entries := ids.entries.set index ids.freeHead
    freeHead := index }

/-- Hold an ID whose destructor was published. -/
def retire (ids : ClientIds) (id : Nat) : Except Error ClientIds :=
  match ids.usedIndex id with
  | none => .error .invalidId
  | some index =>
      if ids.entry index ≠ active then .error .invalidTransition
      else
        .ok { ids with entries := ids.entries.set index awaitingDelete }

/-- Apply `delete_id`: a retired ID becomes reusable. -/
def deleted (ids : ClientIds) (id : Nat) : Except Error ClientIds :=
  match ids.usedIndex id with
  | none => .error .invalidId
  | some index =>
      if ids.entry index ≠ awaitingDelete then .error .invalidTransition
      else .ok (ids.releaseIndex index)

/-- Roll back an ID that was never exposed on the wire. -/
def cancelUnpublished (ids : ClientIds) (id : Nat) : Except Error ClientIds :=
  match ids.usedIndex id with
  | none => .error .invalidId
  | some index =>
      if ids.entry index ≠ active then .error .invalidTransition
      else .ok (ids.releaseIndex index)

/-- What the tracker knows about an ID. -/
inductive Status
  | neverUsed
  | active
  | awaitingDelete
  | free
  deriving DecidableEq, Repr

/-- Decode the entry of an ID. -/
def status (ids : ClientIds) (id : Nat) : Status :=
  match ids.usedIndex id with
  | none => .neverUsed
  | some index =>
      if ids.entry index = active then .active
      else if ids.entry index = awaitingDelete then .awaitingDelete
      else .free

end ClientIds
end Wayring
