import Wayring.Connection.Completion
import Wayring.Foundation.Chain

/-!
# Slots

Generation-aware routing of completions.  Inactive slots form a free list and
are used again.
-/

namespace Wayring

/-- A free slot links to the next one. -/
inductive SlotLink
  | active
  | free (next : Option Nat)
  deriving DecidableEq, Repr

/-- The generation of a slot, and whether it is in use. -/
structure Slot where
  generation : Nat := 0
  link : SlotLink := .free none
  deriving DecidableEq, Repr

/-- A slot and an operation that a completion is for. -/
structure Routed where
  slot : Nat
  operation : Operation
  deriving DecidableEq, Repr

/-- One generation of a slot. -/
structure Peer where
  slot : Nat
  generation : Nat
  deriving DecidableEq, Repr

/-- The slots of a reactor. -/
structure Slots where
  storage : List Slot := []
  freeHead : Option Nat := none
  activeCount : Nat := 0
  deriving DecidableEq, Repr

namespace Slots

/-- A slot that is not there yet, at the end of the storage. -/
def append
    (slots : Slots)
    (granted : Bool) : Except Error Nat × Slots :=
  if slots.storage.length ≥ Token.slotLimit then
    (.error .slotSpaceExhausted, slots)
  else if !granted then (.error .outOfMemory, slots)
  else
    (.ok slots.storage.length,
      { slots with storage := slots.storage ++ [{}] })

/-- The first free slot. -/
def recycle (slots : Slots) (index : Nat) : Slots :=
  match slots.storage[index]? with
  | some { link := .free next, .. } => { slots with freeHead := next }
  | _ => slots

/-- Start the next generation of a slot. -/
def activate (slots : Slots) (index : Nat) : Peer × Slots :=
  let generation := Completion.nextGeneration
    ((slots.storage[index]?.map Slot.generation).getD 0)
  ({ slot := index, generation },
    { slots with
      storage := slots.storage.set index { generation, link := .active }
      activeCount := slots.activeCount + 1 })

/-- Acquire a free slot.  Only a new one needs memory. -/
def acquire (slots : Slots) (granted : Bool) : Except Error Peer × Slots :=
  match slots.freeHead with
  | none =>
      match slots.append granted with
      | (.error cause, slots) => (.error cause, slots)
      | (.ok index, slots) =>
          let (peer, slots) := slots.activate index
          (.ok peer, slots)
  | some index =>
      let (peer, slots) := (slots.recycle index).activate index
      (.ok peer, slots)

/-- The slot of an active peer. -/
def check (slots : Slots) (peer : Peer) : Except Error Unit :=
  match slots.storage[peer.slot]? with
  | none => .error .slotOutOfRange
  | some slot =>
      if slot.link ≠ .active then .error .slotInactive
      else if slot.generation ≠ peer.generation then .error .wrongGeneration
      else .ok ()

/-- Free the slot of a peer. -/
def deactivate (slots : Slots) (peer : Peer) : Except Error Unit × Slots :=
  match slots.check peer with
  | .error cause => (.error cause, slots)
  | .ok _ =>
      (.ok (),
        { storage := slots.storage.set peer.slot
            { generation := peer.generation, link := .free slots.freeHead }
          freeHead := some peer.slot
          activeCount := slots.activeCount - 1 })

/-- The token of an operation of a peer. -/
def token
    (slots : Slots)
    (peer : Peer)
    (operation : Operation) : Except Error Nat :=
  (slots.check peer).map fun _ =>
    Token.encode
      { operation, slot := peer.slot, generation := peer.generation }

/-- Where a completion goes, unless it is stale. -/
def routeToken (slots : Slots) (token : Token) : Option Routed :=
  match slots.storage[token.slot]? with
  | none => none
  | some slot =>
      if slot.link = .active ∧ slot.generation = token.generation then
        some { slot := token.slot, operation := token.operation }
      else none

/-- Nothing for a malformed, inactive, or stale completion. -/
def route (slots : Slots) (userData : Nat) : Option Routed :=
  match Token.decode userData with
  | .error _ => none
  | .ok token => slots.routeToken token

end Slots
end Wayring
