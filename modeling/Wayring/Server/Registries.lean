import Wayring.Foundation.Lanes
import Wayring.Foundation.ListWrites
import Wayring.Objects.Namespace
import Wayring.Reactor.Slots

/-!
# Registry subscriptions

The registries of each peer, with what each of them knows of the globals.
Registries of a peer are chained from its slot, and nodes are used again.
-/

namespace Wayring

/-- What a registry knows of a global, and what it is owed. -/
inductive OfferState
  /-- `wl_registry.global` is owed. -/
  | addPending
  | offered
  /-- `wl_registry.global_remove` is owed. -/
  | removePending
  /-- Kept until it is acknowledged. -/
  | removalSent
  deriving DecidableEq, Repr

/-- A global that a registry knows of. -/
structure Offer where
  global : Handle
  state : OfferState
  /-- When the pending event became owed. -/
  epoch : Nat
  deriving DecidableEq, Repr

/-- A registry in the chain of its peer. -/
structure RegistryNode where
  handle : Handle := { id := 0, generation := 0 }
  next : Option Nat := none
  offers : List Offer := []
  deriving DecidableEq, Repr

/-- The chain of the registries of a peer. -/
structure RegistrySlot where
  generation : Nat := 0
  head : Option Nat := none
  tail : Option Nat := none
  count : Nat := 0
  deriving DecidableEq, Repr

/-- All registries of all peers. -/
structure RegistrySubscriptions where
  nodes : List RegistryNode := []
  slots : List RegistrySlot := []
  freeHead : Option Nat := none
  availableCount : Nat := 0
  epoch : Nat := 0
  deriving DecidableEq, Repr

namespace RegistrySubscriptions

/-- Indices of nodes fit 32 bits, and one is set aside. -/
def nodeLimit : Nat := maxU32

/-- No registries yet. -/
def init (capacity : Nat) (granted : Bool) : Except Error RegistrySubscriptions :=
  if capacity = 0 ∨ capacity > nodeLimit then .error .invalidConfig
  else if granted then .ok {}
  else .error .outOfMemory

/-- The node of an index. -/
def node (registries : RegistrySubscriptions) (index : Nat) : RegistryNode :=
  registries.nodes.getD index {}

/-- The chain of a slot. -/
def slot (registries : RegistrySubscriptions) (index : Nat) : RegistrySlot :=
  registries.slots.getD index {}

/-- Write a node. -/
def setNode
    (registries : RegistrySubscriptions)
    (index : Nat)
    (node : RegistryNode) : RegistrySubscriptions :=
  { registries with nodes := registries.nodes.set index node }

/-- Write a slot. -/
def setSlot
    (registries : RegistrySubscriptions)
    (index : Nat)
    (slot : RegistrySlot) : RegistrySubscriptions :=
  { registries with slots := registries.slots.set index slot }

/-- Follow a chain to the node of a registry and the node before it.  A chain
has at most as many nodes as there are. -/
def walk
    (registries : RegistrySubscriptions)
    (registry : Handle) :
    Nat → Option Nat → Option Nat → Option (Option Nat × Nat)
  | 0, _, _ => none
  | fuel + 1, previous, current =>
      match current with
      | none => none
      | some index =>
          if (registries.node index).handle = registry then
            some (previous, index)
          else
            walk registries registry fuel (some index)
              (registries.node index).next

/-- Where the chain of a slot has a registry. -/
def locate
    (registries : RegistrySubscriptions)
    (slot : Nat)
    (registry : Handle) : Option (Option Nat × Nat) :=
  registries.walk registry (registries.nodes.length + 1) none
    (registries.slot slot).head

/-- Slots up to that of a peer. -/
def growSlots
    (registries : RegistrySubscriptions)
    (index : Nat)
    (granted : Bool) : Except Error Unit × RegistrySubscriptions :=
  if index < registries.slots.length then (.ok (), registries)
  else if granted then
    (.ok (),
      { registries with
        slots := registries.slots ++
          List.replicate (index + 1 - registries.slots.length) {} })
  else (.error .outOfMemory, registries)

/-- A node that is in no chain. -/
def takeNode
    (registries : RegistrySubscriptions)
    (granted : Bool) : Except Error Nat × RegistrySubscriptions :=
  match registries.freeHead with
  | none =>
      if registries.nodes.length ≥ nodeLimit then (.error .full, registries)
      else if granted then
        (.ok registries.nodes.length,
          { registries with nodes := registries.nodes ++ [{}] })
      else (.error .outOfMemory, registries)
  | some recycled =>
      (.ok recycled,
        { registries with
          freeHead := (registries.node recycled).next
          availableCount := registries.availableCount - 1 })

/-- Put a node at the end of the chain of a slot. -/
def link
    (registries : RegistrySubscriptions)
    (slot index : Nat) : RegistrySubscriptions :=
  let linked : RegistrySlot :=
    { registries.slot slot with
      tail := some index
      count := (registries.slot slot).count + 1 }
  match (registries.slot slot).tail with
  | none => registries.setSlot slot { linked with head := some index }
  | some last =>
      (registries.setNode last
        { registries.node last with next := some index }).setSlot slot linked

/-- Link a registry with no offers. -/
def add
    (registries : RegistrySubscriptions)
    (peer : Peer)
    (registry : Handle)
    (slotGranted nodeGranted : Bool) :
    Except Error Nat × RegistrySubscriptions :=
  match registries.growSlots peer.slot slotGranted with
  | (.error cause, registries) => (.error cause, registries)
  | (.ok _, registries) =>
      let registries :=
        if (registries.slot peer.slot).generation = 0 then
          registries.setSlot peer.slot
            { registries.slot peer.slot with generation := peer.generation }
        else registries
      if (registries.slot peer.slot).generation ≠ peer.generation then
        (.error .staleHandle, registries)
      else if (registries.locate peer.slot registry).isSome then
        (.error .duplicateId, registries)
      else
        match registries.takeNode nodeGranted with
        | (.error cause, registries) => (.error cause, registries)
        | (.ok index, registries) =>
            (.ok index,
              (registries.setNode index { handle := registry }).link peer.slot
                index)

/-- Take a node out of the chain of a slot.  A slot without registries starts
afresh. -/
def removeNode
    (registries : RegistrySubscriptions)
    (index : Nat)
    (previous : Option Nat)
    (current : Nat) : RegistrySubscriptions :=
  let next := (registries.node current).next
  let slot := registries.slot index
  let (registries, head) :=
    match previous with
    | none => (registries, next)
    | some before =>
        (registries.setNode before { registries.node before with next },
          slot.head)
  let slot : RegistrySlot :=
    { slot with
      head
      tail := if slot.tail = some current then previous else slot.tail
      count := slot.count - 1 }
  let registries := registries.setSlot index (if slot.count = 0 then {} else slot)
  { registries.setNode current
      { registries.node current with
        offers := []
        next := registries.freeHead } with
    freeHead := some current
    availableCount := registries.availableCount + 1 }

/-- The slot of a peer that has registries or had one. -/
def serves (registries : RegistrySubscriptions) (peer : Peer) : Bool :=
  peer.slot < registries.slots.length &&
    (registries.slot peer.slot).generation = peer.generation

/-- Take a registry out, unless it is not there. -/
def remove
    (registries : RegistrySubscriptions)
    (peer : Peer)
    (registry : Handle) : Except Error Unit × RegistrySubscriptions :=
  if !registries.serves peer then (.error .staleHandle, registries)
  else
    match registries.locate peer.slot registry with
    | none => (.error .staleHandle, registries)
    | some (previous, current) =>
        (.ok (), registries.removeNode peer.slot previous current)

/-- Take all nodes of a slot, which has at most as many as there are. -/
def clearSlot (slot : Nat) : Nat → RegistrySubscriptions → RegistrySubscriptions
  | 0, registries => registries
  | fuel + 1, registries =>
      match (registries.slot slot).head with
      | none => registries
      | some head => clearSlot slot fuel (registries.removeNode slot none head)

/-- Take all registries of a peer out. -/
def removePeer
    (registries : RegistrySubscriptions)
    (peer : Peer) : RegistrySubscriptions :=
  if !registries.serves peer then registries
  else clearSlot peer.slot (registries.nodes.length + 1) registries

/-- The node of a registry. -/
def find
    (registries : RegistrySubscriptions)
    (peer : Peer)
    (registry : Handle) : Option RegistryNode :=
  if !registries.serves peer then none
  else
    (registries.locate peer.slot registry).map fun location =>
      registries.node location.2

/-- What a registry knows of the globals. -/
def known
    (registries : RegistrySubscriptions)
    (peer : Peer)
    (registry : Handle) : Option (List Offer) :=
  (registries.find peer registry).map RegistryNode.offers

/-- Whether any node has an offer of a global. -/
def hasOffers (registries : RegistrySubscriptions) (name : Nat) : Bool :=
  registries.nodes.any fun node =>
    node.offers.any fun offer => offer.global.id = name

/-! ## Chains -/

variable {registries : RegistrySubscriptions} {chains : Nat → List Nat}
  {free : List Nat} {peer : Peer} {registry : Handle}

/-- The node behind a node. -/
def next (registries : RegistrySubscriptions) (index : Nat) : Option Nat :=
  (registries.node index).next

/-- Every slot has a chain of its own, and the nodes in none of them are
free.  Registries were created by clients, each once. -/
structure Sound
    (registries : RegistrySubscriptions)
    (chains : Nat → List Nat)
    (free : List Nat) : Prop
    extends toLanes : Lanes.Sound registries.next
      (fun slot => (registries.slot slot).head)
      (fun slot => (registries.slot slot).tail) registries.freeHead
      registries.nodes.length chains free where
  count : ∀ slot, (registries.slot slot).count = (chains slot).length
  once : ∀ slot, ((chains slot).map fun index =>
    (registries.node index).handle).Nodup
  client : ∀ slot, ∀ index ∈ chains slot,
    2 ≤ (registries.node index).handle.id ∧
      (registries.node index).handle.id < serverIdStart

/-- Writing a node changes that node alone. -/
theorem node_setNode
    {index : Nat}
    (bound : index < registries.nodes.length)
    (new : RegistryNode) (position : Nat) :
    (registries.setNode index new).node position =
      if position = index then new else registries.node position :=
  ListWrites.getD_set bound new {} position

/-- Writing a slot changes that slot alone. -/
theorem slot_setSlot
    {index : Nat}
    (bound : index < registries.slots.length)
    (new : RegistrySlot) (position : Nat) :
    (registries.setSlot index new).slot position =
      if position = index then new else registries.slot position :=
  ListWrites.getD_set bound new {} position

/-- The slots without registries. -/
theorem Sound.lt_length
    (sound : registries.Sound chains free)
    {slot index : Nat}
    (member : index ∈ chains slot) : slot < registries.slots.length := by
  apply Nat.lt_of_not_le
  intro beyond
  have empty : registries.slot slot = {} := List.getD_eq_default _ _ beyond
  have linked := sound.linked slot
  rw [empty] at linked
  have none : chains slot = [] := linked.unique ((Chain.linked_nil _ _).mpr rfl)
  rw [none] at member
  cases member

/-! ## Walks -/

/-- A registry that is in no node of the chain is not found. -/
theorem walk_absent
    {fuel : Nat} {previous current : Option Nat} {chain : List Nat}
    (linked : Chain.Linked registries.next current chain)
    (absent : ∀ index ∈ chain, (registries.node index).handle ≠ registry) :
    registries.walk registry fuel previous current = none := by
  induction fuel generalizing previous current chain with
  | zero => rfl
  | succ fuel walk_ih =>
      cases chain with
      | nil =>
          rw [(Chain.linked_nil _ _).mp linked]
          rfl
      | cons index rest =>
          obtain ⟨rfl, linkedRest⟩ := (Chain.linked_cons _ _ _ _).mp linked
          simp only [walk]
          rw [if_neg (absent index List.mem_cons_self)]
          exact walk_ih linkedRest fun other member =>
            absent other (List.mem_cons_of_mem _ member)

/-- A registry is found with the node before it. -/
theorem walk_found
    {fuel index : Nat} {previous current : Option Nat} {front back : List Nat}
    (linked : Chain.Linked registries.next current (front ++ index :: back))
    (named : (registries.node index).handle = registry)
    (others : ∀ other ∈ front, (registries.node other).handle ≠ registry)
    (enough : front.length < fuel) :
    registries.walk registry fuel previous current =
      some (front.getLast?.or previous, index) := by
  induction front generalizing fuel previous current with
  | nil =>
      obtain ⟨fuel, rfl⟩ := Nat.exists_eq_succ_of_ne_zero
        (Nat.ne_of_gt (Nat.zero_lt_of_lt enough))
      obtain ⟨rfl, _⟩ := (Chain.linked_cons _ _ _ _).mp linked
      simp only [walk]
      rw [if_pos named]
      rfl
  | cons first front walk_ih =>
      obtain ⟨fuel, rfl⟩ := Nat.exists_eq_succ_of_ne_zero
        (Nat.ne_of_gt (Nat.zero_lt_of_lt enough))
      obtain ⟨rfl, linkedRest⟩ := (Chain.linked_cons _ _ _ _).mp linked
      simp only [walk]
      rw [if_neg (others first List.mem_cons_self)]
      change registries.walk registry fuel (some first)
        (registries.next first) = _
      rw [walk_ih linkedRest
        (fun other member => others other (List.mem_cons_of_mem _ member))
        (by simpa using enough)]
      cases front <;> simp [List.getLast?_cons]

/-- A registry is in the chain of a slot, once, or it is not there. -/
theorem Sound.locate_spec
    (sound : registries.Sound chains free)
    (slot : Nat) (registry : Handle) :
    (registries.locate slot registry = none ∧
      ∀ index ∈ chains slot, (registries.node index).handle ≠ registry) ∨
    ∃ front index back, chains slot = front ++ index :: back ∧
      (registries.node index).handle = registry ∧
      (∀ other ∈ front ++ back, (registries.node other).handle ≠ registry) ∧
      registries.locate slot registry = some (front.getLast?, index) := by
  by_cases present : ∃ index ∈ chains slot,
      (registries.node index).handle = registry
  · obtain ⟨index, member, named⟩ := present
    obtain ⟨front, back, split⟩ := List.append_of_mem member
    have once := sound.once slot
    rw [split, List.map_append, List.map_cons] at once
    have apart := List.nodup_middle.mp once
    rw [List.nodup_cons, List.mem_append, List.mem_map, List.mem_map] at apart
    have others : ∀ other ∈ front ++ back,
        (registries.node other).handle ≠ registry := by
      intro other within same
      rw [named, ← same] at apart
      rcases List.mem_append.mp within with before | after
      · exact apart.1 (.inl ⟨other, before, rfl⟩)
      · exact apart.1 (.inr ⟨other, after, rfl⟩)
    have short : front.length < registries.nodes.length + 1 := by
      have whole := Chain.length_le_of_nodup (sound.distinct slot)
        (sound.bound slot)
      rw [split, List.length_append, List.length_cons] at whole
      omega
    refine .inr ⟨front, index, back, split, named, others, ?_⟩
    have linked := sound.linked slot
    rw [split] at linked
    rw [locate, walk_found linked named (fun other before =>
      others other (List.mem_append_left _ before)) short, Option.or_none]
  · have absent : ∀ index ∈ chains slot,
        (registries.node index).handle ≠ registry :=
      fun index member named => present ⟨index, member, named⟩
    exact .inl ⟨walk_absent (sound.linked slot) absent, absent⟩

/-- The registries known to a peer are those in the chain of its slot. -/
theorem Sound.known_iff
    (sound : registries.Sound chains free)
    (peer : Peer) (registry : Handle) (offers : List Offer) :
    registries.known peer registry = some offers ↔
      registries.serves peer = true ∧ ∃ index ∈ chains peer.slot,
        (registries.node index).handle = registry ∧
          (registries.node index).offers = offers := by
  unfold known find
  cases served : registries.serves peer with
  | false => simp
  | true =>
      rcases sound.locate_spec peer.slot registry with
        ⟨absent, others⟩ | ⟨front, index, back, split, named, others, found⟩
      · rw [absent]
        constructor
        · intro none_found
          cases none_found
        · rintro ⟨_, index, member, named, _⟩
          exact absurd named (others index member)
      · rw [found]
        constructor
        · intro same
          cases same
          exact ⟨rfl, index, by simp [split], named, rfl⟩
        · rintro ⟨_, other, member, sameName, rfl⟩
          rw [split] at member
          have same : other = index := by
            by_contra different
            refine others other ?_ sameName
            rcases List.mem_append.mp member with before | after
            · exact List.mem_append_left _ before
            · exact List.mem_append_right _
                (List.mem_of_ne_of_mem different after)
          rw [same]
          rfl

/-! ## Writes -/

/-- Registries that change in no chain but one. -/
theorem Sound.relink
    {later : RegistrySubscriptions} {changed : Nat} {chain vacant : List Nat}
    (sound : registries.Sound chains free)
    (lanes : Lanes.Sound later.next (fun slot => (later.slot slot).head)
      (fun slot => (later.slot slot).tail) later.freeHead later.nodes.length
      (Function.update chains changed chain) vacant)
    (count : ∀ slot, (later.slot slot).count =
      if slot = changed then chain.length else (registries.slot slot).count)
    (others : ∀ slot, slot ≠ changed → ∀ index ∈ chains slot,
      (later.node index).handle = (registries.node index).handle)
    (once : (chain.map fun index => (later.node index).handle).Nodup)
    (client : ∀ index ∈ chain, 2 ≤ (later.node index).handle.id ∧
      (later.node index).handle.id < serverIdStart) :
    later.Sound (Function.update chains changed chain) vacant where
  toLanes := lanes
  count slot := by
    rw [count, Function.update_apply]
    split_ifs
    · rfl
    · exact sound.count slot
  once slot := by
    by_cases same : slot = changed
    · rwa [same, Function.update_self]
    · rw [Function.update_of_ne same]
      have kept : (chains slot).map (fun index => (later.node index).handle) =
          (chains slot).map fun index => (registries.node index).handle :=
        List.map_congr_left (others slot same)
      rw [kept]
      exact sound.once slot
  client slot index member := by
    by_cases same : slot = changed
    · rw [same, Function.update_self] at member
      exact client index member
    · rw [Function.update_of_ne same] at member
      rw [others slot same index member]
      exact sound.client slot index member

/-! ## Removals -/

section Removal

variable {slot index : Nat} {front back : List Nat}

/-- Removing a node changes its slot alone. -/
theorem removeNode_slots
    (previous : Option Nat) (bound : slot < registries.slots.length)
    (position : Nat) :
    (registries.removeNode slot previous index).slot position =
      if position = slot then
        if (registries.slot slot).count - 1 = 0 then {}
        else
          { registries.slot slot with
            head := Chain.removeHead registries.next (registries.slot slot).head
              index previous
            tail := if (registries.slot slot).tail = some index then previous
              else (registries.slot slot).tail
            count := (registries.slot slot).count - 1 }
      else registries.slot position := by
  cases previous with
  | none => exact slot_setSlot bound _ position
  | some before => exact slot_setSlot bound _ position

/-- Removing a node changes that node and the one before it. -/
theorem removeNode_node
    {previous : Option Nat}
    (inside : index < registries.nodes.length)
    (bound : ∀ before, previous = some before →
      before < registries.nodes.length ∧ before ≠ index)
    (position : Nat) :
    (registries.removeNode slot previous index).node position =
      if position = index then
        { registries.node index with offers := [], next := registries.freeHead }
      else
        { registries.node position with
          next := Chain.removeLink registries.next index previous position } := by
  cases previous with
  | none =>
      refine (node_setNode inside _ position).trans ?_
      split_ifs <;> rfl
  | some before =>
      obtain ⟨within, apart⟩ := bound before rfl
      have length : (registries.setNode before
          { registries.node before with
            next := (registries.node index).next }).nodes.length =
          registries.nodes.length := List.length_set
      refine (node_setNode (Nat.lt_of_lt_of_eq inside length.symm) _
        position).trans ?_
      have kept := fun position => node_setNode within
        { registries.node before with next := (registries.node index).next }
        position
      by_cases same : position = index
      · rw [if_pos same, if_pos same]
        refine congrArg (fun node : RegistryNode =>
          { node with offers := [], next := registries.freeHead }) ?_
        exact (kept index).trans (if_neg (Ne.symm apart))
      · rw [if_neg same, if_neg same]
        refine (kept position).trans ?_
        rw [Chain.removeLink, Function.update_apply]
        split_ifs with equal
        · rw [equal]
          rfl
        · rfl

@[simp] theorem removeNode_nodes_length
    (previous : Option Nat) :
    (registries.removeNode slot previous index).nodes.length =
      registries.nodes.length := by
  cases previous <;> simp [removeNode, setNode, setSlot]

@[simp] theorem removeNode_slots_length
    (previous : Option Nat) :
    (registries.removeNode slot previous index).slots.length =
      registries.slots.length := by
  cases previous <;> simp [removeNode, setNode, setSlot]

/-- A node leaves its chain and becomes the first free one. -/
theorem Sound.removeNode
    (sound : registries.Sound chains free)
    (split : chains slot = front ++ index :: back) :
    (registries.removeNode slot front.getLast? index).Sound
        (Function.update chains slot (front ++ back)) (index :: free) ∧
      ∀ position, position ≠ index →
        ((registries.removeNode slot front.getLast? index).node position).handle =
            (registries.node position).handle ∧
          ((registries.removeNode slot front.getLast? index).node position).offers =
            (registries.node position).offers := by
  have member : index ∈ chains slot := by simp [split]
  have inside := sound.bound slot index member
  have slotBound := sound.lt_length member
  have distinct := sound.distinct slot
  rw [split] at distinct
  obtain ⟨alone, apart⟩ := List.nodup_cons.mp (List.nodup_middle.mp distinct)
  have before : ∀ before, front.getLast? = some before →
      before < registries.nodes.length ∧ before ≠ index := by
    intro before last
    have within := List.mem_of_getLast? last
    refine ⟨sound.bound slot before (by simp [split, within]), ?_⟩
    rintro rfl
    exact alone (List.mem_append_left _ within)
  have node := @removeNode_node registries slot index front.getLast? inside before
  have handles : ∀ position, position ≠ index →
      ((registries.removeNode slot front.getLast? index).node position).handle =
          (registries.node position).handle ∧
        ((registries.removeNode slot front.getLast? index).node position).offers =
          (registries.node position).offers := by
    intro position different
    rw [node position, if_neg different]
    exact ⟨rfl, rfl⟩
  have links : ∀ position < registries.nodes.length,
      (registries.removeNode slot front.getLast? index).next position =
        if position = index then registries.freeHead
        else Chain.removeLink registries.next index front.getLast? position := by
    intro position _
    change ((registries.removeNode slot front.getLast? index).node
      position).next = _
    rw [node position]
    split_ifs <;> rfl
  have linked := sound.linked slot
  rw [split] at linked
  have whole : (registries.slot slot).count = (front ++ back).length + 1 := by
    rw [sound.count, split]
    simp only [List.length_append, List.length_cons]
    omega
  have slots : ∀ position,
      ((registries.removeNode slot front.getLast? index).slot position).head =
          Function.update (fun slot => (registries.slot slot).head) slot
            (Chain.removeHead registries.next (registries.slot slot).head index
              front.getLast?) position ∧
        ((registries.removeNode slot front.getLast? index).slot position).tail =
          Function.update (fun slot => (registries.slot slot).tail) slot
            (if (registries.slot slot).tail = some index then front.getLast?
              else (registries.slot slot).tail) position ∧
        ((registries.removeNode slot front.getLast? index).slot position).count =
          if position = slot then (front ++ back).length
          else (registries.slot position).count := by
    intro position
    rw [removeNode_slots _ slotBound, whole, Nat.add_sub_cancel,
      Function.update_apply, Function.update_apply]
    by_cases here : position = slot
    · rw [if_pos here, if_pos here, if_pos here, if_pos here]
      by_cases empty : (front ++ back).length = 0
      · obtain ⟨rfl, rfl⟩ :=
          List.append_eq_nil_iff.mp (List.length_eq_zero_iff.mp empty)
        have last : (registries.slot slot).tail = some index := by
          rw [sound.tail, split]
          rfl
        rw [if_pos empty, if_pos last]
        exact ⟨(linked.remove distinct).symm, rfl, rfl⟩
      · rw [if_neg empty]
        exact ⟨rfl, rfl, rfl⟩
    · rw [if_neg here, if_neg here, if_neg here, if_neg here]
      exact ⟨rfl, rfl, rfl⟩
  have freeHead : (registries.removeNode slot front.getLast? index).freeHead =
      some index := by
    cases front.getLast? <;> rfl
  have lanes := sound.toLanes.remove slot split links
    (funext fun position => (slots position).1)
    (funext fun position => (slots position).2.1)
  have subset : ∀ position ∈ front ++ back,
      position ∈ chains slot ∧ position ≠ index := by
    intro position within
    refine ⟨?_, ne_of_mem_of_not_mem within alone⟩
    rw [split]
    exact List.mem_append.mpr ((List.mem_append.mp within).imp_right
      (List.mem_cons_of_mem _))
  refine ⟨sound.relink ?_ (fun position => (slots position).2.2) ?_ ?_ ?_,
    handles⟩
  · rw [freeHead, removeNode_nodes_length]
    exact lanes
  · intro other different position within
    refine (handles position ?_).1
    rintro rfl
    exact sound.apart other slot different within member
  · have kept : (front ++ back).map (fun position =>
          ((registries.removeNode slot front.getLast? index).node
            position).handle) =
        (front ++ back).map fun position =>
          (registries.node position).handle := by
      apply List.map_congr_left
      intro position within
      exact (handles position (subset position within).2).1
    rw [kept]
    have once := sound.once slot
    rw [split] at once
    refine List.Nodup.sublist ?_ once
    exact ((List.sublist_cons_self _ _).append_left _).map _
  · intro position within
    obtain ⟨inChain, different⟩ := subset position within
    rw [(handles position different).1]
    exact sound.client slot position inChain

/-- A peer is its slot and its generation. -/
theorem peer_ext
    {first second : Peer}
    (slot : first.slot = second.slot)
    (generation : first.generation = second.generation) : first = second := by
  cases first
  cases second
  exact congrArg₂ Peer.mk slot generation

/-- A slot serves one peer. -/
theorem serves_unique
    {other : Peer}
    (first : registries.serves other = true)
    (second : registries.serves peer = true)
    (sameSlot : other.slot = peer.slot) : other = peer := by
  simp only [serves, Bool.and_eq_true, decide_eq_true_eq] at first second
  have generation : other.generation = peer.generation := by
    rw [← first.2, ← second.2, sameSlot]
  exact peer_ext sameSlot generation

end Removal

/-! ## Additions -/

section Addition

variable {later : RegistrySubscriptions} {slot index : Nat}

/-- Nothing of this depends on what registries know, on the generations of the
slots, or on how many slots there are. -/
theorem Sound.congr
    (sound : registries.Sound chains free)
    (length : later.nodes.length = registries.nodes.length)
    (nodes : ∀ position,
      (later.node position).handle = (registries.node position).handle ∧
        (later.node position).next = (registries.node position).next)
    (freeHead : later.freeHead = registries.freeHead)
    (slots : ∀ slot, (later.slot slot).head = (registries.slot slot).head ∧
      (later.slot slot).tail = (registries.slot slot).tail ∧
      (later.slot slot).count = (registries.slot slot).count) :
    later.Sound chains free := by
  constructor
  · rw [length, freeHead]
    exact sound.toLanes.congr (fun position _ => (nodes position).2)
      (funext fun slot => (slots slot).1)
      (funext fun slot => (slots slot).2.1)
  · intro slot
    rw [(slots slot).2.2, sound.count]
  · simp only [(nodes _).1]
    exact sound.once
  · simp only [(nodes _).1]
    exact sound.client

/-- New slots are empty, like those that are not there. -/
theorem growSlots_spec
    (granted : Bool) :
    let outcome := registries.growSlots slot granted
    outcome.2.nodes = registries.nodes ∧
      outcome.2.freeHead = registries.freeHead ∧
      (∀ position, outcome.2.slot position = registries.slot position) ∧
      (outcome.1 = .ok () → slot < outcome.2.slots.length) := by
  intro outcome
  by_cases inside : slot < registries.slots.length
  · have same : outcome = (.ok (), registries) := by
      simp [outcome, growSlots, inside]
    rw [same]
    exact ⟨rfl, rfl, fun _ => rfl, fun _ => inside⟩
  · cases granted with
    | false =>
        have same : outcome = (.error .outOfMemory, registries) := by
          simp [outcome, growSlots, inside]
        rw [same]
        exact ⟨rfl, rfl, fun _ => rfl, fun refused => nomatch refused⟩
    | true =>
        have same : outcome = (.ok (), { registries with
            slots := registries.slots ++
              List.replicate (slot + 1 - registries.slots.length) {} }) := by
          simp [outcome, growSlots, inside]
        rw [same]
        refine ⟨rfl, rfl, fun position =>
          ListWrites.getD_append_replicate _ _ _ position, fun _ => ?_⟩
        simp only [List.length_append, List.length_replicate]
        omega

/-- A node that is taken is in no chain. -/
theorem Sound.takeNode
    {granted : Bool}
    (sound : registries.Sound chains free)
    (taken : registries.takeNode granted = (.ok index, later)) :
    ∃ vacant, later.Sound chains vacant ∧ index < later.nodes.length ∧
      (∀ slot, index ∉ chains slot) ∧ index ∉ vacant ∧
      later.slots = registries.slots ∧
      ∀ position, position ≠ index →
        later.node position = registries.node position := by
  have lanes := sound.toLanes
  cases head : registries.freeHead with
  | none =>
      simp only [RegistrySubscriptions.takeNode, head] at taken
      rw [head] at lanes
      by_cases exhausted : registries.nodes.length ≥ nodeLimit
      · rw [if_pos exhausted] at taken
        cases taken
      rw [if_neg exhausted] at taken
      cases granted with
      | false => cases taken
      | true =>
      obtain ⟨sameIndex, sameLater⟩ := Prod.mk.inj taken
      cases sameIndex
      have node : ∀ position, later.node position =
          registries.node position := by
        intro position
        rw [← sameLater]
        exact ListWrites.getD_append_replicate registries.nodes 1 {} position
      have length : later.nodes.length = registries.nodes.length + 1 := by
        rw [← sameLater]
        exact List.length_append
      have slots : later.slots = registries.slots := by rw [← sameLater]
      have freeHead : later.freeHead = none := by rw [← sameLater]
      obtain ⟨grown, fresh⟩ := lanes.grow later.next fun position _ =>
        congrArg RegistryNode.next (node position)
      refine ⟨[], ⟨?_, fun slot => ?_, fun slot => ?_,
        fun slot position member => ?_⟩, by omega, fresh, List.not_mem_nil,
        slots, fun position _ => node position⟩
      · rw [length, freeHead]
        simpa only [RegistrySubscriptions.slot, slots] using grown
      · rw [← sound.count]
        simp only [RegistrySubscriptions.slot, slots]
      · simp only [node]
        exact sound.once slot
      · rw [node]
        exact sound.client slot position member
  | some recycled =>
      simp only [RegistrySubscriptions.takeNode, head] at taken
      cases taken
      rw [head] at lanes
      obtain ⟨rest, -, kept, inside, notFree, fresh⟩ := lanes.take
      exact ⟨rest, ⟨kept, sound.count, sound.once, sound.client⟩, inside,
        fresh, notFree, rfl, fun _ _ => rfl⟩

/-- Linking a node changes its slot alone. -/
theorem link_slot
    (bound : slot < registries.slots.length)
    (position : Nat) :
    (registries.link slot index).slot position =
      if position = slot then
        { registries.slot slot with
          head := if (registries.slot slot).tail = none then some index
            else (registries.slot slot).head
          tail := some index
          count := (registries.slot slot).count + 1 }
      else registries.slot position := by
  unfold link
  cases last : (registries.slot slot).tail with
  | none => exact slot_setSlot bound _ position
  | some last => exact slot_setSlot bound _ position

/-- Linking a node changes the last node alone. -/
theorem link_node
    (inside : ∀ last, (registries.slot slot).tail = some last →
      last < registries.nodes.length)
    (position : Nat) :
    (registries.link slot index).node position =
      if (registries.slot slot).tail = some position then
        { registries.node position with next := some index }
      else registries.node position := by
  unfold link
  cases atEnd : (registries.slot slot).tail with
  | none => rfl
  | some last =>
      refine (node_setNode (inside last atEnd) _ position).trans ?_
      by_cases same : position = last
      · rw [if_pos same, if_pos (congrArg some same.symm), same]
      · rw [if_neg same, if_neg fun equal =>
          same (Option.some.inj equal).symm]

@[simp] theorem link_nodes_length :
    (registries.link slot index).nodes.length = registries.nodes.length := by
  unfold link
  cases (registries.slot slot).tail <;> simp [setNode, setSlot]

theorem link_freeHead :
    (registries.link slot index).freeHead = registries.freeHead := by
  unfold link
  cases (registries.slot slot).tail <;> rfl

/-- A taken node becomes the last of a chain. -/
theorem Sound.link
    (sound : registries.Sound chains free)
    (bound : slot < registries.slots.length)
    (inside : index < registries.nodes.length)
    (fresh : ∀ slot, index ∉ chains slot)
    (notFree : index ∉ free)
    (range : 2 ≤ registry.id ∧ registry.id < serverIdStart)
    (absent : ∀ position ∈ chains slot,
      (registries.node position).handle ≠ registry) :
    ((registries.setNode index { handle := registry }).link slot index).Sound
      (Function.update chains slot (chains slot ++ [index])) free := by
  have length : (registries.setNode index
      { handle := registry }).nodes.length = registries.nodes.length :=
    List.length_set
  have slotKept : (registries.setNode index { handle := registry }).slot =
      registries.slot := rfl
  have last : ∀ last, (registries.slot slot).tail = some last →
      last ∈ chains slot := by
    intro last atEnd
    rw [sound.tail] at atEnd
    exact List.mem_of_getLast? atEnd
  have node : ∀ position,
      ((registries.setNode index { handle := registry }).link slot index).node
          position =
        if (registries.slot slot).tail = some position then
          { registries.node position with next := some index }
        else if position = index then { handle := registry }
        else registries.node position := by
    intro position
    refine (link_node (fun before atEnd => ?_) position).trans ?_
    · rw [length]
      exact sound.bound slot before (last before atEnd)
    · rw [slotKept, node_setNode inside]
      by_cases atEnd : (registries.slot slot).tail = some position
      · have different : position ≠ index :=
          ne_of_mem_of_not_mem (last position atEnd) (fresh slot)
        rw [if_pos atEnd, if_pos atEnd, if_neg different]
      · rw [if_neg atEnd, if_neg atEnd]
  have content : ∀ position, position ≠ index →
      (((registries.setNode index { handle := registry }).link slot
        index).node position).handle = (registries.node position).handle := by
    intro position different
    rw [node position]
    by_cases atEnd : (registries.slot slot).tail = some position
    · rw [if_pos atEnd]
    · rw [if_neg atEnd, if_neg different]
  have named : (((registries.setNode index { handle := registry }).link slot
      index).node index).handle = registry := by
    rw [node index, if_neg fun atEnd => fresh slot (last index atEnd),
      if_pos rfl]
  have slots := fun position => @link_slot
    (registries.setNode index { handle := registry }) slot index bound position
  rw [slotKept] at slots
  have freeHead : ((registries.setNode index { handle := registry }).link slot
      index).freeHead = registries.freeHead := link_freeHead
  refine sound.relink ?_ ?_ ?_ ?_ ?_
  · rw [freeHead, link_nodes_length, length]
    refine sound.toLanes.pushBack slot inside fresh notFree ?_ ?_ ?_
    · intro position _
      simp only [RegistrySubscriptions.next, node]
      split_ifs <;> rfl
    · funext position
      rw [slots, Function.update_apply]
      split_ifs <;> rfl
    · funext position
      rw [slots, Function.update_apply]
      split_ifs <;> rfl
  · intro position
    rw [slots, List.length_append, ← sound.count]
    split_ifs <;> rfl
  · intro other _ position member
    exact content position (ne_of_mem_of_not_mem member (fresh other))
  · rw [List.map_append, List.map_singleton, named]
    have kept : (chains slot).map (fun position =>
          (((registries.setNode index { handle := registry }).link slot
            index).node position).handle) =
        (chains slot).map fun position =>
          (registries.node position).handle := by
      apply List.map_congr_left
      intro position member
      exact content position (ne_of_mem_of_not_mem member (fresh slot))
    rw [kept, List.nodup_append]
    refine ⟨sound.once slot, List.nodup_singleton _, ?_⟩
    intro first member second single
    rw [List.mem_singleton.mp single]
    obtain ⟨position, within, rfl⟩ := List.mem_map.mp member
    exact absent position within
  · intro position member
    rcases List.mem_append.mp member with before | atEnd
    · rw [content position (ne_of_mem_of_not_mem before (fresh slot))]
      exact sound.client slot position before
    · rw [List.mem_singleton.mp atEnd, named]
      exact range

/-- Growth keeps every chain. -/
theorem Sound.growSlots
    (sound : registries.Sound chains free)
    (slot : Nat) (granted : Bool) :
    (registries.growSlots slot granted).2.Sound chains free := by
  obtain ⟨nodes, freeHead, slots, -⟩ :=
    @growSlots_spec registries slot granted
  refine sound.congr (by rw [nodes]) (fun position => ?_) freeHead
    (fun position => by rw [slots]; simp)
  simp [RegistrySubscriptions.node, nodes]

/-- Stamping a slot leaves its list alone. -/
theorem Sound.stamp
    (sound : registries.Sound chains free)
    (bound : slot < registries.slots.length)
    (stamp : Nat) :
    (registries.setSlot slot
      { registries.slot slot with generation := stamp }).Sound chains free := by
  refine sound.congr rfl (fun _ => ⟨rfl, rfl⟩) rfl fun position => ?_
  rw [slot_setSlot bound]
  by_cases same : position = slot
  · rw [if_pos same, same]
    exact ⟨rfl, rfl, rfl⟩
  · rw [if_neg same]
    exact ⟨rfl, rfl, rfl⟩

/-- Without a node nothing changes. -/
theorem takeNode_error
    {granted : Bool} {cause : Error}
    (taken : registries.takeNode granted = (.error cause, later)) :
    later = registries := by
  unfold RegistrySubscriptions.takeNode at taken
  cases head : registries.freeHead <;> rw [head] at taken <;>
    simp only at taken
  · split_ifs at taken <;> cases taken <;> rfl
  · cases taken

end Addition

end RegistrySubscriptions
end Wayring
