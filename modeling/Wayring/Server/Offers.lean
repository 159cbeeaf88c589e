import Mathlib.Data.List.MinMax
import Wayring.Server.Registries

/-!
# Offers of registries

Each registry keeps one offer for every global it was told of or is to be told
of.  What follows reads and writes the offers through the lists of registries,
and describes the result by peer slot and registry alone.
-/

namespace Wayring

/-- The next event owed to one peer. -/
structure Pending where
  node : Nat
  offer : Nat
  epoch : Nat
  deriving DecidableEq, Repr

/-- The states in which an event is owed. -/
def OfferState.pending : OfferState → Bool
  | .addPending | .removePending => true
  | .offered | .removalSent => false

/-- The removal of a global reaches one registry's offers.  A registry that was
never told of the global forgets it; no offer can be on its way out already. -/
def retractOffers (name epoch : Nat) : List Offer → Option (List Offer)
  | [] => some []
  | offer :: rest =>
      if offer.global.id ≠ name then
        (retractOffers name epoch rest).map (offer :: ·)
      else
        match offer.state with
        | .addPending => retractOffers name epoch rest
        | .offered =>
            (retractOffers name epoch rest).map
              ({ offer with state := .removePending, epoch } :: ·)
        | .removePending | .removalSent => none

namespace RegistrySubscriptions

/-- The nodes of a list (`current = nodes.items[current].next`). -/
def follow (registries : RegistrySubscriptions) : Nat → Option Nat → List Nat
  | 0, _ => []
  | _ + 1, none => []
  | fuel + 1, some index =>
      index :: follow registries fuel (registries.node index).next

/-- The nodes of a slot, in the order they were added. -/
def chain (registries : RegistrySubscriptions) (slot : Nat) : List Nat :=
  registries.follow (registries.nodes.length + 1) (registries.slot slot).head

/-- One more step of the clock that all registries share. -/
def advanceEpoch
    (registries : RegistrySubscriptions) : Nat × RegistrySubscriptions :=
  (registries.epoch + 1, { registries with epoch := registries.epoch + 1 })

/-- Replace the offers of a node. -/
def setOffers
    (registries : RegistrySubscriptions)
    (index : Nat)
    (offers : List Offer) : RegistrySubscriptions :=
  registries.setNode index { registries.node index with offers }

/-- Append an offer to every registry of a slot. -/
def offerTo
    (registries : RegistrySubscriptions)
    (slot : Nat)
    (offer : Offer) : RegistrySubscriptions :=
  (registries.chain slot).foldl
    (fun registries index =>
      registries.setOffers index ((registries.node index).offers ++ [offer]))
    registries

/-- Convert every offer of a removed global into its owed removal. -/
def retract
    (registries : RegistrySubscriptions)
    (name : Nat) : Option RegistrySubscriptions :=
  let (epoch, registries) := registries.advanceEpoch
  (registries.nodes.mapM fun node =>
    (retractOffers name epoch node.offers).map fun offers =>
      { node with offers }).map fun nodes => { registries with nodes }

/-- Where a node offers a name. -/
def offerIndex (node : RegistryNode) (name : Nat) : Option Nat :=
  node.offers.findIdx? fun offer => offer.global.id = name

/-- Whether a removed global may still be bound through a peer's registries. -/
def offeredToPeer
    (registries : RegistrySubscriptions)
    (peer : Peer)
    (name : Nat) : Bool :=
  registries.serves peer &&
    (registries.chain peer.slot).any fun index =>
      (offerIndex (registries.node index) name).isSome

/-- The earliest owed event among a node's offers and the best so far.  Equal
epochs keep the first. -/
def scan (node : Nat) : Nat → List Offer → Option Pending → Option Pending
  | _, [], best => best
  | position, offer :: rest, best =>
      scan node (position + 1) rest <|
        if !offer.state.pending then best
        else if best.any fun best => offer.epoch ≥ best.epoch then best
        else some { node, offer := position, epoch := offer.epoch }

/-- The peer's earliest owed event. -/
def nextPending
    (registries : RegistrySubscriptions)
    (peer : Peer) : Option Pending :=
  if !registries.serves peer then none
  else
    (registries.chain peer.slot).foldl
      (fun best index => scan index 0 (registries.node index).offers best)
      none

/-! ## Offers by slot and registry -/

/-- The offers of a registry in a slot, if the slot has that registry. -/
def offersOf
    (registries : RegistrySubscriptions)
    (slot : Nat)
    (registry : Handle) : Option (List Offer) :=
  (registries.locate slot registry).map fun location =>
    (registries.node location.2).offers

/-- The generation a slot is stamped with, zero for none. -/
def generation (registries : RegistrySubscriptions) (slot : Nat) : Nat :=
  (registries.slot slot).generation

/-- A slot without registries. -/
def Bare (registries : RegistrySubscriptions) (slot : Nat) : Prop :=
  ∀ registry, registries.offersOf slot registry = none

/-- The lists are sound, only their nodes have offers, and only stamped slots
have registries. -/
structure Listed
    (registries : RegistrySubscriptions)
    (chains : Nat → List Nat)
    (free : List Nat) : Prop extends Sound registries chains free where
  idle : ∀ index, (∀ slot, index ∉ chains slot) →
    (registries.node index).offers = []
  stamped : ∀ slot, registries.generation slot = 0 → chains slot = []

/-- What holds of the subscriptions at any time. -/
def Valid (registries : RegistrySubscriptions) : Prop :=
  ∃ chains free, registries.Listed chains free

section Reading

variable {registries : RegistrySubscriptions} {chains : Nat → List Nat}
  {free : List Nat} {peer : Peer} {registry : Handle} {slot index : Nat}

/-- Without registries everything is well formed. -/
theorem valid_empty : Valid {} := by
  refine ⟨fun _ => [], [], ⟨?_, fun _ _ => rfl, fun _ _ => rfl⟩⟩
  exact
    { toLanes := Lanes.Sound.empty.congr (fun _ _ => rfl) rfl rfl
      count := fun _ => rfl
      once := fun _ => List.nodup_nil
      client := fun _ _ member => absurd member List.not_mem_nil }

/-- Following a chain with enough fuel lists it. -/
theorem follow_eq
    {fuel : Nat} {head : Option Nat} {nodes : List Nat}
    (linked : Chain.Linked registries.next head nodes)
    (enough : nodes.length < fuel) :
    registries.follow fuel head = nodes := by
  induction nodes generalizing fuel head with
  | nil =>
      rw [(Chain.linked_nil _ _).mp linked]
      cases fuel <;> rfl
  | cons node rest follow_ih =>
      obtain ⟨rfl, linkedRest⟩ := (Chain.linked_cons _ _ _ _).mp linked
      cases fuel with
      | zero => exact absurd enough (Nat.not_lt_zero _)
      | succ fuel =>
          rw [follow]
          refine congrArg (node :: ·) (follow_ih linkedRest ?_)
          exact Nat.lt_of_succ_lt_succ enough

/-- The chain of a slot is the one that it stands for. -/
theorem Sound.chain_eq
    (sound : registries.Sound chains free)
    (slot : Nat) : registries.chain slot = chains slot :=
  follow_eq (sound.linked slot) <| Nat.lt_succ_of_le <|
    Chain.length_le_of_nodup (sound.distinct slot) (sound.bound slot)

/-- What a registry knows is at its node in the chain of its slot. -/
theorem Sound.offersOf_iff
    (sound : registries.Sound chains free)
    (slot : Nat) (registry : Handle) (offers : List Offer) :
    registries.offersOf slot registry = some offers ↔
      ∃ index ∈ chains slot, (registries.node index).handle = registry ∧
        (registries.node index).offers = offers := by
  unfold offersOf
  rcases sound.locate_spec slot registry with
    ⟨absent, others⟩ | ⟨front, index, back, split, named, others, found⟩
  · rw [absent]
    simp only [Option.map_none, reduceCtorEq, false_iff]
    rintro ⟨index, member, named, -⟩
    exact others index member named
  · rw [found]
    simp only [Option.map_some, Option.some.injEq]
    constructor
    · intro same
      exact ⟨index, by simp [split], named, same⟩
    · rintro ⟨other, member, sameName, content⟩
      have equal : other = index := by
        by_contra different
        refine others other ?_ sameName
        rw [split, List.mem_append, List.mem_cons] at member
        rw [List.mem_append]
        exact member.imp_right fun rest => rest.resolve_left different
      rw [← equal, content]

/-- A node of a slot's list is that slot's registry of its name. -/
theorem Sound.offersOf_node
    (sound : registries.Sound chains free)
    (member : index ∈ chains slot) :
    registries.offersOf slot (registries.node index).handle =
      some (registries.node index).offers :=
  (sound.offersOf_iff slot _ _).mpr ⟨index, member, rfl, rfl⟩

/-- A slot is bare exactly when its chain is empty. -/
theorem Sound.bare_iff
    (sound : registries.Sound chains free) :
    registries.Bare slot ↔ chains slot = [] := by
  constructor
  · intro bare
    refine List.eq_nil_iff_forall_not_mem.mpr fun index member => ?_
    have listed := sound.offersOf_node member
    rw [bare] at listed
    cases listed
  · intro empty registry
    refine Option.eq_none_iff_forall_not_mem.mpr fun offers listed => ?_
    obtain ⟨index, member, -⟩ :=
      (sound.offersOf_iff slot registry offers).mp listed
    rw [empty] at member
    cases member

/-- Registries of a peer are looked up where it is served. -/
theorem known_eq :
    registries.known peer registry =
      if registries.serves peer then registries.offersOf peer.slot registry
      else none := by
  unfold known find offersOf
  cases served : registries.serves peer <;> simp [Function.comp_def]

/-- A slot that serves nobody has no registries. -/
theorem Listed.bare_of_generation
    (listed : registries.Listed chains free)
    (unstamped : registries.generation slot = 0) : registries.Bare slot :=
  listed.toSound.bare_iff.mpr (listed.stamped slot unstamped)

/-- A peer is served where its generation is stamped. -/
theorem serves_iff :
    registries.serves peer = true ↔ peer.slot < registries.slots.length ∧
      registries.generation peer.slot = peer.generation := by
  simp [serves, generation]

theorem generation_lt
    (stamped : registries.generation slot ≠ 0) :
    slot < registries.slots.length := by
  by_contra outside
  apply stamped
  rw [generation, RegistrySubscriptions.slot,
    List.getD_eq_default _ _ (Nat.le_of_not_lt outside)]

/-- A stamp is enough for a peer to be served. -/
theorem serves_iff_generation
    (nonzero : peer.generation ≠ 0) :
    registries.serves peer = true ↔
      registries.generation peer.slot = peer.generation := by
  rw [serves_iff, and_iff_right_iff_imp]
  intro same
  exact generation_lt (same ▸ nonzero)

/-- A node is found to have an offer exactly when it has one. -/
theorem offerIndex_isSome
    {node : RegistryNode} {name : Nat} :
    (offerIndex node name).isSome ↔
      ∃ offer ∈ node.offers, offer.global.id = name := by
  rw [offerIndex, List.findIdx?_isSome, List.any_eq_true]
  simp

/-- A name is offered to a peer exactly when a registry of it knows the name.
-/
theorem Listed.offeredToPeer_iff
    (listed : registries.Listed chains free)
    (peer : Peer) (name : Nat) :
    registries.offeredToPeer peer name = true ↔
      ∃ registry offers, registries.known peer registry = some offers ∧
        ∃ offer ∈ offers, offer.global.id = name := by
  rw [offeredToPeer, Bool.and_eq_true, List.any_eq_true,
    listed.toSound.chain_eq]
  constructor
  · rintro ⟨served, index, member, present⟩
    refine ⟨(registries.node index).handle, (registries.node index).offers, ?_,
      offerIndex_isSome.mp present⟩
    rw [known_eq, if_pos served]
    exact listed.toSound.offersOf_node member
  · rintro ⟨registry, offers, found, present⟩
    obtain ⟨served, index, member, -, rfl⟩ :=
      (listed.toSound.known_iff peer registry offers).mp found
    exact ⟨served, index, member, offerIndex_isSome.mpr present⟩

/-- A name has offers exactly when some registry knows it. -/
theorem Listed.hasOffers_iff
    (listed : registries.Listed chains free)
    (name : Nat) :
    registries.hasOffers name = true ↔
      ∃ slot registry offers,
        registries.offersOf slot registry = some offers ∧
          ∃ offer ∈ offers, offer.global.id = name := by
  rw [hasOffers, List.any_eq_true]
  simp only [List.any_eq_true, decide_eq_true_eq]
  constructor
  · rintro ⟨node, stored, offer, member, named⟩
    obtain ⟨index, bound, rfl⟩ := List.getElem_of_mem stored
    have read : registries.node index = registries.nodes[index] :=
      List.getD_eq_getElem _ _ bound
    by_cases used : ∃ slot, index ∈ chains slot
    · obtain ⟨slot, inChain⟩ := used
      refine ⟨slot, _, _, listed.toSound.offersOf_node inChain, offer, ?_,
        named⟩
      rwa [read]
    · have empty := listed.idle index (not_exists.mp used)
      rw [read] at empty
      rw [empty] at member
      cases member
  · rintro ⟨slot, registry, offers, found, offer, member, named⟩
    obtain ⟨index, inChain, -, rfl⟩ :=
      (listed.toSound.offersOf_iff slot registry offers).mp found
    refine ⟨registries.node index, ?_, offer, member, named⟩
    have bound := listed.bound slot index inChain
    rw [node, List.getD_eq_getElem _ _ bound]
    exact List.getElem_mem bound

end Reading

section Writing

variable {registries later : RegistrySubscriptions} {chains : Nat → List Nat}
  {free vacant : List Nat} {peer : Peer} {registry : Handle}
  {slot index : Nat} {offers : List Offer}

/-- New offers in the nodes of a list are the new offers of its registries. -/
theorem Sound.offersOf_map
    (sound : registries.Sound chains free)
    (laterSound : later.Sound chains vacant)
    (change : Handle → List Offer → List Offer)
    (changes : ∀ index ∈ chains slot,
      (later.node index).handle = (registries.node index).handle ∧
        (later.node index).offers = change (registries.node index).handle
          (registries.node index).offers)
    (name : Handle) :
    later.offersOf slot name =
      (registries.offersOf slot name).map (change name) := by
  apply Option.ext
  intro offers
  rw [laterSound.offersOf_iff, Option.map_eq_some_iff]
  constructor
  · rintro ⟨index, member, named, rfl⟩
    obtain ⟨handle, content⟩ := changes index member
    rw [handle] at named
    refine ⟨(registries.node index).offers, ?_, ?_⟩
    · exact (sound.offersOf_iff slot name _).mpr ⟨index, member, named, rfl⟩
    · rw [content, named]
  · rintro ⟨before, found, rfl⟩
    obtain ⟨index, member, named, rfl⟩ :=
      (sound.offersOf_iff slot name before).mp found
    obtain ⟨handle, content⟩ := changes index member
    refine ⟨index, member, handle.trans named, ?_⟩
    rw [content, named]

/-- Writing offers leaves the lists alone. -/
theorem Listed.content
    (listed : registries.Listed chains free)
    (length : later.nodes.length = registries.nodes.length)
    (nodes : ∀ position,
      (later.node position).handle = (registries.node position).handle ∧
        (later.node position).next = (registries.node position).next)
    (freeHead : later.freeHead = registries.freeHead)
    (slots : later.slots = registries.slots)
    (idle : ∀ position, (∀ slot, position ∉ chains slot) →
      (later.node position).offers = []) :
    later.Listed chains free where
  toSound := listed.toSound.congr length nodes freeHead fun slot => by
    simp [RegistrySubscriptions.slot, slots]
  idle := idle
  stamped := fun slot unstamped => by
    apply listed.stamped
    rw [← unstamped]
    simp [generation, RegistrySubscriptions.slot, slots]

/-- A chain that keeps its handles and offers keeps what is known. -/
theorem Sound.offersOf_same
    (sound : registries.Sound chains free)
    (laterSound : later.Sound chains vacant)
    (same : ∀ index ∈ chains slot,
      (later.node index).handle = (registries.node index).handle ∧
        (later.node index).offers = (registries.node index).offers)
    (name : Handle) :
    later.offersOf slot name = registries.offersOf slot name := by
  rw [sound.offersOf_map laterSound (fun _ offers => offers) same]
  exact Option.map_id'

/-- A registry has one node. -/
theorem Sound.node_unique
    {other : Nat}
    (sound : registries.Sound chains free)
    (member : index ∈ chains slot)
    (also : other ∈ chains slot)
    (same : (registries.node other).handle =
      (registries.node index).handle) : other = index :=
  List.inj_on_of_nodup_map (sound.once slot) also member same

/-- Writing the offers of one registry. -/
theorem Listed.setOffers
    (listed : registries.Listed chains free)
    (member : index ∈ chains slot)
    (offers : List Offer) :
    (registries.setOffers index offers).Listed chains free ∧
      ∀ other name, (registries.setOffers index offers).offersOf other name =
        if other = slot ∧ name = (registries.node index).handle then
          some offers
        else registries.offersOf other name := by
  have sound := listed.toSound
  have inside := sound.bound slot index member
  have node := fun position =>
    node_setNode inside { registries.node index with offers } position
  have kept : (registries.setOffers index offers).Listed chains free := by
    refine @Listed.content registries (registries.setOffers index offers)
      chains free listed List.length_set ?_ rfl rfl ?_
    · intro position
      simp only [RegistrySubscriptions.setOffers, node]
      split_ifs with same
      · rw [same]
        exact ⟨rfl, rfl⟩
      · exact ⟨rfl, rfl⟩
    · intro position outside
      have different : position ≠ index := by
        rintro rfl
        exact outside slot member
      simp only [RegistrySubscriptions.setOffers, node, if_neg different]
      exact listed.idle position outside
  refine ⟨kept, fun other name => ?_⟩
  by_cases here : other = slot
  · subst here
    rw [sound.offersOf_map kept.toSound fun name before =>
      if name = (registries.node index).handle then offers else before]
    · by_cases named : name = (registries.node index).handle
      · rw [if_pos ⟨rfl, named⟩, named, sound.offersOf_node member]
        simp
      · rw [if_neg fun both => named both.2]
        simp [named]
    · intro position inChain
      simp only [RegistrySubscriptions.setOffers, node]
      by_cases same : position = index
      · simp [same]
      · simp only [if_neg same, true_and]
        rw [if_neg fun named => same (sound.node_unique member inChain named)]
  · rw [if_neg fun both => here both.1]
    apply sound.offersOf_same kept.toSound
    intro position inChain
    have different : position ≠ index := by
      rintro rfl
      exact sound.apart other slot here inChain member
    simp only [RegistrySubscriptions.setOffers, node, if_neg different,
      and_self]

/-- Appending one offer to the nodes of a list, one after the other. -/
theorem offerAll_node
    {nodes : List Nat}
    (offer : Offer)
    (distinct : nodes.Nodup)
    (bound : ∀ index ∈ nodes, index < registries.nodes.length)
    (position : Nat) :
    let offered := nodes.foldl
      (fun registries index =>
        registries.setOffers index ((registries.node index).offers ++ [offer]))
      registries
    offered.nodes.length = registries.nodes.length ∧
      offered.slots = registries.slots ∧
      offered.freeHead = registries.freeHead ∧
      offered.epoch = registries.epoch ∧
      offered.node position =
        if position ∈ nodes then
          { registries.node position with
            offers := (registries.node position).offers ++ [offer] }
        else registries.node position := by
  induction nodes generalizing registries with
  | nil => simp
  | cons first rest offer_ih =>
      obtain ⟨apart, distinctRest⟩ := List.nodup_cons.mp distinct
      have inside := bound first List.mem_cons_self
      have length : (registries.setOffers first
          ((registries.node first).offers ++ [offer])).nodes.length =
            registries.nodes.length := List.length_set
      obtain ⟨sameLength, slots, freeHead, epoch, node⟩ :=
        @offer_ih (registries.setOffers first
            ((registries.node first).offers ++ [offer])) distinctRest (by
          intro index member
          rw [length]
          exact bound index (List.mem_cons_of_mem _ member))
      refine ⟨sameLength.trans length, slots, freeHead, epoch, ?_⟩
      rw [List.foldl_cons, node]
      have first' := node_setNode inside
        { registries.node first with
          offers := (registries.node first).offers ++ [offer] } position
      simp only [RegistrySubscriptions.setOffers, first', List.mem_cons]
      by_cases same : position = first
      · subst same
        simp [apart]
      · simp [same]

/-- Offering to a slot appends the offer to each of its registries. -/
theorem Listed.offerTo
    (listed : registries.Listed chains free)
    (slot : Nat) (offer : Offer) :
    (registries.offerTo slot offer).Listed chains free ∧
      (registries.offerTo slot offer).slots = registries.slots ∧
      (registries.offerTo slot offer).epoch = registries.epoch ∧
      ∀ other name, (registries.offerTo slot offer).offersOf other name =
        (registries.offersOf other name).map fun offers =>
          if other = slot then offers ++ [offer] else offers := by
  have sound := listed.toSound
  have facts := fun position => @offerAll_node registries (chains slot) offer
    (sound.distinct slot) (sound.bound slot) position
  have unfolded : registries.offerTo slot offer = (chains slot).foldl
      (fun registries index =>
        registries.setOffers index ((registries.node index).offers ++ [offer]))
      registries := by
    rw [RegistrySubscriptions.offerTo, sound.chain_eq]
  rw [unfolded]
  have node := fun position => (facts position).2.2.2.2
  have kept : ((chains slot).foldl
      (fun registries index =>
        registries.setOffers index ((registries.node index).offers ++ [offer]))
      registries).Listed chains free := by
    refine listed.content (facts 0).1 (fun position => ?_) (facts 0).2.2.1
      (facts 0).2.1 fun position outside => ?_
    · rw [node position]
      split_ifs <;> exact ⟨rfl, rfl⟩
    · rw [node position, if_neg (outside slot)]
      exact listed.idle position outside
  refine ⟨kept, (facts 0).2.1, (facts 0).2.2.2.1, fun other name => ?_⟩
  apply sound.offersOf_map kept.toSound fun _ offers =>
    if other = slot then offers ++ [offer] else offers
  intro position inChain
  rw [node position]
  by_cases here : other = slot
  · subst here
    rw [if_pos inChain]
    simp
  · rw [if_neg fun within => sound.apart other slot here inChain within]
    simp [here]

/-! ### Retraction -/

/-- What becomes of the offers of a registry when a global is removed. -/
def retracted (name epoch : Nat) (offers : List Offer) : List Offer :=
  offers.filterMap fun offer =>
    if offer.global.id ≠ name then some offer
    else if offer.state = .addPending then none
    else some { offer with state := .removePending, epoch }

/-- Offers that are not withdrawn yet can be. -/
theorem retractOffers_eq
    {name epoch : Nat}
    (live : ∀ offer ∈ offers, offer.global.id = name →
      offer.state = .addPending ∨ offer.state = .offered) :
    retractOffers name epoch offers = some (retracted name epoch offers) := by
  induction offers with
  | nil => rfl
  | cons offer rest retract_ih =>
      have later := retract_ih fun offer member =>
        live offer (List.mem_cons_of_mem _ member)
      rw [retractOffers, later]
      unfold retracted
      by_cases named : offer.global.id = name
      · rcases live offer List.mem_cons_self named with state | state
        · simp [named, state]
        · simp [named, state]
      · simp [named]

/-- A change that never fails is a map. -/
theorem mapM_eq_map
    {α β : Type} {change : α → Option β} {items : List α}
    (total : α → β)
    (agrees : ∀ item ∈ items, change item = some (total item)) :
    items.mapM change = some (items.map total) := by
  induction items with
  | nil => rfl
  | cons item rest map_ih =>
      rw [List.mapM_cons, agrees item List.mem_cons_self,
        map_ih fun item member => agrees item (List.mem_cons_of_mem _ member)]
      rfl

/-- While no registry was told of the removal before, it reaches all of them. -/
theorem Listed.retract
    (name : Nat)
    (listed : registries.Listed chains free)
    (live : ∀ slot registry offers,
      registries.offersOf slot registry = some offers →
        ∀ offer ∈ offers, offer.global.id = name →
          offer.state = .addPending ∨ offer.state = .offered) :
    ∃ later, registries.retract name = some later ∧
      later.Listed chains free ∧
      later.slots = registries.slots ∧
      later.epoch = registries.epoch + 1 ∧
      ∀ slot registry, later.offersOf slot registry =
        (registries.offersOf slot registry).map
          (retracted name (registries.epoch + 1)) := by
  have sound := listed.toSound
  let change : RegistryNode → RegistryNode := fun node =>
    { node with
      offers := retracted name (registries.epoch + 1) node.offers }
  let later : RegistrySubscriptions :=
    { registries with
      epoch := registries.epoch + 1
      nodes := registries.nodes.map change }
  have reaches : registries.retract name = some later := by
    unfold RegistrySubscriptions.retract advanceEpoch
    simp only
    rw [mapM_eq_map change]
    · rfl
    · intro node stored
      rw [retractOffers_eq]
      · rfl
      · obtain ⟨index, bound, rfl⟩ := List.getElem_of_mem stored
        have read : registries.node index = registries.nodes[index] :=
          List.getD_eq_getElem _ _ bound
        by_cases used : ∃ slot, index ∈ chains slot
        · obtain ⟨slot, member⟩ := used
          exact read ▸ live slot _ _ (sound.offersOf_node member)
        · have empty := listed.idle index (not_exists.mp used)
          rw [read] at empty
          simp [empty]
  have node : ∀ position, later.node position =
      change (registries.node position) := by
    intro position
    simp only [RegistrySubscriptions.node, later, List.getD_eq_getElem?_getD,
      List.getElem?_map]
    cases registries.nodes[position]? <;> rfl
  have kept : later.Listed chains free := by
    refine @Listed.content registries later chains free listed
      (List.length_map _) ?_ rfl rfl ?_
    · intro position
      rw [node position]
      exact ⟨rfl, rfl⟩
    · intro position outside
      rw [node position]
      simp only [change, listed.idle position outside]
      rfl
  refine ⟨later, reaches, kept, rfl, rfl, fun slot registry => ?_⟩
  apply sound.offersOf_map kept.toSound fun _ =>
    retracted name (registries.epoch + 1)
  intro index _
  rw [node index]
  exact ⟨rfl, rfl⟩

/-! ### Removal of registries -/

/-- A slot loses its stamp with its last registry. -/
theorem Sound.removeNode_generation
    {front back : List Nat}
    (sound : registries.Sound chains free)
    (split : chains slot = front ++ index :: back)
    (other : Nat) :
    (registries.removeNode slot front.getLast? index).generation other =
      if other = slot ∧ front ++ back = [] then 0
      else registries.generation other := by
  have member : index ∈ chains slot := by simp [split]
  have whole : (registries.slot slot).count = (front ++ back).length + 1 := by
    rw [sound.count, split]
    simp only [List.length_append, List.length_cons]
    omega
  have slots := @removeNode_slots registries slot index front.getLast?
    (sound.lt_length member)
  rw [generation, slots other, whole, Nat.add_sub_cancel]
  by_cases here : other = slot
  · subst here
    by_cases empty : front ++ back = []
    · rw [if_pos rfl, if_pos (by rw [empty]; rfl), if_pos ⟨rfl, empty⟩]
    · rw [if_pos rfl,
        if_neg fun none => empty (List.length_eq_zero_iff.mp none)]
      exact (if_neg fun both => empty both.2).symm
  · rw [if_neg here, if_neg fun both => here both.1]
    rfl

/-- Without one of its nodes, a list has every registry but that node's. -/
theorem Sound.offersOf_cut
    {front back : List Nat}
    (sound : registries.Sound chains free)
    (cut : later.Sound (Function.update chains slot (front ++ back)) vacant)
    (split : chains slot = front ++ index :: back)
    (kept : ∀ position, position ≠ index →
      (later.node position).handle = (registries.node position).handle ∧
        (later.node position).offers = (registries.node position).offers)
    (other : Nat) (name : Handle) :
    later.offersOf other name =
      if other = slot ∧ name = (registries.node index).handle then none
      else registries.offersOf other name := by
  have member : index ∈ chains slot := by simp [split]
  have distinct := sound.distinct slot
  rw [split] at distinct
  obtain ⟨alone, -⟩ := List.nodup_cons.mp (List.nodup_middle.mp distinct)
  apply Option.ext
  intro offers
  by_cases here : other = slot
  · subst here
    rw [cut.offersOf_iff, Function.update_self]
    by_cases named : name = (registries.node index).handle
    · rw [if_pos ⟨rfl, named⟩]
      simp only [reduceCtorEq, iff_false]
      rintro ⟨position, within, same, -⟩
      have apart : position ≠ index := ne_of_mem_of_not_mem within alone
      apply apart
      apply sound.node_unique member
      · rw [split]
        exact List.mem_append.mpr ((List.mem_append.mp within).imp_right
          (List.mem_cons_of_mem _))
      · rw [← (kept position apart).1, same, named]
    · rw [if_neg fun both => named both.2, sound.offersOf_iff]
      constructor
      · rintro ⟨position, within, same, content⟩
        have apart : position ≠ index := ne_of_mem_of_not_mem within alone
        rw [(kept position apart).1] at same
        rw [(kept position apart).2] at content
        refine ⟨position, ?_, same, content⟩
        rw [split]
        exact List.mem_append.mpr ((List.mem_append.mp within).imp_right
          (List.mem_cons_of_mem _))
      · rintro ⟨position, within, same, content⟩
        have apart : position ≠ index := by
          rintro rfl
          exact named same.symm
        refine ⟨position, ?_, (kept position apart).1.trans same,
          (kept position apart).2.trans content⟩
        rw [split] at within
        exact List.mem_append.mpr ((List.mem_append.mp within).imp_right
          (List.mem_of_ne_of_mem apart))
  · rw [if_neg fun both => here both.1, cut.offersOf_iff, sound.offersOf_iff,
      Function.update_of_ne here]
    apply exists_congr
    intro position
    apply and_congr_right
    intro within
    have apart : position ≠ index := by
      rintro rfl
      exact sound.apart other slot here within member
    rw [(kept position apart).1, (kept position apart).2]

/-- One node leaves its list. -/
theorem Listed.removeNode
    {front back : List Nat}
    (listed : registries.Listed chains free)
    (split : chains slot = front ++ index :: back) :
    let later := registries.removeNode slot front.getLast? index
    later.Listed (Function.update chains slot (front ++ back))
        (index :: free) ∧
      (∀ other, later.generation other =
        if other = slot ∧ front ++ back = [] then 0
        else registries.generation other) ∧
      ∀ other name, later.offersOf other name =
        if other = slot ∧ name = (registries.node index).handle then none
        else registries.offersOf other name := by
  intro later
  have sound := listed.toSound
  have member : index ∈ chains slot := by simp [split]
  obtain ⟨laterSound, contents⟩ := sound.removeNode split
  have generation := sound.removeNode_generation split
  refine ⟨⟨laterSound, fun position outside => ?_, fun other unstamped => ?_⟩,
    generation, sound.offersOf_cut laterSound split contents⟩
  · by_cases same : position = index
    · subst same
      have distinct := sound.distinct slot
      rw [split] at distinct
      obtain ⟨alone, -⟩ := List.nodup_cons.mp (List.nodup_middle.mp distinct)
      have node := @removeNode_node registries slot position front.getLast?
        (sound.bound slot position member) (by
          intro before last
          have within := List.mem_of_getLast? last
          refine ⟨sound.bound slot before (by simp [split, within]), ?_⟩
          rintro rfl
          exact alone (List.mem_append_left _ within)) position
      rw [if_pos rfl] at node
      rw [node]
    · rw [(contents position same).2]
      apply listed.idle
      intro other within
      apply outside other
      by_cases here : other = slot
      · subst here
        rw [Function.update_self]
        rw [split] at within
        exact List.mem_append.mpr ((List.mem_append.mp within).imp_right
          (List.mem_of_ne_of_mem same))
      · rw [Function.update_of_ne here]
        exact within
  · rw [generation] at unstamped
    by_cases here : other = slot
    · subst here
      rw [Function.update_self]
      by_contra remains
      rw [if_neg fun both => remains both.2] at unstamped
      have empty := listed.stamped other unstamped
      rw [empty] at member
      cases member
    · rw [if_neg fun both => here both.1] at unstamped
      rw [Function.update_of_ne here]
      exact listed.stamped other unstamped

/-- Removing a registry fails without a trace, or it takes that registry out;
the last one takes the stamp of the slot along. -/
theorem Valid.remove
    (valid : registries.Valid)
    (peer : Peer) (registry : Handle) :
    let outcome := registries.remove peer registry
    (outcome = (.error .staleHandle, registries) ∧
      registries.known peer registry = none) ∨
    outcome.1 = .ok () ∧ outcome.2.Valid ∧
      (registries.known peer registry).isSome ∧
      outcome.2.epoch = registries.epoch ∧
      outcome.2.slots.length = registries.slots.length ∧
      (∀ slot, outcome.2.generation slot = registries.generation slot ∨
        slot = peer.slot ∧ outcome.2.generation slot = 0) ∧
      (outcome.2.generation peer.slot = 0 ↔ outcome.2.Bare peer.slot) ∧
      ∀ slot name, outcome.2.offersOf slot name =
        if slot = peer.slot ∧ name = registry then none
        else registries.offersOf slot name := by
  intro outcome
  obtain ⟨chains, free, listed⟩ := valid
  have sound := listed.toSound
  by_cases served : registries.serves peer = true
  · rcases sound.locate_spec peer.slot registry with
      ⟨absent, -⟩ | ⟨front, index, back, split, named, others, found⟩
    · left
      refine ⟨?_, ?_⟩
      · simp [outcome, RegistrySubscriptions.remove, served, absent]
      · simp [known, find, served, absent]
    · right
      have removed : outcome = (.ok (),
          registries.removeNode peer.slot front.getLast? index) := by
        simp [outcome, RegistrySubscriptions.remove, served, found]
      have member : index ∈ chains peer.slot := by simp [split]
      obtain ⟨later, generation, offers⟩ := listed.removeNode split
      rw [removed]
      refine ⟨rfl, ⟨_, _, later⟩, ?_, ?_, ?_, ?_, ?_, ?_⟩
      · rw [known_eq, if_pos served, ← named, sound.offersOf_node member]
        rfl
      · cases atFront : front.getLast? <;> rfl
      · exact removeNode_slots_length _
      · intro slot
        rw [generation slot]
        split_ifs with last
        · exact Or.inr ⟨last.1, rfl⟩
        · exact Or.inl rfl
      · rw [generation, later.toSound.bare_iff, Function.update_self]
        constructor
        · intro unstamped
          by_contra remains
          rw [if_neg fun both => remains both.2] at unstamped
          rw [listed.stamped _ unstamped] at member
          cases member
        · intro empty
          exact if_pos ⟨rfl, empty⟩
      · intro slot name
        rw [offers, named]
  · left
    refine ⟨?_, ?_⟩
    · simp [outcome, RegistrySubscriptions.remove, served]
    · simp [known, find, served]

/-- Emptying a slot takes its registries out one after the other. -/
theorem Listed.clearSlot
    (slot fuel : Nat)
    (listed : registries.Listed chains free)
    (enough : (chains slot).length < fuel) :
    ∃ vacant,
      (registries.clearSlot slot fuel).Listed (Function.update chains slot [])
        vacant ∧
      (registries.clearSlot slot fuel).epoch = registries.epoch ∧
      (registries.clearSlot slot fuel).slots.length =
        registries.slots.length ∧
      (∀ other, (registries.clearSlot slot fuel).generation other =
        if other = slot ∧ chains slot ≠ [] then 0
        else registries.generation other) ∧
      ∀ other name, (registries.clearSlot slot fuel).offersOf other name =
        if other = slot then none else registries.offersOf other name := by
  induction fuel generalizing registries chains free with
  | zero => exact absurd enough (Nat.not_lt_zero _)
  | succ fuel clear_ih =>
      have sound := listed.toSound
      have linked := sound.linked slot
      cases split : chains slot with
      | nil =>
          rw [split] at linked
          have same : registries.clearSlot slot (fuel + 1) = registries := by
            rw [RegistrySubscriptions.clearSlot,
              (Chain.linked_nil _ _).mp linked]
          rw [same]
          refine ⟨free, ?_, rfl, rfl, fun other => ?_, fun other name => ?_⟩
          · rw [← split, Function.update_eq_self]
            exact listed
          · rw [if_neg fun both => both.2 rfl]
          · split_ifs with here
            · rw [here]
              exact sound.bare_iff.mpr split name
            · rfl
      | cons first rest =>
          rw [split] at linked
          have whole : chains slot = [] ++ first :: rest := split
          obtain ⟨taken, generation, offers⟩ := listed.removeNode whole
          have step : registries.clearSlot slot (fuel + 1) =
              (registries.removeNode slot none first).clearSlot slot fuel := by
            rw [RegistrySubscriptions.clearSlot,
              ((Chain.linked_cons _ _ _ _).mp linked).1]
          obtain ⟨vacant, cleared, epoch, length, stamps, contents⟩ :=
            clear_ih taken (by
              rw [Function.update_self]
              rw [split, List.length_cons] at enough
              exact Nat.lt_of_succ_lt_succ enough)
          simp only [List.getLast?_nil, List.nil_append] at *
          rw [Function.update_idem] at cleared
          rw [step]
          refine ⟨vacant, cleared, epoch.trans rfl, ?_, fun other => ?_,
            fun other name => ?_⟩
          · rw [length, removeNode_slots_length]
          · rw [stamps, generation]
            simp only [Function.update_self]
            by_cases here : other = slot
            · by_cases empty : rest = [] <;> simp [here, empty]
            · simp [here]
          · rw [contents, offers]
            split_ifs with here both
            · rfl
            · exact absurd both.1 here
            · rfl

/-- All registries of a peer leave.  The stamp of the slot goes with the last
of them; a slot that was stamped without getting a registry keeps it. -/
theorem Valid.removePeer
    (valid : registries.Valid)
    (peer : Peer) :
    let later := registries.removePeer peer
    later.Valid ∧ later.epoch = registries.epoch ∧
      later.slots.length = registries.slots.length ∧
      (∀ slot, slot ≠ peer.slot ∨ registries.Bare slot ∨
        registries.serves peer = false →
          later.generation slot = registries.generation slot) ∧
      (registries.serves peer = true → ¬ registries.Bare peer.slot →
        later.generation peer.slot = 0) ∧
      ∀ slot name, later.offersOf slot name =
        if slot = peer.slot ∧ registries.serves peer = true then none
        else registries.offersOf slot name := by
  intro later
  obtain ⟨chains, free, listed⟩ := valid
  have sound := listed.toSound
  cases served : registries.serves peer with
  | false =>
      have same : later = registries := by
        simp only [later, RegistrySubscriptions.removePeer, served,
          Bool.not_false, if_true]
      rw [same]
      refine ⟨⟨chains, free, listed⟩, rfl, rfl, fun _ _ => rfl,
        fun contra => absurd contra (by decide), fun slot name => ?_⟩
      simp
  | true =>
      have cleared : later = registries.clearSlot peer.slot
          (registries.nodes.length + 1) := by
        simp only [later, RegistrySubscriptions.removePeer, served,
          Bool.not_true, Bool.false_eq_true, if_false]
      obtain ⟨vacant, emptied, epoch, length, stamps, contents⟩ :=
        listed.clearSlot peer.slot (registries.nodes.length + 1) <|
          Nat.lt_succ_of_le <|
            Chain.length_le_of_nodup (sound.distinct _) (sound.bound _)
      rw [← cleared] at emptied epoch length stamps contents
      refine ⟨⟨_, _, emptied⟩, epoch, length, fun slot spared => ?_,
        fun _ some => ?_, fun slot name => ?_⟩
      · rw [stamps, if_neg]
        rintro ⟨rfl, inhabited⟩
        rcases spared with other | bare | unserved
        · exact other rfl
        · exact inhabited (sound.bare_iff.mp bare)
        · cases unserved
      · rw [stamps, if_pos ⟨rfl, fun empty => some (sound.bare_iff.mpr empty)⟩]
      · rw [contents]
        simp only [and_true]

/-! ### Addition of registries -/

/-- New slots have no registries. -/
theorem Listed.growSlots
    (listed : registries.Listed chains free)
    (slot : Nat) (granted : Bool) :
    let grown := (registries.growSlots slot granted).2
    grown.Listed chains free ∧ grown.epoch = registries.epoch ∧
      grown.offersOf = registries.offersOf ∧
      ∀ position, grown.generation position =
        registries.generation position := by
  intro grown
  obtain ⟨nodes, -, slots, -⟩ := @growSlots_spec registries slot granted
  have sound : grown.Sound chains free := listed.toSound.growSlots slot granted
  have node : ∀ position, grown.node position = registries.node position := by
    intro position
    simp only [grown, RegistrySubscriptions.node, nodes]
  have generations : ∀ position,
      grown.generation position = registries.generation position := by
    intro position
    rw [generation, slots]
    rfl
  refine ⟨⟨sound, fun position outside => ?_, fun position unstamped => ?_⟩,
    ?_, ?_, generations⟩
  · rw [node]
    exact listed.idle position outside
  · rw [generations] at unstamped
    exact listed.stamped position unstamped
  · simp only [grown, RegistrySubscriptions.growSlots]
    split_ifs <;> rfl
  · funext position name
    exact listed.toSound.offersOf_same sound
      (fun index _ => by simp [node]) name

/-- A stamped slot keeps its registries. -/
theorem Listed.stamp
    {stamp : Nat}
    (listed : registries.Listed chains free)
    (bound : slot < registries.slots.length)
    (nonzero : stamp ≠ 0) :
    let stamped := registries.setSlot slot
      { registries.slot slot with generation := stamp }
    stamped.Listed chains free ∧ slot < stamped.slots.length ∧
      stamped.offersOf = registries.offersOf ∧
      ∀ position, stamped.generation position =
        if position = slot then stamp
        else registries.generation position := by
  intro stamped
  have sound : stamped.Sound chains free := listed.toSound.stamp bound stamp
  have generations : ∀ position, stamped.generation position =
      if position = slot then stamp
      else registries.generation position := by
    intro position
    simp only [stamped, generation, slot_setSlot bound]
    split_ifs <;> rfl
  refine ⟨⟨sound, listed.idle, fun position unstamped => ?_⟩, ?_, ?_,
    generations⟩
  · rw [generations] at unstamped
    split_ifs at unstamped
    · exact absurd unstamped nonzero
    · exact listed.stamped position unstamped
  · simpa [stamped, setSlot] using bound
  · funext position name
    exact listed.toSound.offersOf_same sound (fun _ _ => ⟨rfl, rfl⟩) name

/-- Taking a node is not a moment. -/
theorem takeNode_epoch
    {granted : Bool} {result : Except Error Nat}
    (taken : registries.takeNode granted = (result, later)) :
    later.epoch = registries.epoch := by
  unfold RegistrySubscriptions.takeNode at taken
  cases head : registries.freeHead <;> rw [head] at taken <;>
    simp only at taken
  · split_ifs at taken <;> cases taken <;> rfl
  · cases taken
    rfl

/-- A node behind those of a slot is one more registry there, and the others
keep what they were offered. -/
theorem Sound.offersOf_append
    (sound : registries.Sound chains free)
    (linked : later.Sound
      (Function.update chains slot (chains slot ++ [index])) vacant)
    (fresh : ∀ slot, index ∉ chains slot)
    (absent : ∀ position ∈ chains slot,
      (registries.node position).handle ≠ registry)
    (placed : (later.node index).handle = registry ∧
      (later.node index).offers = [])
    (kept : ∀ position, position ≠ index →
      (later.node position).handle = (registries.node position).handle ∧
        (later.node position).offers = (registries.node position).offers)
    (other : Nat) (name : Handle) :
    later.offersOf other name =
      if other = slot ∧ name = registry then some []
      else registries.offersOf other name := by
  apply Option.ext
  intro offers
  rw [linked.offersOf_iff]
  by_cases here : other = slot
  · subst here
    rw [Function.update_self]
    by_cases named : name = registry
    · rw [if_pos ⟨rfl, named⟩, named]
      constructor
      · rintro ⟨position, within, same, content⟩
        rcases List.mem_append.mp within with before | atEnd
        · have different := ne_of_mem_of_not_mem before (fresh other)
          rw [(kept position different).1] at same
          exact absurd same (absent position before)
        · rw [List.mem_singleton.mp atEnd, placed.2] at content
          rw [content]
      · intro same
        cases same
        exact ⟨index, by simp, placed.1, placed.2⟩
    · rw [if_neg fun both => named both.2, sound.offersOf_iff]
      constructor
      · rintro ⟨position, within, same, content⟩
        rcases List.mem_append.mp within with before | atEnd
        · have different := ne_of_mem_of_not_mem before (fresh other)
          rw [(kept position different).1] at same
          rw [(kept position different).2] at content
          exact ⟨position, before, same, content⟩
        · rw [List.mem_singleton.mp atEnd, placed.1] at same
          exact absurd same.symm named
      · rintro ⟨position, within, same, content⟩
        have different := ne_of_mem_of_not_mem within (fresh other)
        exact ⟨position, List.mem_append_left _ within,
          (kept position different).1.trans same,
          (kept position different).2.trans content⟩
  · rw [if_neg fun both => here both.1, sound.offersOf_iff,
      Function.update_of_ne here]
    apply exists_congr
    intro position
    apply and_congr_right
    intro within
    have different := ne_of_mem_of_not_mem within (fresh other)
    rw [(kept position different).1, (kept position different).2]

/-- A registry that a stamped slot does not have yet is put behind those it
has. -/
theorem Listed.attach
    {granted : Bool}
    (listed : registries.Listed chains free)
    (bound : slot < registries.slots.length)
    (stamped : registries.generation slot ≠ 0)
    (range : 2 ≤ registry.id ∧ registry.id < serverIdStart)
    (absent : ∀ position ∈ chains slot,
      (registries.node position).handle ≠ registry)
    (taken : registries.takeNode granted = (.ok index, later)) :
    let attached := (later.setNode index { handle := registry }).link slot index
    (∃ vacant, attached.Listed
        (Function.update chains slot (chains slot ++ [index])) vacant) ∧
      (∀ slot, index ∉ chains slot) ∧
      attached.epoch = registries.epoch ∧
      (∀ other, attached.generation other = registries.generation other) ∧
      (attached.node index).handle = registry ∧
      (∀ position, position ≠ index →
        (attached.node position).handle = (registries.node position).handle ∧
          (attached.node position).offers =
            (registries.node position).offers) ∧
      ∀ other name, attached.offersOf other name =
        if other = slot ∧ name = registry then some []
        else registries.offersOf other name := by
  intro attached
  obtain ⟨vacant, sound, inside, fresh, notFree, sameSlots, others⟩ :=
    listed.toSound.takeNode taken
  have laterBound : slot < later.slots.length := by
    rw [sameSlots]
    exact bound
  have linked : attached.Sound
      (Function.update chains slot (chains slot ++ [index])) vacant :=
    sound.link laterBound inside fresh notFree range fun position member => by
      rw [others position (ne_of_mem_of_not_mem member (fresh slot))]
      exact absent position member
  have within : ∀ last, (later.slot slot).tail = some last →
      last < later.nodes.length := by
    intro last atEnd
    rw [sound.tail] at atEnd
    exact sound.bound _ last (List.mem_of_getLast? atEnd)
  have node : ∀ position,
      (attached.node position).handle =
        (if position = index then registry
          else (later.node position).handle) ∧
      (attached.node position).offers =
        if position = index then [] else (later.node position).offers := by
    intro position
    have read := @link_node (later.setNode index { handle := registry }) slot
      index (fun last atEnd => by
        rw [show (later.setNode index { handle := registry }).nodes.length =
          later.nodes.length from List.length_set]
        exact within last atEnd) position
    rw [show attached.node position = _ from read, node_setNode inside]
    split_ifs <;> exact ⟨rfl, rfl⟩
  have kept : ∀ position, position ≠ index →
      (attached.node position).handle = (registries.node position).handle ∧
        (attached.node position).offers =
          (registries.node position).offers := by
    intro position different
    rw [(node position).1, (node position).2, if_neg different,
      if_neg different, others position different]
    exact ⟨rfl, rfl⟩
  have placed : (attached.node index).handle = registry ∧
      (attached.node index).offers = [] := by
    rw [(node index).1, (node index).2, if_pos rfl, if_pos rfl]
    exact ⟨rfl, rfl⟩
  have generations : ∀ other,
      attached.generation other = registries.generation other := by
    intro other
    have sameSlot : ∀ slot, (later.setNode index
        { handle := registry }).slot slot = registries.slot slot := by
      intro slot
      simp [RegistrySubscriptions.slot, setNode, sameSlots]
    have read := @link_slot (later.setNode index { handle := registry }) slot
      index laterBound other
    rw [generation, show attached.slot other = _ from read, sameSlot, sameSlot]
    by_cases here : other = slot
    · rw [if_pos here, here]
      rfl
    · rw [if_neg here]
      rfl
  have epoch : attached.epoch = later.epoch := by
    simp only [attached]
    unfold RegistrySubscriptions.link
    cases ((later.setNode index { handle := registry }).slot slot).tail <;> rfl
  refine ⟨⟨_, linked, ?_, ?_⟩, fresh, epoch.trans (takeNode_epoch taken),
    generations, placed.1, kept,
    listed.toSound.offersOf_append linked fresh absent placed kept⟩
  · intro position outside
    by_cases here : position = index
    · rw [here, placed.2]
    · rw [(kept position here).2]
      apply listed.idle
      intro other member
      apply outside other
      rw [Function.update_apply]
      split_ifs with same
      · rw [← same]
        exact List.mem_append_left _ member
      · exact member
  · intro other unstamped
    rw [generations] at unstamped
    rw [Function.update_apply]
    split_ifs with same
    · rw [same] at unstamped
      exact absurd unstamped stamped
    · exact listed.stamped other unstamped

/-- A registry is added, or the lists stay as they were.  The slot can be
stamped for the peer without a registry to show for it. -/
theorem Valid.add
    (valid : registries.Valid)
    (peer : Peer) (registry : Handle)
    (nonzero : peer.generation ≠ 0)
    (range : 2 ≤ registry.id ∧ registry.id < serverIdStart)
    (slotGranted nodeGranted : Bool) :
    let outcome := registries.add peer registry slotGranted nodeGranted
    outcome.2.Valid ∧ outcome.2.epoch = registries.epoch ∧
      (∀ slot, slot ≠ peer.slot →
        outcome.2.generation slot = registries.generation slot) ∧
      match outcome.1 with
      | .error _ => outcome.2.offersOf = registries.offersOf ∧
          (outcome.2.generation peer.slot = registries.generation peer.slot ∨
            registries.generation peer.slot = 0 ∧
              outcome.2.generation peer.slot = peer.generation)
      | .ok index =>
          registries.offersOf peer.slot registry = none ∧
            (registries.generation peer.slot = 0 ∨
              registries.generation peer.slot = peer.generation) ∧
            outcome.2.generation peer.slot = peer.generation ∧
            index ∈ outcome.2.chain peer.slot ∧
            (outcome.2.node index).handle = registry ∧
            ∀ slot name, outcome.2.offersOf slot name =
              if slot = peer.slot ∧ name = registry then some []
              else registries.offersOf slot name := by
  intro outcome
  obtain ⟨chains, free, listed⟩ := valid
  obtain ⟨-, -, -, grown⟩ := @growSlots_spec registries peer.slot slotGranted
  obtain ⟨firstListed, firstEpoch, firstOffers, firstGeneration⟩ :=
    listed.growSlots peer.slot slotGranted
  have computed : registries.add peer registry slotGranted nodeGranted =
    outcome := rfl
  clear_value outcome
  unfold RegistrySubscriptions.add at computed
  cases answer : registries.growSlots peer.slot slotGranted with
  | mk result first =>
  rw [answer] at grown firstListed firstEpoch firstOffers firstGeneration
  simp only at grown firstListed firstEpoch firstOffers firstGeneration
  cases result with
  | error cause =>
      simp only [answer] at computed
      rw [← computed]
      exact ⟨⟨_, _, firstListed⟩, firstEpoch, fun slot _ => firstGeneration slot,
        firstOffers, Or.inl (firstGeneration peer.slot)⟩
  | ok granted =>
  have bound := grown rfl
  simp only [answer] at computed
  generalize claimed : (if (first.slot peer.slot).generation = 0 then
    first.setSlot peer.slot
      { first.slot peer.slot with generation := peer.generation }
    else first) = second at computed
  have stamping : second.Listed chains free ∧
      peer.slot < second.slots.length ∧
      second.epoch = registries.epoch ∧
      second.offersOf = registries.offersOf ∧
      (∀ slot, slot ≠ peer.slot →
        second.generation slot = registries.generation slot) ∧
      (second.generation peer.slot = registries.generation peer.slot ∨
        registries.generation peer.slot = 0 ∧
          second.generation peer.slot = peer.generation) := by
    by_cases unclaimed : (first.slot peer.slot).generation = 0
    · rw [if_pos unclaimed] at claimed
      obtain ⟨stamped, inside, offers, generations⟩ :=
        firstListed.stamp bound nonzero
      rw [claimed] at stamped inside offers generations
      refine ⟨stamped, inside, claimed ▸ firstEpoch, offers.trans firstOffers,
        fun slot different => ?_, Or.inr ⟨?_, ?_⟩⟩
      · rw [generations, if_neg different, firstGeneration]
      · exact (firstGeneration peer.slot).symm.trans unclaimed
      · rw [generations, if_pos rfl]
    · rw [if_neg unclaimed] at claimed
      subst claimed
      exact ⟨firstListed, bound, firstEpoch, firstOffers,
        fun slot _ => firstGeneration slot,
        Or.inl (firstGeneration peer.slot)⟩
  obtain ⟨secondListed, secondBound, secondEpoch, secondOffers,
    secondOthers, secondStamp⟩ := stamping
  have refused : ∀ cause : Error,
      second.Valid ∧ second.epoch = registries.epoch ∧
      (∀ slot, slot ≠ peer.slot →
        second.generation slot = registries.generation slot) ∧
      second.offersOf = registries.offersOf ∧
      (second.generation peer.slot = registries.generation peer.slot ∨
        registries.generation peer.slot = 0 ∧
          second.generation peer.slot = peer.generation) := fun _ =>
    ⟨⟨_, _, secondListed⟩, secondEpoch, secondOthers, secondOffers, secondStamp⟩
  by_cases stale : (second.slot peer.slot).generation ≠ peer.generation
  · rw [if_pos stale] at computed
    rw [← computed]
    exact refused .staleHandle
  rw [if_neg stale] at computed
  have current : second.generation peer.slot = peer.generation :=
    not_not.mp stale
  rcases secondListed.toSound.locate_spec peer.slot registry with
    ⟨missing, absent⟩ | ⟨front, index, back, _, _, _, found⟩
  · simp only [missing, Option.isSome_none, Bool.false_eq_true, if_false]
      at computed
    cases taken : second.takeNode nodeGranted with
    | mk result third =>
    simp only [taken] at computed
    cases result with
    | error cause =>
        rw [← computed, takeNode_error taken]
        exact refused cause
    | ok index =>
        obtain ⟨⟨vacant, attached⟩, -, epoch, generations, named, -, offers⟩ :=
          secondListed.attach secondBound (current ▸ nonzero) range absent taken
        rw [← computed]
        refine ⟨⟨_, _, attached⟩, epoch.trans secondEpoch,
          fun slot different => ?_, ?_, ?_, ?_, ?_, named, ?_⟩
        · rw [generations, secondOthers slot different]
        · rw [← secondOffers]
          refine Option.eq_none_iff_forall_not_mem.mpr fun offers held => ?_
          obtain ⟨position, member, named, -⟩ :=
            (secondListed.toSound.offersOf_iff _ _ _).mp held
          exact absent position member named
        · rcases secondStamp with kept | ⟨unstamped, -⟩
          · exact Or.inr (kept.symm.trans current)
          · exact Or.inl unstamped
        · rw [generations, current]
        · rw [attached.toSound.chain_eq, Function.update_self]
          exact List.mem_append_right _ (List.mem_singleton_self index)
        · rw [← secondOffers]
          exact offers
  · simp only [found, Option.isSome_some, if_true] at computed
    rw [← computed]
    exact refused .duplicateId

end Writing

/-! ## Owed events -/

section Owing

variable {registries later : RegistrySubscriptions} {chains : Nat → List Nat}
  {free : List Nat} {peer : Peer} {registry : Handle} {slot index : Nat}

/-- The owed events among a node's offers, from a position on. -/
def pendingOf (node : Nat) : Nat → List Offer → List Pending
  | _, [] => []
  | position, offer :: rest =>
      (if offer.state.pending then
        [{ node, offer := position, epoch := offer.epoch }] else []) ++
        pendingOf node (position + 1) rest

/-- What a peer is owed, in the order of its registries and their offers. -/
def owed (registries : RegistrySubscriptions) (peer : Peer) : List Pending :=
  if !registries.serves peer then []
  else
    (registries.chain peer.slot).flatMap fun index =>
      pendingOf index 0 (registries.node index).offers

/-- The scan of a node finds the oldest event that it is owed. -/
theorem scan_eq
    (node position : Nat) (offers : List Offer) (best : Option Pending) :
    scan node position offers best =
      (pendingOf node position offers).foldl
        (List.argAux fun new best => new.epoch < best.epoch) best := by
  induction offers generalizing position best with
  | nil => rfl
  | cons offer rest scan_ih =>
      rw [scan, scan_ih, pendingOf, List.foldl_append]
      congr 1
      cases owes : offer.state.pending with
      | false => rfl
      | true =>
          cases best with
          | none => rfl
          | some best =>
              simp only [Bool.not_true, Bool.false_eq_true, if_false,
                Option.any_some, decide_eq_true_eq, if_true, List.foldl_cons,
                List.foldl_nil, List.argAux]
              split_ifs <;> first | rfl | omega

/-- What is published next is the first of the earliest owed events. -/
theorem nextPending_eq (registries : RegistrySubscriptions) (peer : Peer) :
    registries.nextPending peer =
      (registries.owed peer).argmin Pending.epoch := by
  unfold nextPending owed
  cases served : registries.serves peer with
  | false => rfl
  | true =>
      simp only [Bool.not_true, Bool.false_eq_true, if_false, List.argmin]
      rw [List.foldl_flatMap]
      simp only [scan_eq]

/-- The events that a node is owed are those of its pending offers. -/
theorem mem_pendingOf
    {pending : Pending} {node position : Nat} {offers : List Offer} :
    pending ∈ pendingOf node position offers ↔
      pending.node = node ∧ ∃ ahead offer, pending.offer = position + ahead ∧
        offers[ahead]? = some offer ∧ offer.state.pending = true ∧
        pending.epoch = offer.epoch := by
  induction offers generalizing position with
  | nil => simp [pendingOf]
  | cons first rest pending_ih =>
      rw [pendingOf, List.mem_append, pending_ih]
      constructor
      · rintro (here | ⟨same, ahead, offer, place, found, owes, epoch⟩)
        · cases owes : first.state.pending with
          | false => simp [owes] at here
          | true =>
              rw [owes, if_pos rfl, List.mem_singleton] at here
              subst here
              exact ⟨rfl, 0, first, rfl, rfl, owes, rfl⟩
        · exact ⟨same, ahead + 1, offer, by omega, found, owes, epoch⟩
      · rintro ⟨same, ahead, offer, place, found, owes, epoch⟩
        cases ahead with
        | zero =>
            cases found
            left
            rw [owes, if_pos rfl, List.mem_singleton]
            cases pending
            simp_all
        | succ ahead =>
            exact Or.inr ⟨same, ahead, offer, by omega, found, owes, epoch⟩

/-- The events that a peer is owed are those of its registries. -/
theorem Sound.mem_owed
    (sound : registries.Sound chains free)
    {pending : Pending} :
    pending ∈ registries.owed peer ↔
      registries.serves peer = true ∧ pending.node ∈ chains peer.slot ∧
        ∃ offer,
          (registries.node pending.node).offers[pending.offer]? =
            some offer ∧
          offer.state.pending = true ∧ pending.epoch = offer.epoch := by
  unfold owed
  cases served : registries.serves peer with
  | false => simp
  | true =>
      simp only [Bool.not_true, Bool.false_eq_true, if_false, true_and,
        sound.chain_eq, List.mem_flatMap, mem_pendingOf, Nat.zero_add]
      constructor
      · rintro ⟨index, member, rfl, ahead, offer, rfl, found⟩
        exact ⟨member, offer, found⟩
      · rintro ⟨member, offer, found⟩
        exact ⟨_, member, rfl, _, offer, rfl, found⟩

/-- The next event is an owed one, and no event was owed before it. -/
theorem Listed.nextPending
    (listed : registries.Listed chains free)
    (peer : Peer) :
    match registries.nextPending peer with
    | none => ∀ registry offers,
        registries.known peer registry = some offers →
          ∀ offer ∈ offers, offer.state.pending = false
    | some pending =>
        registries.serves peer = true ∧ pending.node ∈ chains peer.slot ∧
          (∃ offer,
            (registries.node pending.node).offers[pending.offer]? =
              some offer ∧
            offer.state.pending = true ∧ pending.epoch = offer.epoch) ∧
          ∀ registry offers,
            registries.known peer registry = some offers →
              ∀ offer ∈ offers, offer.state.pending = true →
                pending.epoch ≤ offer.epoch := by
  have sound := listed.toSound
  have listedOwed : ∀ registry offers,
      registries.known peer registry = some offers →
        ∀ offer ∈ offers, offer.state.pending = true →
          ∃ pending ∈ registries.owed peer, pending.epoch = offer.epoch := by
    intro registry offers found offer member owes
    obtain ⟨served, index, inChain, -, rfl⟩ :=
      (sound.known_iff peer registry offers).mp found
    obtain ⟨position, bound, rfl⟩ := List.getElem_of_mem member
    refine ⟨⟨index, position, _⟩, sound.mem_owed.mpr ⟨served, inChain, _,
      List.getElem?_eq_getElem bound, owes, rfl⟩, rfl⟩
  rw [nextPending_eq]
  cases best : (registries.owed peer).argmin Pending.epoch with
  | none =>
      rw [List.argmin_eq_none] at best
      intro registry offers found offer member
      by_contra owes
      obtain ⟨pending, within, -⟩ := listedOwed registry offers found offer
        member (Bool.not_eq_false _ ▸ owes)
      rw [best] at within
      cases within
  | some pending =>
      obtain ⟨served, inChain, content⟩ :=
        sound.mem_owed.mp (List.argmin_mem best)
      refine ⟨served, inChain, content, ?_⟩
      intro registry offers found offer member owes
      obtain ⟨other, within, epoch⟩ :=
        listedOwed registry offers found offer member owes
      rw [← epoch]
      exact List.le_of_mem_argmin within best

end Owing

/-! ## Registries by peer -/

section ByPeer

variable {registries later : RegistrySubscriptions} {chains : Nat → List Nat}
  {free : List Nat} {peer other : Peer} {registry name : Handle}
  {index : Nat} {offers : List Offer}

/-- What a registry knows is at its slot when the stamp is its peer's. -/
theorem Valid.known_eq
    (valid : registries.Valid)
    (peer : Peer) (registry : Handle) :
    registries.known peer registry =
      if peer.generation ≠ 0 ∧
          registries.generation peer.slot = peer.generation then
        registries.offersOf peer.slot registry
      else none := by
  obtain ⟨chains, free, listed⟩ := valid
  rw [RegistrySubscriptions.known_eq]
  by_cases unstamped : peer.generation = 0
  · have bare : registries.serves peer = true →
        registries.offersOf peer.slot registry = none := by
      intro served
      apply listed.bare_of_generation
      rw [← unstamped]
      exact (serves_iff.mp served).2
    by_cases served : registries.serves peer = true
    · simp [unstamped, bare served]
    · simp [unstamped, served]
  · simp only [serves_iff_generation unstamped, unstamped, not_false_eq_true,
      true_and, ne_eq]

/-- A client made the registries that a peer knows. -/
theorem Valid.known_range
    (valid : registries.Valid)
    (known : registries.known peer registry = some offers) :
    2 ≤ registry.id ∧ registry.id < serverIdStart := by
  rw [RegistrySubscriptions.known_eq] at known
  split_ifs at known
  obtain ⟨chains, free, listed⟩ := valid
  obtain ⟨index, member, rfl, -⟩ :=
    (listed.toSound.offersOf_iff peer.slot registry offers).mp known
  exact listed.toSound.client peer.slot index member

/-- A peer knows nothing under a name that its slot does not have. -/
theorem Valid.known_of_absent
    (valid : registries.Valid)
    (absent : registries.offersOf peer.slot registry = none) :
    registries.known peer registry = none := by
  rw [valid.known_eq, absent, ite_self]

/-- A peer that its slot is not stamped for knows nothing. -/
theorem Valid.known_of_stale
    (valid : registries.Valid)
    (stale : registries.generation peer.slot ≠ peer.generation) :
    registries.known peer registry = none := by
  rw [valid.known_eq, if_neg]
  exact fun both => stale both.2

/-- A peer that knows a registry is the one that its slot is stamped for. -/
theorem Valid.known_stamp
    (valid : registries.Valid)
    (known : (registries.known peer registry).isSome) :
    peer.generation ≠ 0 ∧
      registries.generation peer.slot = peer.generation := by
  rw [valid.known_eq] at known
  by_contra unserved
  rw [if_neg unserved] at known
  cases known

/-- A peer knows the same registries while its slot keeps them and its stamp. -/
theorem Valid.known_congr
    (valid : registries.Valid)
    (laterValid : later.Valid)
    (offers : later.offersOf other.slot name =
      registries.offersOf other.slot name)
    (stamp : later.generation other.slot = registries.generation other.slot ∨
      registries.offersOf other.slot name = none) :
    later.known other name = registries.known other name := by
  rcases stamp with same | absent
  · rw [laterValid.known_eq, valid.known_eq, offers, same]
  · rw [valid.known_of_absent absent,
      laterValid.known_of_absent (offers.trans absent)]

/-- A slot with registries is stamped for the peer that has them. -/
theorem Valid.known_of_offersOf
    {slot : Nat}
    (valid : registries.Valid)
    (held : registries.offersOf slot registry = some offers) :
    registries.generation slot ≠ 0 ∧
      registries.known { slot, generation := registries.generation slot }
        registry = some offers := by
  have stamped : registries.generation slot ≠ 0 := by
    intro unstamped
    obtain ⟨chains, free, listed⟩ := valid
    rw [listed.bare_of_generation unstamped] at held
    cases held
  refine ⟨stamped, ?_⟩
  rw [valid.known_eq, if_pos ⟨stamped, rfl⟩, held]

/-- A name has offers exactly when a registry of a peer knows it. -/
theorem Valid.hasOffers_iff
    (valid : registries.Valid)
    (name : Nat) :
    registries.hasOffers name = true ↔
      ∃ peer registry offers,
        registries.known peer registry = some offers ∧
          ∃ offer ∈ offers, offer.global.id = name := by
  obtain ⟨chains, free, listed⟩ := valid
  rw [listed.hasOffers_iff]
  constructor
  · rintro ⟨slot, registry, offers, held, present⟩
    exact ⟨_, registry, offers,
      (Valid.known_of_offersOf ⟨_, _, listed⟩ held).2, present⟩
  · rintro ⟨peer, registry, offers, found, present⟩
    rw [Valid.known_eq ⟨_, _, listed⟩] at found
    split_ifs at found
    exact ⟨peer.slot, registry, offers, found, present⟩

/-- A peer's registry is removed: the peer does not know it any more. -/
theorem Valid.known_remove
    (valid : registries.Valid)
    (removed : registries.remove peer registry = (.ok (), later)) :
    later.Valid ∧ later.epoch = registries.epoch ∧
      (∀ slot, later.generation slot ≠ 0 →
        registries.generation slot ≠ 0) ∧
      (registries.known peer registry).isSome ∧
      ∀ other name, later.known other name =
        if other = peer ∧ name = registry then none
        else registries.known other name := by
  rcases valid.remove peer registry with
    ⟨refused, -⟩ | ⟨-, laterValid, known, epoch, length, kept, last, offers⟩
  · rw [refused] at removed
    cases removed
  rw [removed] at laterValid epoch length kept last offers
  simp only at laterValid epoch length kept last offers
  obtain ⟨nonzero, stamp⟩ := valid.known_stamp known
  refine ⟨laterValid, epoch, ?_, known, ?_⟩
  · intro slot stamped
    rcases kept slot with same | ⟨-, cleared⟩
    · rwa [← same]
    · exact absurd cleared stamped
  · intro other name
    by_cases here : other.slot = peer.slot ∧ name = registry
    · have absent : later.known other name = none := by
        apply laterValid.known_of_absent
        rw [offers, if_pos here]
      rw [absent]
      split_ifs with both
      · rfl
      · symm
        apply valid.known_of_stale
        rw [here.1, stamp]
        intro same
        exact both ⟨peer_ext here.1 same.symm, here.2⟩
    · have unchanged := (offers other.slot name).trans (if_neg here)
      rw [if_neg fun both => here ⟨congrArg Peer.slot both.1, both.2⟩]
      apply valid.known_congr laterValid unchanged
      rcases kept other.slot with same | ⟨slot, cleared⟩
      · exact Or.inl same
      · rw [slot] at cleared unchanged ⊢
        exact Or.inr (unchanged.symm.trans (last.mp cleared name))

/-- All registries of a peer leave: the peer does not know any. -/
theorem Valid.known_removePeer
    (valid : registries.Valid)
    (peer : Peer) :
    let later := registries.removePeer peer
    later.Valid ∧ later.epoch = registries.epoch ∧
      (∀ slot, later.generation slot ≠ 0 →
        registries.generation slot ≠ 0) ∧
      ∀ other name, later.known other name =
        if other = peer then none else registries.known other name := by
  intro later
  obtain ⟨laterValid, epoch, length, kept, cleared, offers⟩ :=
    valid.removePeer peer
  refine ⟨laterValid, epoch, ?_, ?_⟩
  · intro slot stamped
    by_cases spared : slot ≠ peer.slot ∨ registries.Bare slot ∨
        registries.serves peer = false
    · rwa [← kept slot spared]
    · rw [not_or, not_or, not_not, Bool.not_eq_false] at spared
      obtain ⟨rfl, inhabited, served⟩ := spared
      exact absurd (cleared served inhabited) stamped
  · intro other name
    by_cases gone : other.slot = peer.slot ∧ registries.serves peer = true
    · have absent : later.known other name = none := by
        apply laterValid.known_of_absent
        rw [offers, if_pos gone]
      rw [absent]
      split_ifs with same
      · rfl
      · symm
        apply valid.known_of_stale
        rw [gone.1, (serves_iff.mp gone.2).2]
        intro stamp
        exact same (peer_ext gone.1 stamp.symm)
    · have spared : other.slot ≠ peer.slot ∨ registries.Bare other.slot ∨
          registries.serves peer = false := by
        by_cases slot : other.slot = peer.slot
        · exact Or.inr (Or.inr (by simpa [slot] using gone))
        · exact Or.inl slot
      rw [valid.known_congr laterValid
        ((offers other.slot name).trans (if_neg gone))
        (Or.inl (kept other.slot spared))]
      split_ifs with same
      · subst same
        by_cases nonzero : other.generation = 0
        · rw [valid.known_eq, if_neg fun both => both.1 nonzero]
        · apply valid.known_of_stale
          intro stamp
          exact gone ⟨rfl, (serves_iff_generation nonzero).mpr stamp⟩
      · rfl

/-- A refused registry leaves every peer with what it knew. -/
theorem Valid.known_add_error
    {cause : Error} {slotGranted nodeGranted : Bool}
    (valid : registries.Valid)
    (nonzero : peer.generation ≠ 0)
    (range : 2 ≤ registry.id ∧ registry.id < serverIdStart)
    (refused : registries.add peer registry slotGranted nodeGranted =
      (.error cause, later)) :
    later.Valid ∧ later.epoch = registries.epoch ∧
      (∀ slot, later.generation slot ≠ 0 →
        registries.generation slot ≠ 0 ∨ slot = peer.slot) ∧
      ∀ other name, later.known other name = registries.known other name := by
  have outcome := valid.add peer registry nonzero range
    slotGranted nodeGranted
  rw [refused] at outcome
  obtain ⟨laterValid, epoch, others, offers, stamp⟩ := outcome
  refine ⟨laterValid, epoch, ?_, ?_⟩
  · intro slot stamped
    by_cases here : slot = peer.slot
    · exact Or.inr here
    · left
      rwa [← others slot here]
  · intro other name
    apply valid.known_congr laterValid (by rw [offers])
    by_cases here : other.slot = peer.slot
    · rw [here]
      rcases stamp with same | ⟨unstamped, -⟩
      · exact Or.inl same
      · obtain ⟨chains, free, listed⟩ := valid
        exact Or.inr (listed.bare_of_generation unstamped name)
    · exact Or.inl (others other.slot here)

/-- New offers of one registry of a peer. -/
theorem Listed.known_setOffers
    (listed : registries.Listed chains free)
    (served : registries.serves peer = true)
    (member : index ∈ chains peer.slot)
    (offers : List Offer) :
    (registries.setOffers index offers).Valid ∧
      ∀ other name, (registries.setOffers index offers).known other name =
        if other = peer ∧ name = (registries.node index).handle then
          some offers
        else registries.known other name := by
  obtain ⟨written, writes⟩ := listed.setOffers member offers
  refine ⟨⟨_, _, written⟩, fun other name => ?_⟩
  rw [RegistrySubscriptions.known_eq, RegistrySubscriptions.known_eq, writes]
  change (if registries.serves other = true then _ else _) = _
  by_cases servedOther : registries.serves other = true
  · rw [if_pos servedOther, if_pos servedOther]
    by_cases here : other.slot = peer.slot
    · rw [serves_unique servedOther served here]
      simp
    · rw [if_neg fun both => here both.1,
        if_neg fun both => here (congrArg Peer.slot both.1)]
  · rw [if_neg servedOther, if_neg servedOther, if_neg]
    rintro ⟨rfl, -⟩
    exact servedOther served

/-- The clock alone changes nothing that a peer knows. -/
theorem Valid.known_epoch
    (valid : registries.Valid)
    (epoch : Nat) :
    RegistrySubscriptions.Valid { registries with epoch } ∧
      ∀ other name, RegistrySubscriptions.known { registries with epoch }
        other name = registries.known other name := by
  obtain ⟨chains, free, listed⟩ := valid
  have again : Listed { registries with epoch } chains free :=
    listed.content rfl (fun _ => ⟨rfl, rfl⟩) rfl rfl listed.idle
  refine ⟨⟨_, _, again⟩, fun other name => ?_⟩
  apply Valid.known_congr ⟨_, _, listed⟩ ⟨_, _, again⟩
  · exact listed.toSound.offersOf_same again.toSound (fun _ _ => ⟨rfl, rfl⟩)
      name
  · exact Or.inl rfl

/-- A new registry is known to its peer, with the offers it starts with. -/
theorem Valid.known_add
    {slotGranted nodeGranted : Bool}
    (valid : registries.Valid)
    (nonzero : peer.generation ≠ 0)
    (range : 2 ≤ registry.id ∧ registry.id < serverIdStart)
    (added : registries.add peer registry slotGranted nodeGranted =
      (.ok index, later))
    (epoch : Nat) (offers : List Offer) :
    registries.known peer registry = none ∧
      RegistrySubscriptions.Valid
        (RegistrySubscriptions.setOffers { later with epoch } index offers) ∧
      (∀ slot, later.generation slot ≠ 0 →
        registries.generation slot ≠ 0 ∨ slot = peer.slot) ∧
      later.epoch = registries.epoch ∧ later.Valid ∧
      (later.known peer registry).isSome ∧
      (∀ other name, later.known other name =
        if other = peer ∧ name = registry then some []
        else registries.known other name) ∧
      ∀ other name,
        (RegistrySubscriptions.setOffers { later with epoch } index
          offers).known other name =
        if other = peer ∧ name = registry then some offers
        else registries.known other name := by
  have outcome := valid.add peer registry nonzero range
    slotGranted nodeGranted
  rw [added] at outcome
  obtain ⟨laterValid, sameEpoch, others, absent, before, stamp, member, named,
    contents⟩ := outcome
  simp only at laterValid sameEpoch others stamp member named contents
  have here : later.known peer registry = some [] := by
    rw [laterValid.known_eq, if_pos ⟨nonzero, stamp⟩, contents,
      if_pos ⟨rfl, rfl⟩]
  have elsewhere : ∀ other name, later.known other name =
      if other = peer ∧ name = registry then some []
      else registries.known other name := by
    intro other name
    by_cases slot : other.slot = peer.slot
    · by_cases same : other = peer
      · subst same
        by_cases equal : name = registry
        · rw [equal, here, if_pos ⟨rfl, rfl⟩]
        · rw [if_neg fun both => equal both.2]
          apply valid.known_congr laterValid
            ((contents other.slot name).trans
              (if_neg fun both => equal both.2))
          rcases before with unstamped | current
          · obtain ⟨chains, free, listed⟩ := valid
            exact Or.inr (listed.bare_of_generation unstamped name)
          · exact Or.inl (stamp.trans current.symm)
      · have apart : peer.generation ≠ other.generation :=
          fun equal => same (peer_ext slot equal.symm)
        rw [if_neg fun both => same both.1, laterValid.known_of_stale]
        · symm
          rcases before with unstamped | current
          · apply valid.known_of_absent
            rw [slot]
            obtain ⟨chains, free, listed⟩ := valid
            exact listed.bare_of_generation unstamped name
          · apply valid.known_of_stale
            rw [slot, current]
            exact apart
        · rw [slot, stamp]
          exact apart
    · rw [if_neg fun both => slot (congrArg Peer.slot both.1)]
      exact valid.known_congr laterValid
        ((contents other.slot name).trans (if_neg fun both => slot both.1))
        (Or.inl (others other.slot slot))
  obtain ⟨chains, free, listed⟩ := laterValid
  rw [listed.toSound.chain_eq] at member
  have again : Listed { later with epoch } chains free :=
    listed.content rfl (fun _ => ⟨rfl, rfl⟩) rfl rfl listed.idle
  have sameKnown := (Valid.known_epoch ⟨_, _, listed⟩ epoch).2
  have served : RegistrySubscriptions.serves { later with epoch } peer =
      true := (serves_iff_generation nonzero).mpr stamp
  obtain ⟨written, writes⟩ := again.known_setOffers served member offers
  refine ⟨valid.known_of_absent absent, written, ?_, sameEpoch,
    ⟨_, _, listed⟩, ?_, elsewhere, ?_⟩
  · intro slot stamped
    by_cases same : slot = peer.slot
    · exact Or.inr same
    · left
      rwa [← others slot same]
  · rw [here]
    rfl
  · intro other name
    rw [writes, sameKnown, elsewhere, show (RegistrySubscriptions.node
      { later with epoch } index).handle = registry from named]
    by_cases both : other = peer ∧ name = registry
    · rw [if_pos both, if_pos both]
    · rw [if_neg both, if_neg both, if_neg both]

/-- A located registry is the one its peer knows, and its offers can be
written. -/
theorem Valid.located
    {previous : Option Nat} {position : Nat}
    (valid : registries.Valid)
    (served : registries.serves peer = true)
    (located : registries.locate peer.slot registry =
      some (previous, position)) :
    registries.known peer registry =
        some (registries.node position).offers ∧
      ∀ offers,
        (registries.setOffers position offers).Valid ∧
          (registries.setOffers position offers).epoch = registries.epoch ∧
          ∀ other name,
            (registries.setOffers position offers).known other name =
              if other = peer ∧ name = registry then some offers
              else registries.known other name := by
  obtain ⟨chains, free, listed⟩ := valid
  rcases listed.toSound.locate_spec peer.slot registry with
    ⟨absent, -⟩ | ⟨front, index, back, split, named, others, found⟩
  · rw [absent] at located
    cases located
  · rw [found] at located
    cases located
    have member : position ∈ chains peer.slot := by
      rw [split]
      exact List.mem_append_right _ List.mem_cons_self
    refine ⟨?_, fun offers => ?_⟩
    · rw [RegistrySubscriptions.known_eq, if_pos served, offersOf, found]
      rfl
    · obtain ⟨written, writes⟩ := listed.known_setOffers served member offers
      rw [named] at writes
      exact ⟨written, rfl, writes⟩

/-- An offer to a slot reaches every registry of its peer. -/
theorem Valid.known_offerTo
    (valid : registries.Valid)
    (slot : Nat) (offer : Offer) :
    (registries.offerTo slot offer).Valid ∧
      (registries.offerTo slot offer).slots = registries.slots ∧
      (registries.offerTo slot offer).epoch = registries.epoch ∧
      ∀ other name, (registries.offerTo slot offer).known other name =
        (registries.known other name).map fun offers =>
          if other.slot = slot then offers ++ [offer] else offers := by
  obtain ⟨chains, free, listed⟩ := valid
  obtain ⟨written, slots, epoch, writes⟩ := listed.offerTo slot offer
  refine ⟨⟨_, _, written⟩, slots, epoch, fun other name => ?_⟩
  have served : (registries.offerTo slot offer).serves other =
      registries.serves other := by
    unfold serves RegistrySubscriptions.slot
    rw [slots]
  rw [RegistrySubscriptions.known_eq, RegistrySubscriptions.known_eq, served,
    writes]
  split_ifs <;> rfl

/-- The removal of a global reaches every registry. -/
theorem Valid.known_retract
    (valid : registries.Valid)
    (name : Nat)
    (live : ∀ peer registry offers,
      registries.known peer registry = some offers →
        ∀ offer ∈ offers, offer.global.id = name →
          offer.state = .addPending ∨ offer.state = .offered) :
    ∃ later, registries.retract name = some later ∧ later.Valid ∧
      later.slots = registries.slots ∧
      later.epoch = registries.epoch + 1 ∧
      ∀ peer registry, later.known peer registry =
        (registries.known peer registry).map
          (retracted name (registries.epoch + 1)) := by
  obtain ⟨chains, free, listed⟩ := valid
  obtain ⟨later, reaches, written, slots, epoch, writes⟩ :=
    listed.retract name fun slot registry offers held =>
      live _ registry offers
        (Valid.known_of_offersOf ⟨_, _, listed⟩ held).2
  refine ⟨later, reaches, ⟨_, _, written⟩, slots, epoch, fun other name => ?_⟩
  have served : later.serves other = registries.serves other := by
    unfold serves RegistrySubscriptions.slot
    rw [slots]
  rw [RegistrySubscriptions.known_eq, RegistrySubscriptions.known_eq, served,
    writes]
  split_ifs <;> rfl

/-- The registries that a peer knows. -/
def registered
    (registries : RegistrySubscriptions)
    (peer : Peer) : List Handle :=
  if peer.generation ≠ 0 ∧
      registries.generation peer.slot = peer.generation then
    (registries.chain peer.slot).map fun index =>
      (registries.node index).handle
  else []

/-- A registry is listed exactly when it is there. -/
theorem Valid.mem_registered
    (valid : registries.Valid) :
    registry ∈ registries.registered peer ↔
      (registries.known peer registry).isSome := by
  rw [valid.known_eq]
  unfold registered
  split_ifs with served
  · obtain ⟨chains, free, listed⟩ := valid
    rw [listed.toSound.chain_eq, List.mem_map, Option.isSome_iff_exists]
    constructor
    · rintro ⟨index, member, named⟩
      exact ⟨_, (listed.toSound.offersOf_iff _ _ _).mpr
        ⟨index, member, named, rfl⟩⟩
    · rintro ⟨offers, held⟩
      obtain ⟨index, member, named, -⟩ :=
        (listed.toSound.offersOf_iff _ _ _).mp held
      exact ⟨index, member, named⟩
  · simp

/-- A registry is registered once. -/
theorem Valid.registered_nodup
    (valid : registries.Valid)
    (peer : Peer) : (registries.registered peer).Nodup := by
  unfold registered
  split_ifs
  · obtain ⟨chains, free, listed⟩ := valid
    rw [listed.toSound.chain_eq]
    exact listed.once peer.slot
  · exact List.nodup_nil

/-- There are at most as many registries as nodes. -/
theorem Valid.registered_length
    (valid : registries.Valid)
    (peer : Peer) :
    (registries.registered peer).length ≤ registries.nodes.length := by
  unfold registered
  split_ifs
  · obtain ⟨chains, free, listed⟩ := valid
    rw [List.length_map, listed.toSound.chain_eq]
    exact Chain.length_le_of_nodup (listed.distinct _) (listed.bound _)
  · exact Nat.zero_le _

/-- Removing a registry leaves its peer with one fewer. -/
theorem Valid.registered_remove
    (valid : registries.Valid)
    (removed : registries.remove peer registry = (.ok (), later)) :
    (later.registered peer).length + 1 =
      (registries.registered peer).length := by
  obtain ⟨laterValid, -, -, held, known⟩ := valid.known_remove removed
  have gone : registry ∉ later.registered peer := by
    rw [laterValid.mem_registered, known, if_pos ⟨rfl, rfl⟩]
    exact Bool.false_ne_true
  have split : (registry :: later.registered peer).Perm
      (registries.registered peer) := by
    rw [List.perm_ext_iff_of_nodup
      (List.nodup_cons.mpr ⟨gone, laterValid.registered_nodup peer⟩)
      (valid.registered_nodup peer)]
    intro name
    rw [List.mem_cons, laterValid.mem_registered, valid.mem_registered, known]
    by_cases same : name = registry
    · rw [same]
      exact iff_of_true (Or.inl rfl) held
    · simp [same]
  rw [← split.length_eq, List.length_cons]

end ByPeer

end RegistrySubscriptions
end Wayring
