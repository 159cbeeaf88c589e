import Wayring.Foundation.Lanes
import Wayring.Foundation.ListWrites
import Wayring.Server.Registries

/-!
# Outstanding syncs

Every peer has a queue of `wl_display.sync` requests that are not yet answered.
Each remembers the registry epoch at which it arrived: the events that were owed
by then go out before the answer.
-/

namespace Wayring

/-- One outstanding sync. -/
structure BarrierNode where
  callback : Handle := { id := 0, generation := 0 }
  callbackData : Nat := 0
  /-- Registry epoch when the sync arrived; earlier events precede `done`. -/
  epochLimit : Nat := 0
  next : Option Nat := none
  deriving DecidableEq, Repr

/-- The queue of one peer. -/
structure BarrierSlot where
  generation : Nat := 0
  head : Option Nat := none
  tail : Option Nat := none
  deriving DecidableEq, Repr

/-- The oldest sync of a peer. -/
structure Candidate where
  peer : Peer
  node : Nat
  callback : Handle
  callbackData : Nat
  epochLimit : Nat
  deriving DecidableEq, Repr

/-- The outstanding syncs of all peers. -/
structure SyncBarriers where
  nodes : List BarrierNode := []
  slots : List BarrierSlot := []
  freeHead : Option Nat := none
  availableCount : Nat := 0
  deriving DecidableEq, Repr

/-- What the queue of a peer holds. -/
structure Waiting where
  callback : Handle
  callbackData : Nat
  epochLimit : Nat
  deriving DecidableEq, Repr

namespace SyncBarriers

/-- No syncs, with room for some. -/
def init (capacity : Nat) (granted : Bool) : Except Error SyncBarriers :=
  if capacity = 0 ∨ capacity > RegistrySubscriptions.nodeLimit then
    .error .invalidConfig
  else if granted then .ok {}
  else .error .outOfMemory

/-- A node by index. -/
def node (barriers : SyncBarriers) (index : Nat) : BarrierNode :=
  barriers.nodes.getD index {}

/-- A slot by index. -/
def slot (barriers : SyncBarriers) (index : Nat) : BarrierSlot :=
  barriers.slots.getD index {}

/-- Replace a node. -/
def setNode
    (barriers : SyncBarriers)
    (index : Nat)
    (node : BarrierNode) : SyncBarriers :=
  { barriers with nodes := barriers.nodes.set index node }

/-- Replace a slot. -/
def setSlot
    (barriers : SyncBarriers)
    (index : Nat)
    (slot : BarrierSlot) : SyncBarriers :=
  { barriers with slots := barriers.slots.set index slot }

/-- Make sure that a slot exists. -/
def growSlots
    (barriers : SyncBarriers)
    (index : Nat)
    (granted : Bool) : Except Error Unit × SyncBarriers :=
  if index < barriers.slots.length then (.ok (), barriers)
  else if granted then
    (.ok (),
      { barriers with
        slots := barriers.slots ++
          List.replicate (index + 1 - barriers.slots.length) {} })
  else (.error .outOfMemory, barriers)

/-- Take a node: the first free one, or a new one. -/
def takeNode
    (barriers : SyncBarriers)
    (granted : Bool) : Except Error Nat × SyncBarriers :=
  match barriers.freeHead with
  | none =>
      if barriers.nodes.length ≥ RegistrySubscriptions.nodeLimit then
        (.error .full, barriers)
      else if granted then
        (.ok barriers.nodes.length,
          { barriers with nodes := barriers.nodes ++ [{}] })
      else (.error .outOfMemory, barriers)
  | some recycled =>
      (.ok recycled,
        { barriers with
          freeHead := (barriers.node recycled).next
          availableCount := barriers.availableCount - 1 })

/-- Append a node to the queue of a slot. -/
def link
    (barriers : SyncBarriers)
    (slot index : Nat) : SyncBarriers :=
  let linked : BarrierSlot := { barriers.slot slot with tail := some index }
  match (barriers.slot slot).tail with
  | none => barriers.setSlot slot { linked with head := some index }
  | some last =>
      (barriers.setNode last
        { barriers.node last with next := some index }).setSlot slot linked

/-- Append a sync to the queue of a peer. -/
def add
    (barriers : SyncBarriers)
    (peer : Peer)
    (callback : Handle)
    (callbackData epochLimit : Nat)
    (slotGranted nodeGranted : Bool) : Except Error Unit × SyncBarriers :=
  match barriers.growSlots peer.slot slotGranted with
  | (.error cause, barriers) => (.error cause, barriers)
  | (.ok _, barriers) =>
      let barriers :=
        if (barriers.slot peer.slot).generation = 0 then
          barriers.setSlot peer.slot
            { barriers.slot peer.slot with generation := peer.generation }
        else barriers
      if (barriers.slot peer.slot).generation ≠ peer.generation then
        (.error .staleHandle, barriers)
      else
        match barriers.takeNode nodeGranted with
        | (.error cause, barriers) => (.error cause, barriers)
        | (.ok index, barriers) =>
            (.ok (),
              (barriers.setNode index
                { callback, callbackData, epochLimit }).link peer.slot index)

/-- Whether a slot is stamped for a peer. -/
def serves (barriers : SyncBarriers) (peer : Peer) : Bool :=
  peer.slot < barriers.slots.length &&
    (barriers.slot peer.slot).generation = peer.generation

/-- The peer's oldest outstanding sync. -/
def head (barriers : SyncBarriers) (peer : Peer) : Option Candidate :=
  if !barriers.serves peer then none
  else
    (barriers.slot peer.slot).head.map fun index =>
      let node := barriers.node index
      { peer
        node := index
        callback := node.callback
        callbackData := node.callbackData
        epochLimit := node.epochLimit }

/-- Take the oldest sync of a peer out.  It has to be the candidate. -/
def complete
    (barriers : SyncBarriers)
    (candidate : Candidate) : Option SyncBarriers :=
  let slot := barriers.slot candidate.peer.slot
  if slot.generation ≠ candidate.peer.generation then none
  else if slot.head ≠ some candidate.node then none
  else
    let head := (barriers.node candidate.node).next
    let barriers := barriers.setSlot candidate.peer.slot
      { slot with head, tail := if head = none then none else slot.tail }
    some
      { barriers.setNode candidate.node { next := barriers.freeHead } with
        freeHead := some candidate.node
        availableCount := barriers.availableCount + 1 }

/-- Free the nodes of a queue from one of them on. -/
def drain : Nat → Option Nat → SyncBarriers → SyncBarriers
  | 0, _, barriers => barriers
  | _ + 1, none, barriers => barriers
  | fuel + 1, some current, barriers =>
      drain fuel (barriers.node current).next
        { barriers.setNode current { next := barriers.freeHead } with
          freeHead := some current
          availableCount := barriers.availableCount + 1 }

/-- Forget the syncs of a peer and the peer itself. -/
def removePeer (barriers : SyncBarriers) (peer : Peer) : SyncBarriers :=
  if !barriers.serves peer then barriers
  else
    (drain (barriers.nodes.length + 1) (barriers.slot peer.slot).head
      barriers).setSlot peer.slot {}

/-! ## Queues by slot -/

/-- The nodes of a queue. -/
def follow (barriers : SyncBarriers) : Nat → Option Nat → List Nat
  | 0, _ => []
  | _ + 1, none => []
  | fuel + 1, some index =>
      index :: follow barriers fuel (barriers.node index).next

/-- The outstanding syncs of a slot, oldest first. -/
def waiting (barriers : SyncBarriers) (slot : Nat) : List Waiting :=
  (barriers.follow (barriers.nodes.length + 1)
    (barriers.slot slot).head).map fun index =>
      let node := barriers.node index
      { callback := node.callback
        callbackData := node.callbackData
        epochLimit := node.epochLimit }

/-- The generation a slot is stamped with, zero for none. -/
def generation (barriers : SyncBarriers) (slot : Nat) : Nat :=
  (barriers.slot slot).generation

/-- The successor of a node. -/
def next (barriers : SyncBarriers) (index : Nat) : Option Nat :=
  (barriers.node index).next

/-- The links of the queues are sound, and only stamped slots have syncs. -/
structure Listed
    (barriers : SyncBarriers)
    (lanes : Nat → List Nat)
    (free : List Nat) : Prop where
  sound : Lanes.Sound barriers.next (fun slot => (barriers.slot slot).head)
    (fun slot => (barriers.slot slot).tail) barriers.freeHead
    barriers.nodes.length lanes free
  stamped : ∀ slot, barriers.generation slot = 0 → lanes slot = []

/-- What holds of the queues at any time. -/
def Valid (barriers : SyncBarriers) : Prop :=
  ∃ lanes free, barriers.Listed lanes free

section Specifications

variable {barriers : SyncBarriers} {lanes : Nat → List Nat} {free : List Nat}
  {peer : Peer} {slot index : Nat}

/-- Without syncs everything is well formed. -/
theorem valid_empty : Valid {} :=
  ⟨fun _ => [], [], Lanes.Sound.empty.congr (fun _ _ => rfl) rfl rfl,
    fun _ _ => rfl⟩

/-- Writing a node changes that node alone. -/
theorem node_setNode
    (bound : index < barriers.nodes.length)
    (new : BarrierNode) (position : Nat) :
    (barriers.setNode index new).node position =
      if position = index then new else barriers.node position :=
  ListWrites.getD_set bound new {} position

/-- Writing a slot changes that slot alone. -/
theorem slot_setSlot
    (bound : index < barriers.slots.length)
    (new : BarrierSlot) (position : Nat) :
    (barriers.setSlot index new).slot position =
      if position = index then new else barriers.slot position :=
  ListWrites.getD_set bound new {} position

theorem generation_lt
    (stamped : barriers.generation slot ≠ 0) :
    slot < barriers.slots.length := by
  by_contra outside
  apply stamped
  rw [generation, SyncBarriers.slot,
    List.getD_eq_default _ _ (Nat.le_of_not_lt outside)]

/-- A stamp is enough for a peer to be served. -/
theorem serves_iff_generation
    (nonzero : peer.generation ≠ 0) :
    barriers.serves peer = true ↔
      barriers.generation peer.slot = peer.generation := by
  rw [serves, Bool.and_eq_true, decide_eq_true_eq, decide_eq_true_eq]
  rw [← generation, and_iff_right_iff_imp]
  intro same
  exact generation_lt (same ▸ nonzero)

/-- Following a lane with enough fuel lists it. -/
theorem follow_eq
    {fuel : Nat} {head : Option Nat} {nodes : List Nat}
    (linked : Chain.Linked barriers.next head nodes)
    (enough : nodes.length < fuel) :
    barriers.follow fuel head = nodes := by
  induction nodes generalizing fuel head with
  | nil =>
      rw [(Chain.linked_nil _ _).mp linked]
      cases fuel <;> rfl
  | cons node rest follow_ih =>
      obtain ⟨rfl, linkedRest⟩ := (Chain.linked_cons _ _ _ _).mp linked
      cases fuel with
      | zero => exact absurd enough (Nat.not_lt_zero _)
      | succ fuel =>
          rw [follow]
          refine congrArg (node :: ·) (follow_ih linkedRest ?_)
          exact Nat.lt_of_succ_lt_succ enough

/-- What a node holds. -/
def content (barriers : SyncBarriers) (index : Nat) : Waiting where
  callback := (barriers.node index).callback
  callbackData := (barriers.node index).callbackData
  epochLimit := (barriers.node index).epochLimit

/-- There is enough fuel for every lane. -/
theorem Listed.enough
    (listed : barriers.Listed lanes free)
    (slot : Nat) : (lanes slot).length < barriers.nodes.length + 1 :=
  Nat.lt_succ_of_le <| Chain.length_le_of_nodup (listed.sound.distinct slot)
    (listed.sound.bound slot)

/-- The syncs of a slot are those of its lane. -/
theorem Listed.waiting_eq
    (listed : barriers.Listed lanes free)
    (slot : Nat) :
    barriers.waiting slot = (lanes slot).map barriers.content := by
  rw [waiting, follow_eq (listed.sound.linked slot) (listed.enough slot)]
  rfl

/-- A slot without a stamp has no syncs. -/
theorem Listed.waiting_of_generation
    (listed : barriers.Listed lanes free)
    (unstamped : barriers.generation slot = 0) :
    barriers.waiting slot = [] := by
  rw [listed.waiting_eq, listed.stamped slot unstamped]
  rfl

/-- New slots have no syncs. -/
theorem growSlots_spec
    (granted : Bool) :
    let outcome := barriers.growSlots slot granted
    outcome.2.nodes = barriers.nodes ∧
      outcome.2.freeHead = barriers.freeHead ∧
      (∀ position, outcome.2.slot position = barriers.slot position) ∧
      (outcome.1 = .ok () → slot < outcome.2.slots.length) := by
  intro outcome
  by_cases inside : slot < barriers.slots.length
  · have same : outcome = (.ok (), barriers) := by
      simp [outcome, growSlots, inside]
    rw [same]
    exact ⟨rfl, rfl, fun _ => rfl, fun _ => inside⟩
  · cases granted with
    | false =>
        have same : outcome = (.error .outOfMemory, barriers) := by
          simp [outcome, growSlots, inside]
        rw [same]
        exact ⟨rfl, rfl, fun _ => rfl, fun refused => by cases refused⟩
    | true =>
        have same : outcome = (.ok (), { barriers with
            slots := barriers.slots ++
              List.replicate (slot + 1 - barriers.slots.length) {} }) := by
          simp [outcome, growSlots, inside]
        rw [same]
        refine ⟨rfl, rfl, fun position =>
          ListWrites.getD_append_replicate _ _ _ position, fun _ => ?_⟩
        simp only [List.length_append, List.length_replicate]
        omega

end Specifications

section Changes

variable {barriers later : SyncBarriers} {lanes : Nat → List Nat}
  {free vacant : List Nat} {peer : Peer} {slot index : Nat}

/-- Queues whose nodes are as before hold what they held. -/
theorem Listed.waiting_congr
    (listed : barriers.Listed lanes free)
    (laterListed : later.Listed lanes vacant)
    (same : ∀ index ∈ lanes slot, later.content index = barriers.content index) :
    later.waiting slot = barriers.waiting slot := by
  rw [listed.waiting_eq, laterListed.waiting_eq]
  exact List.map_congr_left same

/-- Stamping and growing the directory of slots leaves the queues alone. -/
theorem Listed.reslot
    (later : SyncBarriers)
    (listed : barriers.Listed lanes free)
    (nodes : later.nodes = barriers.nodes)
    (freeHead : later.freeHead = barriers.freeHead)
    (slots : ∀ slot, (later.slot slot).head = (barriers.slot slot).head ∧
      (later.slot slot).tail = (barriers.slot slot).tail)
    (stamps : ∀ slot, later.generation slot = 0 →
      barriers.generation slot = 0) :
    later.Listed lanes free ∧ later.waiting = barriers.waiting := by
  have node : later.node = barriers.node := by
    funext position
    simp only [SyncBarriers.node, nodes]
  have kept : later.Listed lanes free := by
    refine ⟨?_, fun slot unstamped => listed.stamped slot (stamps slot unstamped)⟩
    rw [nodes, freeHead]
    apply listed.sound.congr
    · intro position _
      simp only [SyncBarriers.next, node]
    · funext slot
      exact (slots slot).1
    · funext slot
      exact (slots slot).2
  refine ⟨kept, ?_⟩
  funext slot
  apply listed.waiting_congr kept
  intro index _
  simp only [content, node]

/-- Growth keeps every lane. -/
theorem Listed.growSlots
    (listed : barriers.Listed lanes free)
    (slot : Nat) (granted : Bool) :
    let grown := (barriers.growSlots slot granted).2
    grown.Listed lanes free ∧ grown.waiting = barriers.waiting ∧
      ∀ position, grown.generation position =
        barriers.generation position := by
  intro grown
  obtain ⟨nodes, freeHead, slots, -⟩ := @growSlots_spec barriers slot granted
  have generations : ∀ position,
      grown.generation position = barriers.generation position := by
    intro position
    rw [generation, slots]
    rfl
  obtain ⟨kept, waiting⟩ := listed.reslot grown nodes freeHead
    (fun position => by rw [slots]; simp) fun position unstamped => by
      rw [← generations]
      exact unstamped
  exact ⟨kept, waiting, generations⟩

/-- A stamped slot keeps its lane. -/
theorem Listed.stamp
    {stamp : Nat}
    (listed : barriers.Listed lanes free)
    (bound : slot < barriers.slots.length)
    (nonzero : stamp ≠ 0) :
    let stamped := barriers.setSlot slot
      { barriers.slot slot with generation := stamp }
    stamped.Listed lanes free ∧ slot < stamped.slots.length ∧
      stamped.waiting = barriers.waiting ∧
      ∀ position, stamped.generation position =
        if position = slot then stamp
        else barriers.generation position := by
  intro stamped
  have slotOf := slot_setSlot bound
    { barriers.slot slot with generation := stamp }
  have generations : ∀ position, stamped.generation position =
      if position = slot then stamp
      else barriers.generation position := by
    intro position
    simp only [stamped, generation, slotOf]
    split_ifs <;> rfl
  obtain ⟨kept, waiting⟩ := listed.reslot stamped rfl rfl
    (fun position => by
      rw [slotOf]
      by_cases here : position = slot
      · rw [if_pos here, here]
        exact ⟨rfl, rfl⟩
      · rw [if_neg here]
        exact ⟨rfl, rfl⟩) fun position unstamped => by
      rw [generations] at unstamped
      split_ifs at unstamped
      · exact absurd unstamped nonzero
      · exact unstamped
  exact ⟨kept, by simpa [stamped, setSlot] using bound, waiting, generations⟩

/-- Without a node nothing changes. -/
theorem takeNode_error
    {granted : Bool} {cause : Error}
    (taken : barriers.takeNode granted = (.error cause, later)) :
    later = barriers := by
  unfold SyncBarriers.takeNode at taken
  cases head : barriers.freeHead <;> rw [head] at taken <;>
    simp only at taken
  · split_ifs at taken <;> cases taken <;> rfl
  · cases taken

/-- A node that is taken is in no queue. -/
theorem Listed.takeNode
    {granted : Bool}
    (listed : barriers.Listed lanes free)
    (taken : barriers.takeNode granted = (.ok index, later)) :
    ∃ vacant, later.Listed lanes vacant ∧ index < later.nodes.length ∧
      (∀ lane, index ∉ lanes lane) ∧ index ∉ vacant ∧
      later.slots = barriers.slots ∧
      ∀ position, position ≠ index →
        later.node position = barriers.node position := by
  have sound := listed.sound
  cases head : barriers.freeHead with
  | none =>
      simp only [SyncBarriers.takeNode, head] at taken
      rw [head] at sound
      by_cases exhausted :
          barriers.nodes.length ≥ RegistrySubscriptions.nodeLimit
      · rw [if_pos exhausted] at taken
        cases taken
      rw [if_neg exhausted] at taken
      cases granted with
      | false => cases taken
      | true =>
      obtain ⟨sameIndex, sameLater⟩ := Prod.mk.inj taken
      cases sameIndex
      have node : ∀ position, later.node position =
          barriers.node position := by
        intro position
        rw [← sameLater]
        exact ListWrites.getD_append_replicate barriers.nodes 1 {} position
      have length : later.nodes.length = barriers.nodes.length + 1 := by
        rw [← sameLater]
        exact List.length_append
      have slots : later.slots = barriers.slots := by rw [← sameLater]
      have freeHead : later.freeHead = none := by rw [← sameLater]
      obtain ⟨grown, fresh⟩ := sound.grow later.next fun position _ =>
        congrArg BarrierNode.next (node position)
      refine ⟨[], ⟨?_, fun slot unstamped => listed.stamped slot ?_⟩,
        by omega, fresh, List.not_mem_nil, slots,
        fun position _ => node position⟩
      · rw [length, freeHead]
        simpa only [SyncBarriers.slot, slots] using grown
      · rw [← unstamped]
        simp only [generation, SyncBarriers.slot, slots]
  | some recycled =>
      simp only [SyncBarriers.takeNode, head] at taken
      cases taken
      rw [head] at sound
      obtain ⟨rest, -, kept, inside, notFree, fresh⟩ := sound.take
      exact ⟨rest, ⟨kept, listed.stamped⟩, inside, fresh, notFree, rfl,
        fun _ _ => rfl⟩

/-- Linking a node changes its slot alone. -/
theorem link_slot
    (bound : slot < barriers.slots.length)
    (position : Nat) :
    (barriers.link slot index).slot position =
      if position = slot then
        { barriers.slot slot with
          head := if (barriers.slot slot).tail = none then some index
            else (barriers.slot slot).head
          tail := some index }
      else barriers.slot position := by
  unfold link
  cases last : (barriers.slot slot).tail with
  | none => exact slot_setSlot bound _ position
  | some last => exact slot_setSlot bound _ position

/-- Linking a node changes the last node alone. -/
theorem link_node
    (inside : ∀ last, (barriers.slot slot).tail = some last →
      last < barriers.nodes.length)
    (position : Nat) :
    (barriers.link slot index).node position =
      if (barriers.slot slot).tail = some position then
        { barriers.node position with next := some index }
      else barriers.node position := by
  unfold link
  cases atEnd : (barriers.slot slot).tail with
  | none => rfl
  | some last =>
      refine (node_setNode (inside last atEnd) _ position).trans ?_
      by_cases same : position = last
      · rw [if_pos same, if_pos (congrArg some same.symm), same]
      · rw [if_neg same, if_neg fun equal =>
          same (Option.some.inj equal).symm]

/-- A node without a place becomes the last of a queue. -/
theorem Listed.link
    (slot : Nat) (new : BarrierNode)
    (listed : barriers.Listed lanes free)
    (bound : slot < barriers.slots.length)
    (inside : index < barriers.nodes.length)
    (fresh : ∀ lane, index ∉ lanes lane)
    (notFree : index ∉ free)
    (last : new.next = none)
    (stamped : barriers.generation slot ≠ 0) :
    let later := (barriers.setNode index new).link slot index
    later.Listed (Function.update lanes slot (lanes slot ++ [index])) free ∧
      later.generation = barriers.generation ∧
      later.waiting = Function.update barriers.waiting slot
        (barriers.waiting slot ++
          [⟨new.callback, new.callbackData, new.epochLimit⟩]) := by
  intro later
  have sound := listed.sound
  have length : (barriers.setNode index new).nodes.length =
      barriers.nodes.length := List.length_set
  have laterLength : later.nodes.length = barriers.nodes.length := by
    simp only [later]
    unfold SyncBarriers.link
    cases ((barriers.setNode index new).slot slot).tail <;>
      simp [setNode, setSlot]
  have freeHead : later.freeHead = barriers.freeHead := by
    simp only [later]
    unfold SyncBarriers.link
    cases ((barriers.setNode index new).slot slot).tail <;> rfl
  have inLane : ∀ other, (barriers.slot slot).tail = some other →
      other ∈ lanes slot := by
    intro other atEnd
    rw [sound.tail slot] at atEnd
    exact List.mem_of_getLast? atEnd
  have node : ∀ position, later.node position =
      if (barriers.slot slot).tail = some position then
        { barriers.node position with next := some index }
      else if position = index then new
      else barriers.node position := by
    intro position
    refine (link_node (fun before atEnd => ?_) position).trans ?_
    · rw [length]
      exact sound.bound slot before (inLane before atEnd)
    · rw [node_setNode inside]
      change (if (barriers.slot slot).tail = some position then _ else _) = _
      by_cases atEnd : (barriers.slot slot).tail = some position
      · have different : position ≠ index :=
          ne_of_mem_of_not_mem (inLane position atEnd) (fresh slot)
        rw [if_pos atEnd, if_pos atEnd, if_neg different]
      · rw [if_neg atEnd, if_neg atEnd]
  have slots : ∀ position, later.slot position =
      if position = slot then
        { barriers.slot slot with
          head := if (barriers.slot slot).tail = none then some index
            else (barriers.slot slot).head
          tail := some index }
      else barriers.slot position := fun position =>
    @link_slot (barriers.setNode index new) slot index bound position
  have generations : later.generation = barriers.generation := by
    funext position
    simp only [generation, slots]
    by_cases here : position = slot
    · rw [if_pos here, here]
    · rw [if_neg here]
  have contents : ∀ position, later.content position =
      if position = index then
        ⟨new.callback, new.callbackData, new.epochLimit⟩
      else barriers.content position := by
    intro position
    simp only [content, node]
    by_cases atEnd : (barriers.slot slot).tail = some position
    · have different : position ≠ index :=
        ne_of_mem_of_not_mem (inLane position atEnd) (fresh slot)
      rw [if_pos atEnd, if_neg different]
    · rw [if_neg atEnd]
      split_ifs <;> rfl
  have laterListed : later.Listed
      (Function.update lanes slot (lanes slot ++ [index])) free := by
    constructor
    · rw [laterLength, freeHead]
      refine sound.pushBack slot inside fresh notFree ?_ ?_ ?_
      · intro other _
        simp only [SyncBarriers.next, node]
        split_ifs <;> first | rfl | exact last
      · funext position
        rw [slots, Function.update_apply]
        split_ifs <;> rfl
      · funext position
        rw [slots, Function.update_apply]
        split_ifs <;> rfl
    · intro other unstamped
      rw [generations] at unstamped
      have different : other ≠ slot := by
        rintro rfl
        exact stamped unstamped
      rw [Function.update_of_ne different]
      exact listed.stamped other unstamped
  refine ⟨laterListed, generations, ?_⟩
  funext other
  rw [laterListed.waiting_eq]
  have kept : (lanes other).map later.content = barriers.waiting other := by
    rw [listed.waiting_eq]
    apply List.map_congr_left
    intro position member
    rw [contents, if_neg (ne_of_mem_of_not_mem member (fresh other))]
  by_cases here : other = slot
  · subst here
    rw [Function.update_self, Function.update_self, List.map_append, kept,
      List.map_singleton, contents, if_pos rfl]
  · rw [Function.update_of_ne here, Function.update_of_ne here, kept]

/-- A sync joins the end of its peer's queue, or the queues stay as they were.
The slot can be stamped for the peer without a sync to show for it. -/
theorem Valid.add
    (valid : barriers.Valid)
    (peer : Peer)
    (nonzero : peer.generation ≠ 0)
    (callback : Handle) (callbackData epochLimit : Nat)
    (slotGranted nodeGranted : Bool) :
    let outcome := barriers.add peer callback callbackData epochLimit
      slotGranted nodeGranted
    outcome.2.Valid ∧
      (∀ slot, slot ≠ peer.slot →
        outcome.2.generation slot = barriers.generation slot) ∧
      match outcome.1 with
      | .error _ => outcome.2.waiting = barriers.waiting ∧
          (outcome.2.generation peer.slot = barriers.generation peer.slot ∨
            barriers.generation peer.slot = 0 ∧
              outcome.2.generation peer.slot = peer.generation)
      | .ok _ =>
          (barriers.generation peer.slot = 0 ∨
            barriers.generation peer.slot = peer.generation) ∧
          outcome.2.generation peer.slot = peer.generation ∧
          outcome.2.waiting = Function.update barriers.waiting peer.slot
            (barriers.waiting peer.slot ++
              [⟨callback, callbackData, epochLimit⟩]) := by
  intro outcome
  obtain ⟨lanes, free, listed⟩ := valid
  obtain ⟨-, -, -, grown⟩ := @growSlots_spec barriers peer.slot slotGranted
  obtain ⟨firstListed, firstWaiting, firstGeneration⟩ :=
    listed.growSlots peer.slot slotGranted
  have computed : barriers.add peer callback callbackData epochLimit
    slotGranted nodeGranted = outcome := rfl
  clear_value outcome
  unfold SyncBarriers.add at computed
  cases answer : barriers.growSlots peer.slot slotGranted with
  | mk result first =>
  rw [answer] at grown firstListed firstWaiting firstGeneration
  simp only [answer] at computed
  simp only at grown firstListed firstWaiting firstGeneration
  cases result with
  | error cause =>
      simp only at computed
      rw [← computed]
      exact ⟨⟨_, _, firstListed⟩, fun slot _ => firstGeneration slot,
        firstWaiting, Or.inl (firstGeneration peer.slot)⟩
  | ok granted =>
  have bound := grown rfl
  simp only at computed
  generalize claimed : (if (first.slot peer.slot).generation = 0 then
    first.setSlot peer.slot
      { first.slot peer.slot with generation := peer.generation }
    else first) = second at computed
  have stamping : second.Listed lanes free ∧
      peer.slot < second.slots.length ∧
      second.waiting = barriers.waiting ∧
      (∀ slot, slot ≠ peer.slot →
        second.generation slot = barriers.generation slot) ∧
      (second.generation peer.slot = barriers.generation peer.slot ∨
        barriers.generation peer.slot = 0 ∧
          second.generation peer.slot = peer.generation) := by
    by_cases unclaimed : (first.slot peer.slot).generation = 0
    · rw [if_pos unclaimed] at claimed
      obtain ⟨stamped, inside, waiting, generations⟩ :=
        firstListed.stamp bound nonzero
      rw [claimed] at stamped inside waiting generations
      refine ⟨stamped, inside, waiting.trans firstWaiting,
        fun slot different => ?_, Or.inr ⟨?_, ?_⟩⟩
      · rw [generations, if_neg different, firstGeneration]
      · exact (firstGeneration peer.slot).symm.trans unclaimed
      · rw [generations, if_pos rfl]
    · rw [if_neg unclaimed] at claimed
      subst claimed
      exact ⟨firstListed, bound, firstWaiting,
        fun slot _ => firstGeneration slot,
        Or.inl (firstGeneration peer.slot)⟩
  obtain ⟨secondListed, secondBound, secondWaiting, secondOthers,
    secondStamp⟩ := stamping
  by_cases stale : (second.slot peer.slot).generation ≠ peer.generation
  · rw [if_pos stale] at computed
    rw [← computed]
    exact ⟨⟨_, _, secondListed⟩, secondOthers, secondWaiting, secondStamp⟩
  rw [if_neg stale] at computed
  have current : second.generation peer.slot = peer.generation :=
    not_not.mp stale
  cases taken : second.takeNode nodeGranted with
  | mk result third =>
  simp only [taken] at computed
  cases result with
  | error cause =>
      simp only at computed
      rw [← computed, takeNode_error taken]
      exact ⟨⟨_, _, secondListed⟩, secondOthers, secondWaiting, secondStamp⟩
  | ok index =>
      obtain ⟨vacant, thirdListed, inside, fresh, notFree, sameSlots,
        others⟩ := secondListed.takeNode taken
      have thirdGeneration : third.generation = second.generation := by
        funext slot
        simp only [generation, SyncBarriers.slot, sameSlots]
      have thirdWaiting : third.waiting = second.waiting := by
        funext slot
        apply secondListed.waiting_congr thirdListed
        intro position member
        simp only [content,
          others position (ne_of_mem_of_not_mem member (fresh slot))]
      obtain ⟨laterListed, generations, waiting⟩ := thirdListed.link
        peer.slot { callback, callbackData, epochLimit }
        (by rw [sameSlots]; exact secondBound) inside fresh notFree rfl (by
          rw [thirdGeneration, current]
          exact nonzero)
      simp only at computed
      rw [← computed]
      refine ⟨⟨_, _, laterListed⟩, ?_, ?_, ?_, ?_⟩
      · intro slot different
        rw [generations, thirdGeneration, secondOthers slot different]
      · rcases secondStamp with kept | ⟨unstamped, -⟩
        · exact Or.inr (kept.symm.trans current)
        · exact Or.inl unstamped
      · rw [generations, thirdGeneration, current]
      · rw [waiting, thirdWaiting, secondWaiting]

/-- The first node of a queue is freed, and the rest waits as before. -/
theorem Listed.complete
    {candidate : Candidate} {rest : List Nat}
    (listed : barriers.Listed lanes free)
    (served : barriers.serves candidate.peer = true)
    (split : lanes candidate.peer.slot = candidate.node :: rest) :
    ∃ later, barriers.complete candidate = some later ∧
      later.Listed (Function.update lanes candidate.peer.slot rest)
        (candidate.node :: free) ∧
      later.generation = barriers.generation ∧
      later.waiting = Function.update barriers.waiting candidate.peer.slot
        (rest.map barriers.content) := by
  have sound := listed.sound
  obtain ⟨peer, index, callback, callbackData, epochLimit⟩ := candidate
  dsimp only at served split ⊢
  obtain ⟨within, stamp⟩ : peer.slot < barriers.slots.length ∧
      (barriers.slot peer.slot).generation = peer.generation := by
    simpa [serves] using served
  have member : index ∈ lanes peer.slot := by simp [split]
  have inside := sound.bound peer.slot index member
  have linked := sound.linked peer.slot
  rw [split] at linked
  obtain ⟨first, linkedRest⟩ := (Chain.linked_cons _ _ _ _).mp linked
  let slots : SyncBarriers := barriers.setSlot peer.slot
    { barriers.slot peer.slot with
      head := (barriers.node index).next
      tail := if (barriers.node index).next = none then none
        else (barriers.slot peer.slot).tail }
  let later : SyncBarriers :=
    { slots.setNode index { next := barriers.freeHead } with
      freeHead := some index
      availableCount := barriers.availableCount + 1 }
  have completes : barriers.complete
      { peer, node := index, callback, callbackData, epochLimit } =
      some later :=
    (if_neg (not_not.mpr stamp)).trans (if_neg (not_not.mpr first))
  have slotOf : ∀ position, later.slot position =
      if position = peer.slot then
        { barriers.slot peer.slot with
          head := (barriers.node index).next
          tail := if (barriers.node index).next = none then none
            else (barriers.slot peer.slot).tail }
      else barriers.slot position := fun position =>
    slot_setSlot within _ position
  have node : ∀ position, later.node position =
      if position = index then { next := barriers.freeHead }
      else barriers.node position := fun position =>
    @node_setNode slots index inside { next := barriers.freeHead } position
  have generations : later.generation = barriers.generation := by
    funext position
    simp only [generation, slotOf]
    by_cases here : position = peer.slot
    · rw [if_pos here, here]
    · rw [if_neg here]
  have last : (barriers.node index).next = none ↔ rest = [] := by
    change Chain.Linked barriers.next (barriers.node index).next rest
      at linkedRest
    rw [linkedRest.head_eq]
    cases rest <;> simp
  have laterListed : later.Listed
      (Function.update lanes peer.slot rest) (index :: free) := by
    constructor
    · rw [show later.nodes.length = barriers.nodes.length from
        List.length_set]
      refine sound.popFront peer.slot split ?_ ?_ ?_
      · intro other _
        simp only [SyncBarriers.next, node]
        split_ifs <;> rfl
      · funext position
        rw [slotOf, Function.update_apply]
        split_ifs <;> rfl
      · funext position
        rw [slotOf, Function.update_apply]
        by_cases here : position = peer.slot
        · rw [if_pos here, if_pos here]
          simp only [last]
        · rw [if_neg here, if_neg here]
    · intro other unstamped
      rw [generations] at unstamped
      have empty := listed.stamped other unstamped
      rw [Function.update_apply]
      split_ifs with here
      · rw [here, split] at empty
        cases empty
      · exact empty
  have distinct := sound.distinct peer.slot
  rw [split, List.nodup_cons] at distinct
  have kept : ∀ position, position ≠ index →
      later.content position = barriers.content position := by
    intro position different
    simp only [content, node, if_neg different]
  refine ⟨later, completes, laterListed, generations, ?_⟩
  funext other
  rw [laterListed.waiting_eq]
  by_cases here : other = peer.slot
  · rw [here, Function.update_self, Function.update_self]
    apply List.map_congr_left
    intro position inRest
    exact kept position (ne_of_mem_of_not_mem inRest distinct.1)
  · rw [Function.update_of_ne here, Function.update_of_ne here,
      listed.waiting_eq]
    apply List.map_congr_left
    intro position inLane
    apply kept
    rintro rfl
    exact sound.apart other peer.slot here inLane member

/-- The head of a peer's queue is its oldest sync, and it can be completed. -/
theorem Valid.head
    (valid : barriers.Valid)
    (peer : Peer) :
    match barriers.head peer with
    | none => barriers.serves peer = false ∨ barriers.waiting peer.slot = []
    | some candidate => barriers.serves peer = true ∧
        ∃ later rest,
          barriers.waiting peer.slot =
            ⟨candidate.callback, candidate.callbackData,
              candidate.epochLimit⟩ :: rest ∧
          barriers.complete candidate = some later ∧ later.Valid ∧
          later.generation = barriers.generation ∧
          later.waiting =
            Function.update barriers.waiting peer.slot rest := by
  obtain ⟨lanes, free, listed⟩ := valid
  cases served : barriers.serves peer with
  | false => simp [SyncBarriers.head, served]
  | true =>
  have linked := listed.sound.linked peer.slot
  cases split : lanes peer.slot with
  | nil =>
      rw [split] at linked
      have empty : (barriers.slot peer.slot).head = none :=
        (Chain.linked_nil _ _).mp linked
      simp [SyncBarriers.head, served, empty, listed.waiting_eq, split]
  | cons index rest =>
      rw [split] at linked
      obtain ⟨first, -⟩ := (Chain.linked_cons _ _ _ _).mp linked
      have found : barriers.head peer = some
          { peer
            node := index
            callback := (barriers.node index).callback
            callbackData := (barriers.node index).callbackData
            epochLimit := (barriers.node index).epochLimit } := by
        simp [SyncBarriers.head, served, first]
      rw [found]
      obtain ⟨later, completes, laterListed, generations, waiting⟩ :=
        @Listed.complete barriers lanes free
          { peer
            node := index
            callback := (barriers.node index).callback
            callbackData := (barriers.node index).callbackData
            epochLimit := (barriers.node index).epochLimit }
          rest listed served split
      refine ⟨rfl, later, rest.map barriers.content, ?_, completes,
        ⟨_, _, laterListed⟩, generations, waiting⟩
      rw [listed.waiting_eq, split]
      rfl

/-- Draining frees the nodes of one queue and touches no other node. -/
theorem drain_spec
    {fuel : Nat} {current : Option Nat} {heads tails : Nat → Option Nat}
    (sound : Lanes.Sound barriers.next (Function.update heads slot current)
      (Function.update tails slot (lanes slot).getLast?) barriers.freeHead
      barriers.nodes.length lanes free)
    (enough : (lanes slot).length < fuel) :
    ∃ vacant,
      Lanes.Sound (drain fuel current barriers).next
        (Function.update heads slot none) (Function.update tails slot none)
        (drain fuel current barriers).freeHead
        (drain fuel current barriers).nodes.length
        (Function.update lanes slot []) vacant ∧
      (drain fuel current barriers).slots = barriers.slots ∧
      ∀ position, position ∉ lanes slot →
        (drain fuel current barriers).node position =
          barriers.node position := by
  induction fuel generalizing barriers current lanes free with
  | zero => exact absurd enough (Nat.not_lt_zero _)
  | succ fuel drain_ih =>
      have linked := sound.linked slot
      rw [Function.update_self] at linked
      cases split : lanes slot with
      | nil =>
          rw [split] at linked
          have done := (Chain.linked_nil _ _).mp linked
          subst done
          rw [drain]
          refine ⟨free, ?_, rfl, fun _ _ => rfl⟩
          rw [← split, Function.update_eq_self]
          rw [split] at sound
          exact sound
      | cons first rest =>
          rw [split] at linked
          obtain ⟨rfl, -⟩ := (Chain.linked_cons _ _ _ _).mp linked
          rw [drain]
          have inside := sound.bound slot first (by simp [split])
          let later : SyncBarriers :=
            { barriers.setNode first { next := barriers.freeHead } with
              freeHead := some first
              availableCount := barriers.availableCount + 1 }
          have length : later.nodes.length = barriers.nodes.length :=
            List.length_set
          have node : ∀ position, later.node position =
              if position = first then { next := barriers.freeHead }
              else barriers.node position := fun position =>
            node_setNode inside { next := barriers.freeHead } position
          have popped : Lanes.Sound later.next
              (Function.update heads slot (barriers.next first))
              (Function.update tails slot
                (Function.update lanes slot rest slot).getLast?)
              later.freeHead later.nodes.length
              (Function.update lanes slot rest) (first :: free) := by
            rw [length]
            refine sound.popFront slot split ?_ ?_ ?_
            · intro other _
              simp only [SyncBarriers.next, node]
              split_ifs <;> rfl
            · rw [Function.update_idem]
            · rw [Function.update_idem, Function.update_self,
                Function.update_self, split]
              cases rest <;> simp
          obtain ⟨vacant, drained, slots, others⟩ := drain_ih popped (by
            rw [Function.update_self]
            rw [split, List.length_cons] at enough
            exact Nat.lt_of_succ_lt_succ enough)
          rw [Function.update_idem] at drained
          rw [Function.update_self] at others
          refine ⟨vacant, drained, slots, fun position outside => ?_⟩
          rw [List.mem_cons, not_or] at outside
          exact (others position outside.2).trans
            ((node position).trans (if_neg outside.1))

/-- A peer's syncs and its stamp go together. -/
theorem Valid.removePeer
    (valid : barriers.Valid)
    (peer : Peer) :
    let later := barriers.removePeer peer
    later.Valid ∧
      if barriers.serves peer then
        later.generation = Function.update barriers.generation peer.slot 0 ∧
          later.waiting = Function.update barriers.waiting peer.slot []
      else later = barriers := by
  intro later
  obtain ⟨lanes, free, listed⟩ := valid
  have sound := listed.sound
  cases served : barriers.serves peer with
  | false =>
      have same : later = barriers := by
        simp only [later, SyncBarriers.removePeer, served, Bool.not_false,
          if_true]
      rw [same]
      exact ⟨⟨lanes, free, listed⟩, by simp⟩
  | true =>
      have within : peer.slot < barriers.slots.length := by
        have both := served
        simp only [serves, Bool.and_eq_true, decide_eq_true_eq] at both
        exact both.1
      generalize emptied : drain (barriers.nodes.length + 1)
        (barriers.slot peer.slot).head barriers = drained
      have cleared : later = drained.setSlot peer.slot {} := by
        simp only [later, SyncBarriers.removePeer, served, Bool.not_true,
          Bool.false_eq_true, if_false, emptied]
      obtain ⟨vacant, drainedSound, slots, others⟩ := @drain_spec barriers
        lanes free peer.slot (barriers.nodes.length + 1)
        (barriers.slot peer.slot).head
        (fun slot => (barriers.slot slot).head)
        (fun slot => (barriers.slot slot).tail) (by
          rw [Function.update_eq_self, ← sound.tail peer.slot,
            Function.update_eq_self]
          exact sound) (listed.enough peer.slot)
      rw [emptied] at drainedSound slots others
      have slotOf : ∀ position, later.slot position =
          if position = peer.slot then {} else barriers.slot position := by
        intro position
        rw [cleared, slot_setSlot (by rw [slots]; exact within)]
        simp only [SyncBarriers.slot, slots]
      have generations : later.generation =
          Function.update barriers.generation peer.slot 0 := by
        funext position
        simp only [generation, slotOf, Function.update_apply]
        split_ifs <;> rfl
      have laterListed : later.Listed (Function.update lanes peer.slot [])
          vacant := by
        constructor
        · rw [cleared]
          refine drainedSound.congr (fun _ _ => rfl) ?_ ?_
          · funext position
            rw [← cleared, slotOf, Function.update_apply]
            split_ifs <;> rfl
          · funext position
            rw [← cleared, slotOf, Function.update_apply]
            split_ifs <;> rfl
        · intro other unstamped
          rw [generations, Function.update_apply] at unstamped
          rw [Function.update_apply]
          split_ifs at unstamped ⊢
          · rfl
          · exact listed.stamped other unstamped
      refine ⟨⟨_, _, laterListed⟩, ?_⟩
      rw [if_pos rfl]
      refine ⟨generations, ?_⟩
      funext other
      rw [laterListed.waiting_eq]
      by_cases here : other = peer.slot
      · rw [here, Function.update_self, Function.update_self]
        rfl
      · rw [Function.update_of_ne here, Function.update_of_ne here,
          listed.waiting_eq]
        apply List.map_congr_left
        intro position member
        have outside : position ∉ lanes peer.slot :=
          sound.apart other peer.slot here member
        simp only [content, cleared]
        change Waiting.mk (drained.node position).callback
          (drained.node position).callbackData
          (drained.node position).epochLimit = _
        rw [others position outside]

end Changes

/-! ## Syncs by peer -/

section ByPeer

variable {barriers later : SyncBarriers} {peer other : Peer} {slot : Nat}
  {callback : Handle} {callbackData epochLimit : Nat}
  {slotGranted nodeGranted : Bool}

/-- The callbacks that a peer waits for, with the limits of their syncs. -/
def tickets (barriers : SyncBarriers) (peer : Peer) : List (Handle × Nat) :=
  if peer.generation ≠ 0 ∧
      barriers.generation peer.slot = peer.generation then
    (barriers.waiting peer.slot).map fun waiting =>
      (waiting.callback, waiting.epochLimit)
  else []

/-- A slot without a stamp has no syncs. -/
theorem Valid.waiting_of_generation
    (valid : barriers.Valid)
    (unstamped : barriers.generation slot = 0) :
    barriers.waiting slot = [] := by
  obtain ⟨lanes, free, listed⟩ := valid
  exact listed.waiting_of_generation unstamped

/-- A peer keeps its callbacks while its slot keeps them and its stamp. -/
theorem tickets_congr
    (waiting : later.waiting peer.slot = barriers.waiting peer.slot)
    (stamp : later.generation peer.slot = barriers.generation peer.slot ∨
      barriers.waiting peer.slot = []) :
    later.tickets peer = barriers.tickets peer := by
  unfold tickets
  rcases stamp with same | idle
  · rw [waiting, same]
  · simp only [waiting, idle, List.map_nil, ite_self]

/-- A stale peer has no tickets. -/
theorem tickets_of_stale
    (stale : barriers.generation peer.slot ≠ peer.generation) :
    barriers.tickets peer = [] :=
  if_neg fun both => stale both.2

theorem stamps_of
    (others : ∀ slot, slot ≠ peer.slot →
      later.generation slot = barriers.generation slot)
    (slot : Nat)
    (stamped : later.generation slot ≠ 0) :
    barriers.generation slot ≠ 0 ∨ slot = peer.slot := by
  by_cases here : slot = peer.slot
  · exact Or.inr here
  · left
    rwa [← others slot here]

/-- A sync that is refused gets no ticket. -/
theorem Valid.tickets_add_error
    {cause : Error}
    (valid : barriers.Valid)
    (nonzero : peer.generation ≠ 0)
    (refused : barriers.add peer callback callbackData epochLimit slotGranted
      nodeGranted = (.error cause, later)) :
    later.Valid ∧
      (∀ slot, later.generation slot ≠ 0 →
        barriers.generation slot ≠ 0 ∨ slot = peer.slot) ∧
      later.tickets = barriers.tickets := by
  have outcome := valid.add peer nonzero callback callbackData epochLimit
    slotGranted nodeGranted
  rw [refused] at outcome
  obtain ⟨laterValid, others, waiting, stamp⟩ := outcome
  refine ⟨laterValid, stamps_of others, funext fun other => ?_⟩
  apply tickets_congr (by rw [waiting])
  by_cases here : other.slot = peer.slot
  · rw [here]
    rcases stamp with same | ⟨unstamped, -⟩
    · exact Or.inl same
    · exact Or.inr (valid.waiting_of_generation unstamped)
  · exact Or.inl (others other.slot here)

/-- A sync gets the last ticket of its peer. -/
theorem Valid.tickets_add
    (valid : barriers.Valid)
    (nonzero : peer.generation ≠ 0)
    (added : barriers.add peer callback callbackData epochLimit slotGranted
      nodeGranted = (.ok (), later)) :
    later.Valid ∧
      (∀ slot, later.generation slot ≠ 0 →
        barriers.generation slot ≠ 0 ∨ slot = peer.slot) ∧
      later.tickets = Function.update barriers.tickets peer
        (barriers.tickets peer ++ [(callback, epochLimit)]) := by
  have outcome := valid.add peer nonzero callback callbackData epochLimit
    slotGranted nodeGranted
  rw [added] at outcome
  obtain ⟨laterValid, others, before, stamp, waiting⟩ := outcome
  simp only at laterValid others stamp waiting
  refine ⟨laterValid, stamps_of others, funext fun other => ?_⟩
  rw [Function.update_apply]
  by_cases same : other = peer
  · subst same
    have now : later.tickets other = (later.waiting other.slot).map
        fun waiting => (waiting.callback, waiting.epochLimit) :=
      if_pos ⟨nonzero, stamp⟩
    rw [if_pos rfl, now, waiting, Function.update_self, List.map_append]
    unfold tickets
    rcases before with unstamped | current
    · rw [valid.waiting_of_generation unstamped]
      simp
    · rw [if_pos ⟨nonzero, current⟩]
      rfl
  · rw [if_neg same]
    by_cases here : other.slot = peer.slot
    · have apart : peer.generation ≠ other.generation := fun equal =>
        same (RegistrySubscriptions.peer_ext here equal.symm)
      rw [tickets_of_stale (by rw [here, stamp]; exact apart)]
      unfold tickets
      rcases before with unstamped | current
      · rw [here, valid.waiting_of_generation unstamped]
        simp
      · rw [if_neg]
        rw [here, current]
        exact fun both => apart both.2
    · apply tickets_congr
      · rw [waiting, Function.update_of_ne here]
      · exact Or.inl (others other.slot here)

/-- The head of a peer's queue is its first callback. -/
theorem Valid.tickets_head
    {candidate : Candidate}
    (valid : barriers.Valid)
    (head : barriers.head peer = some candidate) :
    ∃ later rest,
      barriers.tickets peer =
        (candidate.callback, candidate.epochLimit) :: rest ∧
      barriers.complete candidate = some later ∧ later.Valid ∧
      later.generation = barriers.generation ∧
      later.tickets = Function.update barriers.tickets peer rest := by
  have outcome := valid.head peer
  rw [head] at outcome
  obtain ⟨served, later, rest, waiting, completes, laterValid, generations,
    waits⟩ := outcome
  have stamp : barriers.generation peer.slot = peer.generation := by
    simp only [serves, Bool.and_eq_true, decide_eq_true_eq] at served
    exact served.2
  have nonzero : peer.generation ≠ 0 := by
    intro zero
    rw [valid.waiting_of_generation (stamp.trans zero)] at waiting
    cases waiting
  refine ⟨later, rest.map fun waiting =>
    (waiting.callback, waiting.epochLimit), ?_, completes, laterValid,
    generations, funext fun other => ?_⟩
  · unfold tickets
    rw [if_pos ⟨nonzero, stamp⟩, waiting]
    rfl
  · rw [Function.update_apply]
    by_cases same : other = peer
    · subst same
      unfold tickets
      rw [if_pos rfl, generations, if_pos ⟨nonzero, stamp⟩, waits,
        Function.update_self]
    · rw [if_neg same]
      by_cases here : other.slot = peer.slot
      · have apart : barriers.generation other.slot ≠ other.generation := by
          rw [here, stamp]
          exact fun equal =>
            same (RegistrySubscriptions.peer_ext here equal.symm)
        rw [tickets_of_stale apart, tickets_of_stale]
        rw [generations]
        exact apart
      · apply tickets_congr
        · rw [waits, Function.update_of_ne here]
        · exact Or.inl (congrFun generations _)

/-- A peer without a head waits for nothing. -/
theorem Valid.tickets_idle
    (valid : barriers.Valid)
    (head : barriers.head peer = none) : barriers.tickets peer = [] := by
  have outcome := valid.head peer
  rw [head] at outcome
  rcases outcome with stale | idle
  · unfold tickets
    split_ifs with both
    · have within : peer.slot < barriers.slots.length := by
        apply generation_lt
        rw [both.2]
        exact both.1
      rw [(serves_iff_generation both.1).mpr both.2] at stale
      cases stale
    · rfl
  · unfold tickets
    rw [idle, List.map_nil, ite_self]

/-- A peer that leaves has no tickets, and the others keep theirs. -/
theorem Valid.tickets_removePeer
    (valid : barriers.Valid)
    (peer : Peer) :
    (barriers.removePeer peer).Valid ∧
      (∀ slot, (barriers.removePeer peer).generation slot ≠ 0 →
        barriers.generation slot ≠ 0) ∧
      (barriers.removePeer peer).tickets =
        Function.update barriers.tickets peer [] := by
  obtain ⟨laterValid, outcome⟩ := valid.removePeer peer
  refine ⟨laterValid, fun slot stamped => ?_, funext fun other => ?_⟩
  · split_ifs at outcome
    · rw [outcome.1, Function.update_apply] at stamped
      split_ifs at stamped
      · exact absurd rfl stamped
      · exact stamped
    · rwa [outcome] at stamped
  rw [Function.update_apply]
  split_ifs at outcome with served
  · obtain ⟨generations, waits⟩ := outcome
    have stamp : barriers.generation peer.slot = peer.generation := by
      simp only [serves, Bool.and_eq_true, decide_eq_true_eq] at served
      exact served.2
    by_cases here : other.slot = peer.slot
    · have gone : (barriers.removePeer peer).tickets other = [] := by
        unfold tickets
        rw [waits, here, Function.update_self, List.map_nil, ite_self]
      rw [gone]
      split_ifs with same
      · rfl
      · symm
        apply tickets_of_stale
        rw [here, stamp]
        exact fun equal =>
          same (RegistrySubscriptions.peer_ext here equal.symm)
    · rw [if_neg fun same => here (congrArg Peer.slot same)]
      apply tickets_congr
      · rw [waits, Function.update_of_ne here]
      · left
        rw [generations, Function.update_of_ne here]
  · rw [outcome]
    split_ifs with same
    · subst same
      unfold tickets
      rw [if_neg]
      exact fun both => served ((serves_iff_generation both.1).mpr both.2)
    · rfl

/-- There are at most as many tickets as nodes. -/
theorem Valid.tickets_length
    (valid : barriers.Valid)
    (peer : Peer) :
    (barriers.tickets peer).length ≤ barriers.nodes.length := by
  unfold tickets
  split_ifs
  · obtain ⟨lanes, free, listed⟩ := valid
    rw [List.length_map, listed.waiting_eq, List.length_map]
    exact Nat.le_of_lt_succ (listed.enough peer.slot)
  · exact Nat.zero_le _

end ByPeer

end SyncBarriers
end Wayring
