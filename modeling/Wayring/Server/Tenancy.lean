import Wayring.Server.Draining

/-!
# What slots keep

A slot is stamped for the peer whose registries and syncs it has.  When its last
registry goes the stamp goes with it, but a slot that is stamped for a registry
that then gets no node keeps its stamp, also when the peer has left.
-/

namespace Wayring

/-! ## Subscriptions -/

namespace RegistrySubscriptions

variable {registries later last : RegistrySubscriptions}
  {chains : Nat → List Nat} {free vacant : List Nat} {peer : Peer}
  {registry : Handle} {index : Nat} {slotGranted nodeGranted : Bool}

/-- Nothing changed but nodes that no registry uses. -/
structure Same (before after : RegistrySubscriptions) : Prop where
  epoch : after.epoch = before.epoch
  slot : ∀ slot, after.slot slot = before.slot slot
  chain : ∀ slot, after.chain slot = before.chain slot
  node : ∀ slot, ∀ index ∈ before.chain slot,
    after.node index = before.node index

theorem Same.refl : registries.Same registries :=
  ⟨rfl, fun _ => rfl, fun _ => rfl, fun _ _ _ => rfl⟩

/-- No node is free, and none is granted. -/
def Exhausted
    (registries : RegistrySubscriptions)
    (nodeGranted : Bool) : Prop :=
  registries.freeHead = none ∧
    (registries.nodes.length ≥ nodeLimit ∨ nodeGranted = false)

/-- A registry of the peer would stamp its slot and get no node. -/
def Strands
    (registries : RegistrySubscriptions)
    (peer : Peer)
    (slotGranted nodeGranted : Bool) : Prop :=
  (peer.slot < registries.slots.length ∨ slotGranted = true) ∧
    registries.generation peer.slot = 0 ∧ registries.Exhausted nodeGranted

/-- Taking a node fails where there is none. -/
theorem takeNode_exhausted :
    (∃ cause, (registries.takeNode nodeGranted).1 = .error cause) ↔
      registries.Exhausted nodeGranted := by
  unfold takeNode Exhausted
  cases registries.freeHead with
  | some recycled => simp
  | none =>
      dsimp only
      by_cases full : registries.nodes.length ≥ nodeLimit
      · rw [if_pos full]
        exact ⟨fun _ => ⟨rfl, Or.inl full⟩, fun _ => ⟨_, rfl⟩⟩
      · rw [if_neg full]
        cases nodeGranted <;> simp [full]

/-- A slot that is stamped for nobody else takes a registry that it does not have
where there is a node for it.  Otherwise the slot keeps the stamp. -/
theorem Listed.add_welcome
    (listed : registries.Listed chains free)
    (nonzero : peer.generation ≠ 0)
    (welcome : registries.generation peer.slot = 0 ∨
      registries.generation peer.slot = peer.generation)
    (absent : ∀ index ∈ chains peer.slot,
      (registries.node index).handle ≠ registry) :
    let outcome := registries.add peer registry slotGranted nodeGranted
    if peer.slot < registries.slots.length ∨ slotGranted = true then
      ((∃ cause, outcome.1 = .error cause) ↔ registries.Exhausted nodeGranted) ∧
        ((∃ cause, outcome.1 = .error cause) →
          outcome.2.generation peer.slot = peer.generation)
    else (∃ cause, outcome.1 = .error cause) ∧ outcome.2 = registries := by
  intro outcome
  obtain ⟨nodes, freeHead, slots, grown⟩ :=
    @growSlots_spec registries peer.slot slotGranted
  obtain ⟨firstListed, -⟩ := listed.growSlots peer.slot slotGranted
  have computed : registries.add peer registry slotGranted nodeGranted =
    outcome := rfl
  clear_value outcome
  unfold RegistrySubscriptions.add at computed
  by_cases granted : peer.slot < registries.slots.length ∨ slotGranted = true
  · rw [if_pos granted]
    obtain ⟨first, answered⟩ : ∃ first,
        registries.growSlots peer.slot slotGranted = (.ok (), first) := by
      unfold RegistrySubscriptions.growSlots
      split_ifs with inside wanted
      · exact ⟨_, rfl⟩
      · exact ⟨_, rfl⟩
      · exact absurd granted (not_or.mpr ⟨inside, wanted⟩)
    rw [answered] at nodes freeHead slots grown firstListed computed
    simp only at nodes freeHead slots grown firstListed computed
    have bound := grown trivial
    have stamp : first.generation peer.slot =
        registries.generation peer.slot :=
      congrArg RegistrySlot.generation (slots peer.slot)
    generalize claimed : (if (first.slot peer.slot).generation = 0 then
      first.setSlot peer.slot
        { first.slot peer.slot with generation := peer.generation }
      else first) = second at computed
    have stamping : second.Listed chains free ∧
        second.generation peer.slot = peer.generation ∧
        second.nodes = registries.nodes ∧
        second.freeHead = registries.freeHead := by
      by_cases unclaimed : (first.slot peer.slot).generation = 0
      · rw [if_pos unclaimed] at claimed
        obtain ⟨secondListed, -, -, stamps⟩ := firstListed.stamp bound nonzero
        rw [← claimed]
        refine ⟨secondListed, ?_, nodes, freeHead⟩
        rw [stamps, if_pos rfl]
      · rw [if_neg unclaimed] at claimed
        rw [← claimed]
        refine ⟨firstListed, ?_, nodes, freeHead⟩
        exact stamp.trans (welcome.resolve_left fun unstamped =>
          unclaimed (stamp.trans unstamped))
    obtain ⟨secondListed, current, sameNodes, sameHead⟩ := stamping
    have missing : second.locate peer.slot registry = none := by
      rcases secondListed.toSound.locate_spec peer.slot registry with
        ⟨missing, -⟩ | ⟨front, index, back, split, named, -⟩
      · exact missing
      · have same : second.node index = registries.node index := by
          simp only [RegistrySubscriptions.node, sameNodes]
        refine absurd (same ▸ named) (absent index ?_)
        rw [split]
        exact List.mem_append_right _ List.mem_cons_self
    have exhausted : second.Exhausted nodeGranted ↔
        registries.Exhausted nodeGranted := by
      unfold Exhausted
      rw [sameNodes, sameHead]
    have served : ¬(second.slot peer.slot).generation ≠ peer.generation :=
      not_not.mpr current
    rw [if_neg served, missing] at computed
    simp only [Option.isSome_none, Bool.false_eq_true, if_false] at computed
    rw [← exhausted, ← takeNode_exhausted]
    cases taken : second.takeNode nodeGranted with
    | mk result third =>
    rw [taken] at computed
    cases result with
    | error cause =>
        rw [← computed, takeNode_error taken]
        exact ⟨⟨fun _ => ⟨_, rfl⟩, fun _ => ⟨_, rfl⟩⟩, fun _ => current⟩
    | ok index =>
        rw [← computed]
        simp
  · rw [if_neg granted]
    rw [not_or] at granted
    have refused : registries.growSlots peer.slot slotGranted =
        (.error .outOfMemory, registries) := by
      unfold RegistrySubscriptions.growSlots
      rw [if_neg granted.1, if_neg granted.2]
    simp only [refused] at computed
    rw [← computed]
    exact ⟨⟨_, rfl⟩, rfl⟩

/-- A peer gets a registry of its own where there is storage for it. -/
theorem Valid.add_ok_iff
    (valid : registries.Valid)
    (nonzero : peer.generation ≠ 0)
    (welcome : registries.generation peer.slot = 0 ∨
      registries.generation peer.slot = peer.generation)
    (fresh : registries.known peer registry = none)
    (slotGranted nodeGranted : Bool) :
    (∃ index, (registries.add peer registry slotGranted nodeGranted).1 =
        .ok index) ↔
      (peer.slot < registries.slots.length ∨ slotGranted = true) ∧
        ¬registries.Exhausted nodeGranted := by
  obtain ⟨chains, free, listed⟩ := valid
  have absent : ∀ index ∈ chains peer.slot,
      (registries.node index).handle ≠ registry := by
    intro index member named
    rcases welcome with unstamped | stamped
    · rw [listed.stamped _ unstamped] at member
      exact absurd member List.not_mem_nil
    · have served : registries.serves peer = true :=
        (serves_iff_generation nonzero).mpr stamped
      have found := (listed.toSound.known_iff peer registry _).mpr
        ⟨served, index, member, named, rfl⟩
      cases fresh.symm.trans found
  have spec := @Listed.add_welcome _ _ _ _ registry slotGranted nodeGranted
    listed nonzero welcome absent
  have answers : (∃ index, (registries.add peer registry slotGranted
      nodeGranted).1 = .ok index) ↔
        ¬∃ cause, (registries.add peer registry slotGranted nodeGranted).1 =
          .error cause := by
    cases (registries.add peer registry slotGranted nodeGranted).1 <;> simp
  rw [answers]
  dsimp only at spec
  split_ifs at spec with granted
  · rw [spec.1, and_iff_right granted]
  · exact iff_of_false (not_not.mpr spec.1) fun both => granted both.1

/-- A slot with a stamp stays as it is where it takes no registry. -/
theorem add_stamped
    {cause : Error}
    (stamped : registries.generation peer.slot ≠ 0)
    (refused : registries.add peer registry slotGranted nodeGranted =
      (.error cause, later)) : later = registries := by
  have claimed : ¬(registries.slot peer.slot).generation = 0 := stamped
  unfold add growSlots at refused
  rw [if_pos (generation_lt stamped)] at refused
  simp only [if_neg claimed] at refused
  split_ifs at refused
  · cases refused
    rfl
  · cases refused
    rfl
  · cases taken : registries.takeNode nodeGranted with
    | mk result third =>
    rw [taken] at refused
    cases result with
    | error cause =>
        cases refused
        exact takeNode_error taken
    | ok index => cases refused

/-- A registry that is refused leaves everything as it was, unless its slot is
stranded. -/
theorem Valid.add_refused
    {cause : Error}
    (valid : registries.Valid)
    (nonzero : peer.generation ≠ 0)
    (refused : registries.add peer registry slotGranted nodeGranted =
      (.error cause, later)) :
    registries.Same later ↔
      ¬registries.Strands peer slotGranted nodeGranted := by
  obtain ⟨chains, free, listed⟩ := valid
  by_cases unstamped : registries.generation peer.slot = 0
  · have spec := @Listed.add_welcome _ _ _ _ registry slotGranted nodeGranted
      listed nonzero (Or.inl unstamped) fun index member =>
        absurd (listed.stamped _ unstamped ▸ member) List.not_mem_nil
    rw [refused] at spec
    unfold Strands
    dsimp only at spec
    split_ifs at spec with granted
    · obtain ⟨fails, stamped⟩ := spec
      have exhausted := fails.mp ⟨_, rfl⟩
      refine iff_of_false (fun same => ?_)
        (not_not.mpr ⟨granted, unstamped, exhausted⟩)
      have kept : later.generation peer.slot = registries.generation peer.slot :=
        congrArg RegistrySlot.generation (same.slot peer.slot)
      rw [stamped ⟨_, rfl⟩, unstamped] at kept
      exact nonzero kept
    · rw [spec.2]
      exact iff_of_true .refl fun strands => granted strands.1
  · rw [add_stamped unstamped refused]
    exact iff_of_true .refl fun strands => unstamped strands.2.1

/-- Slots with the same chain and stamp are the same. -/
theorem Sound.slot_eq
    {slot : Nat}
    (before : registries.Sound chains free)
    (after : later.Sound chains vacant)
    (stamp : later.generation slot = registries.generation slot) :
    later.slot slot = registries.slot slot := by
  have head := (after.linked slot).head_eq.trans (before.linked slot).head_eq.symm
  have tail := (after.tail slot).trans (before.tail slot).symm
  have count := (after.count slot).trans (before.count slot).symm
  unfold generation at stamp
  cases atLater : later.slot slot
  cases atFirst : registries.slot slot
  simp only [atLater, atFirst] at head tail count stamp
  rw [head, tail, count, stamp]

/-- Nodes of the same chain with the same content are the same. -/
theorem Sound.node_eq
    {slot : Nat}
    (before : registries.Sound chains free)
    (after : later.Sound chains vacant)
    (member : index ∈ chains slot)
    (handle : (later.node index).handle = (registries.node index).handle)
    (offers : (later.node index).offers = (registries.node index).offers) :
    later.node index = registries.node index := by
  obtain ⟨front, back, split⟩ := List.append_of_mem member
  have linkedBefore := before.linked slot
  have linkedAfter := after.linked slot
  rw [split] at linkedBefore linkedAfter
  have next : (later.node index).next = (registries.node index).next :=
    linkedAfter.next_eq.trans linkedBefore.next_eq.symm
  cases atLater : later.node index
  cases atFirst : registries.node index
  simp only [atLater, atFirst] at handle offers next
  rw [handle, offers, next]

/-- A registry is put behind those of its slot. -/
theorem Listed.add_ok
    (listed : registries.Listed chains free)
    (range : 2 ≤ registry.id ∧ registry.id < serverIdStart)
    (nonzero : peer.generation ≠ 0)
    (added : registries.add peer registry slotGranted nodeGranted =
      (.ok index, later)) :
    (∃ vacant, later.Listed
        (Function.update chains peer.slot (chains peer.slot ++ [index]))
        vacant) ∧
      (∀ slot, index ∉ chains slot) ∧ later.epoch = registries.epoch ∧
      (∀ slot, later.generation slot =
        if slot = peer.slot then peer.generation
        else registries.generation slot) ∧
      (registries.generation peer.slot = 0 ∨
        registries.generation peer.slot = peer.generation) ∧
      (later.node index).handle = registry ∧
      ∀ position, position ≠ index →
        (later.node position).handle = (registries.node position).handle ∧
          (later.node position).offers = (registries.node position).offers := by
  obtain ⟨nodes, -, -, grown⟩ := @growSlots_spec registries peer.slot slotGranted
  obtain ⟨firstListed, firstEpoch, -, firstStamps⟩ :=
    listed.growSlots peer.slot slotGranted
  unfold RegistrySubscriptions.add at added
  cases answer : registries.growSlots peer.slot slotGranted with
  | mk result first =>
  rw [answer] at nodes grown firstListed firstEpoch firstStamps added
  simp only at nodes grown firstListed firstEpoch firstStamps added
  cases result with
  | error cause => cases added
  | ok _ =>
  have bound := grown rfl
  dsimp only at added
  generalize claimed : (if (first.slot peer.slot).generation = 0 then
    first.setSlot peer.slot
      { first.slot peer.slot with generation := peer.generation }
    else first) = second at added
  have stamping : second.Listed chains free ∧
      peer.slot < second.slots.length ∧ second.epoch = first.epoch ∧
      second.nodes = first.nodes ∧
      (∀ slot, slot ≠ peer.slot →
        second.generation slot = first.generation slot) ∧
      (first.generation peer.slot = 0 ∨
        first.generation peer.slot = second.generation peer.slot) := by
    by_cases unclaimed : (first.slot peer.slot).generation = 0
    · rw [if_pos unclaimed] at claimed
      obtain ⟨stamped, inside, -, stamps⟩ := firstListed.stamp bound nonzero
      rw [← claimed]
      refine ⟨stamped, inside, rfl, rfl, fun slot different => ?_,
        Or.inl unclaimed⟩
      rw [stamps, if_neg different]
    · rw [if_neg unclaimed] at claimed
      rw [← claimed]
      exact ⟨firstListed, bound, rfl, rfl, fun _ _ => rfl, Or.inr rfl⟩
  obtain ⟨secondListed, secondBound, secondEpoch, secondNodes, others, kept⟩ :=
    stamping
  by_cases stale : (second.slot peer.slot).generation ≠ peer.generation
  · rw [if_pos stale] at added
    cases added
  rw [if_neg stale] at added
  have current : second.generation peer.slot = peer.generation :=
    not_not.mp stale
  rw [firstStamps, current] at kept
  rcases secondListed.toSound.locate_spec peer.slot registry with
    ⟨missing, absent⟩ | ⟨front, index, back, _, _, _, found⟩
  · rw [missing] at added
    simp only [Option.isSome_none, Bool.false_eq_true, if_false] at added
    cases taken : second.takeNode nodeGranted with
    | mk result third =>
    rw [taken] at added
    cases result with
    | error cause => cases added
    | ok position =>
    cases added
    obtain ⟨attached, fresh, epoch, stamps, named, content, -⟩ :=
      secondListed.attach secondBound (current ▸ nonzero) range absent taken
    refine ⟨attached, fresh, ?_, fun slot => ?_, kept, named,
      fun position different => ?_⟩
    · rw [epoch, secondEpoch, firstEpoch]
    · rw [stamps]
      split_ifs with here
      · rw [here, current]
      · rw [others slot here, firstStamps]
    · have same : second.node position = registries.node position := by
        simp only [RegistrySubscriptions.node, secondNodes, nodes]
      rw [← same]
      exact content position different
  · rw [found] at added
    cases added

/-- A registry that is put in and taken out again leaves nothing behind, where
every stamped slot has a registry. -/
theorem Valid.add_remove
    {result : Except Error Unit}
    (valid : registries.Valid)
    (range : 2 ≤ registry.id ∧ registry.id < serverIdStart)
    (nonzero : peer.generation ≠ 0)
    (inhabited : registries.generation peer.slot ≠ 0 →
      (registries.slot peer.slot).count ≠ 0)
    (added : registries.add peer registry slotGranted nodeGranted =
      (.ok index, later))
    (removed : later.remove peer registry = (result, last)) :
    registries.Same last := by
  obtain ⟨chains, free, listed⟩ := valid
  obtain ⟨⟨vacant, laterListed⟩, fresh, epoch, stamps, before, named, content⟩ :=
    listed.add_ok range nonzero added
  have linked := laterListed.toSound
  have stamp : later.generation peer.slot = peer.generation := by
    rw [stamps, if_pos rfl]
  have served : later.serves peer = true :=
    (serves_iff_generation nonzero).mpr stamp
  have whole : (Function.update chains peer.slot
      (chains peer.slot ++ [index])) peer.slot =
        chains peer.slot ++ index :: [] := Function.update_self _ _ _
  unfold RegistrySubscriptions.remove at removed
  rcases linked.locate_spec peer.slot registry with
    ⟨-, absent⟩ | ⟨front, found, back, split, sameName, others, located⟩
  · exact absurd named (absent index (by rw [whole]; simp))
  obtain rfl : index = found := by
    by_contra different
    refine others index ?_ named
    have member : index ∈ front ++ found :: back := by
      rw [← split, whole]
      simp
    rw [List.mem_append, List.mem_cons] at member
    rw [List.mem_append]
    exact member.imp_right fun rest => rest.resolve_left different
  have ends : chains peer.slot = front ∧ index = index ∧ [] = back :=
    (List.append_cons_inj_of_notMem (fresh peer.slot) List.not_mem_nil).mp
      (whole.symm.trans split)
  obtain ⟨rfl, -, rfl⟩ := ends
  rw [served, located] at removed
  cases removed
  obtain ⟨cut, contents⟩ := linked.removeNode split
  rw [List.append_nil, Function.update_idem, Function.update_eq_self] at cut
  have sound := listed.toSound
  have stampsNow := linked.removeNode_generation split
  have same : ∀ slot,
      (later.removeNode peer.slot (chains peer.slot).getLast? index).generation
        slot = registries.generation slot := by
    intro slot
    rw [stampsNow, stamps, List.append_nil]
    by_cases here : slot = peer.slot
    · subst here
      by_cases empty : chains peer.slot = []
      · rw [if_pos ⟨rfl, empty⟩]
        by_contra stamped
        apply inhabited (Ne.symm stamped)
        rw [sound.count, empty]
        rfl
      · rw [if_neg fun both => empty both.2, if_pos rfl]
        refine (before.resolve_left fun unstamped => ?_).symm
        exact empty (listed.stamped _ unstamped)
    · rw [if_neg fun both => here both.1, if_neg here]
  refine ⟨?_, fun slot => sound.slot_eq cut (same slot), fun slot => ?_,
    fun slot position member => ?_⟩
  · rw [← epoch]
    cases (chains peer.slot).getLast? <;> rfl
  · rw [cut.chain_eq, sound.chain_eq]
  · rw [sound.chain_eq] at member
    have different : position ≠ index := ne_of_mem_of_not_mem member (fresh slot)
    obtain ⟨handle, offers⟩ := contents position different
    obtain ⟨first, second⟩ := content position different
    exact sound.node_eq cut member (handle.trans first) (offers.trans second)

/-- A slot counts its registries. -/
theorem Valid.count_eq_zero
    (valid : registries.Valid)
    (slot : Nat) :
    (registries.slot slot).count = 0 ↔ registries.Bare slot := by
  obtain ⟨chains, free, listed⟩ := valid
  rw [listed.toSound.bare_iff, listed.count, List.length_eq_zero_iff]

/-- A slot without a stamp is as good as new. -/
theorem Valid.slot_of_unstamped
    {slot : Nat}
    (valid : registries.Valid)
    (unstamped : registries.generation slot = 0) :
    registries.slot slot = {} := by
  obtain ⟨chains, free, listed⟩ := valid
  have empty := listed.stamped slot unstamped
  have head := (listed.linked slot).head_eq
  have tail := listed.tail slot
  have count := listed.count slot
  rw [empty] at head tail count
  unfold generation at unstamped
  cases record : registries.slot slot
  simp only [record] at head tail count unstamped
  rw [head, tail, count, unstamped]
  rfl

/-- A slot that keeps its stamp when a registry goes has others. -/
theorem remove_stamp
    (removed : registries.remove peer registry = (.ok (), later))
    {slot : Nat}
    (stamped : later.generation slot ≠ 0) :
    later.generation slot = registries.generation slot ∧
      ((registries.slot slot).count ≠ 0 → (later.slot slot).count ≠ 0) := by
  unfold remove at removed
  cases served : registries.serves peer with
  | false =>
      rw [served] at removed
      cases removed
  | true =>
  rw [served] at removed
  cases located : registries.locate peer.slot registry with
  | none =>
      rw [located] at removed
      cases removed
  | some location =>
  obtain ⟨previous, current⟩ := location
  rw [located] at removed
  cases removed
  have record := @removeNode_slots registries peer.slot current previous
    (serves_iff.mp served).1 slot
  unfold generation at stamped ⊢
  rw [record] at stamped ⊢
  by_cases here : slot = peer.slot
  · rw [if_pos here] at stamped ⊢
    by_cases alone : (registries.slot peer.slot).count - 1 = 0
    · rw [if_pos alone] at stamped
      exact absurd rfl stamped
    · rw [if_neg alone, here]
      exact ⟨rfl, fun _ => alone⟩
  · rw [if_neg here]
    exact ⟨rfl, id⟩

end RegistrySubscriptions

namespace SyncBarriers

variable {barriers later : SyncBarriers} {peer : Peer} {slot : Nat}

/-- No node is free, and none is granted. -/
def Exhausted (barriers : SyncBarriers) (nodeGranted : Bool) : Prop :=
  barriers.freeHead = none ∧
    (barriers.nodes.length ≥ RegistrySubscriptions.nodeLimit ∨
      nodeGranted = false)

/-- Taking a node fails where there is none. -/
theorem takeNode_exhausted
    {nodeGranted : Bool} :
    (∃ index, (barriers.takeNode nodeGranted).1 = .ok index) ↔
      ¬barriers.Exhausted nodeGranted := by
  unfold takeNode Exhausted
  cases barriers.freeHead with
  | some recycled => simp
  | none =>
      dsimp only
      split_ifs with full granted <;> simp_all

/-- A peer that its slot does not keep out gets its sync where there is storage
for it. -/
theorem add_ok_iff
    {callback : Handle} {callbackData epochLimit : Nat}
    {slotGranted nodeGranted : Bool}
    (welcome : barriers.generation peer.slot = 0 ∨
      barriers.generation peer.slot = peer.generation) :
    (barriers.add peer callback callbackData epochLimit slotGranted
        nodeGranted).1 = .ok () ↔
      (peer.slot < barriers.slots.length ∨ slotGranted = true) ∧
        ¬barriers.Exhausted nodeGranted := by
  obtain ⟨nodes, freeHead, slots, grown⟩ :=
    @growSlots_spec barriers peer.slot slotGranted
  unfold SyncBarriers.add
  by_cases granted : peer.slot < barriers.slots.length ∨ slotGranted = true
  · rw [and_iff_right granted]
    obtain ⟨first, answered⟩ : ∃ first,
        barriers.growSlots peer.slot slotGranted = (.ok (), first) := by
      unfold SyncBarriers.growSlots
      split_ifs with inside wanted
      · exact ⟨_, rfl⟩
      · exact ⟨_, rfl⟩
      · exact absurd granted (not_or.mpr ⟨inside, wanted⟩)
    rw [answered] at nodes freeHead slots grown ⊢
    simp only at nodes freeHead slots grown ⊢
    have bound := grown trivial
    have stamp : first.generation peer.slot = barriers.generation peer.slot :=
      congrArg BarrierSlot.generation (slots peer.slot)
    generalize claimed : (if (first.slot peer.slot).generation = 0 then
      first.setSlot peer.slot
        { first.slot peer.slot with generation := peer.generation }
      else first) = second
    have stamping : second.generation peer.slot = peer.generation ∧
        second.nodes = barriers.nodes ∧
        second.freeHead = barriers.freeHead := by
      by_cases unclaimed : (first.slot peer.slot).generation = 0
      · rw [if_pos unclaimed] at claimed
        rw [← claimed]
        refine ⟨?_, nodes, freeHead⟩
        rw [generation, slot_setSlot bound, if_pos rfl]
      · rw [if_neg unclaimed] at claimed
        rw [← claimed]
        refine ⟨?_, nodes, freeHead⟩
        exact stamp.trans (welcome.resolve_left fun unstamped =>
          unclaimed (stamp.trans unstamped))
    obtain ⟨current, sameNodes, sameHead⟩ := stamping
    have exhausted : second.Exhausted nodeGranted ↔
        barriers.Exhausted nodeGranted := by
      unfold Exhausted
      rw [sameNodes, sameHead]
    have served : ¬(second.slot peer.slot).generation ≠ peer.generation :=
      not_not.mpr current
    rw [if_neg served, ← exhausted, ← takeNode_exhausted]
    cases taken : second.takeNode nodeGranted with
    | mk result third =>
    cases result with
    | error cause => simp
    | ok index => simp
  · have refused : barriers.growSlots peer.slot slotGranted =
        (.error .outOfMemory, barriers) := by
      unfold SyncBarriers.growSlots
      rw [if_neg (fun inside => granted (Or.inl inside)),
        if_neg fun wanted => granted (Or.inr wanted)]
    simp only [refused]
    exact iff_of_false (fun answer => by cases answer) fun both =>
      granted both.1

/-- A slot without a stamp is as good as new. -/
theorem Valid.slot_of_unstamped
    (valid : barriers.Valid)
    (unstamped : barriers.generation slot = 0) : barriers.slot slot = {} := by
  obtain ⟨lanes, free, listed⟩ := valid
  have empty := listed.stamped slot unstamped
  have head := (listed.sound.linked slot).head_eq
  have tail := listed.sound.tail slot
  rw [empty] at head tail
  unfold generation at unstamped
  cases record : barriers.slot slot
  simp only [record] at head tail unstamped
  rw [head, tail, unstamped]
  rfl

end SyncBarriers

/-! ## Clients -/

/-- Clients that are there are still there. -/
def Hosts.Stay
    {Clients : Type}
    (hosts : Hosts Clients)
    (before after : Clients) : Prop :=
  ∀ peer, hosts.get before peer = .ok () → hosts.get after peer = .ok ()

/-- Each slot has one client at a time, and a client leaves when the runtime
destroys it. -/
structure Hosts.Lasting
    {Clients : Type}
    (hosts : Hosts Clients) : Prop where
  unique : ∀ {clients peer other}, hosts.get clients peer = .ok () →
    hosts.get clients other = .ok () → other.slot = peer.slot → other = peer
  insertClient : ∀ clients peer id interface version context,
    hosts.Stay clients
      (hosts.insertClient clients peer id interface version context).2
  cancelClient : ∀ {clients peer handle later},
    hosts.cancelClient clients peer handle = some later →
      hosts.Stay clients later
  activate : ∀ clients global binding,
    hosts.Stay clients (hosts.activate clients global binding).2
  setContext : ∀ {clients peer handle context later},
    hosts.setContext clients peer handle context = some later →
      hosts.Stay clients later
  send : ∀ clients peer publication,
    hosts.Stay clients (hosts.send clients peer publication).2
  ensureDelete : ∀ clients peer handle,
    hosts.Stay clients (hosts.ensureDelete clients peer handle).2
  deleteClient : ∀ {clients peer handle later},
    hosts.deleteClient clients peer handle = some later →
      hosts.Stay clients later
  destroy : ∀ {clients peer later other},
    hosts.destroy clients peer = some later → other ≠ peer →
      hosts.get clients other = .ok () → hosts.get later other = .ok ()

namespace Publisher

variable {Clients : Type} {hosts : Hosts Clients}
  {publisher middle later : Publisher Clients} {peer : Peer}

/-! ## Calls -/

/-- Every stamp is for a client that is there, and a slot that is stamped for
registries has one. -/
structure Tenanted
    (hosts : Hosts Clients)
    (publisher : Publisher Clients) : Prop where
  inhabited : ∀ slot, publisher.registries.generation slot ≠ 0 →
    (publisher.registries.slot slot).count ≠ 0
  registered : ∀ slot, publisher.registries.generation slot ≠ 0 →
    hosts.get publisher.clients
      { slot, generation := publisher.registries.generation slot } = .ok ()
  waiting : ∀ slot, publisher.syncBarriers.generation slot ≠ 0 →
    hosts.get publisher.clients
      { slot, generation := publisher.syncBarriers.generation slot } = .ok ()

/-- Clients stay, and slots keep what they have or lose their stamps. -/
structure Tends
    (hosts : Hosts Clients)
    (before after : Publisher Clients) : Prop where
  stay : hosts.Stay before.clients after.clients
  registries : ∀ slot, after.registries.generation slot ≠ 0 →
    after.registries.generation slot = before.registries.generation slot ∧
      ((before.registries.slot slot).count ≠ 0 →
        (after.registries.slot slot).count ≠ 0)
  syncs : ∀ slot, after.syncBarriers.generation slot ≠ 0 →
    after.syncBarriers.generation slot = before.syncBarriers.generation slot

theorem Tends.refl : Tends hosts publisher publisher :=
  ⟨fun _ => id, fun _ _ => ⟨rfl, id⟩, fun _ _ => rfl⟩

theorem Tends.trans
    (first : Tends hosts publisher middle)
    (second : Tends hosts middle later) : Tends hosts publisher later where
  stay peer there := second.stay peer (first.stay peer there)
  registries slot stamped := by
    obtain ⟨same, kept⟩ := second.registries slot stamped
    obtain ⟨sameFirst, keptFirst⟩ := first.registries slot (same ▸ stamped)
    exact ⟨same.trans sameFirst, kept ∘ keptFirst⟩
  syncs slot stamped := by
    have same := second.syncs slot stamped
    exact same.trans (first.syncs slot (same ▸ stamped))

/-- Where slots stay as they are, only the clients matter. -/
theorem Tends.aside
    (stay : hosts.Stay publisher.clients later.clients)
    (slots : later.registries.slots = publisher.registries.slots)
    (syncs : later.syncBarriers = publisher.syncBarriers) :
    Tends hosts publisher later where
  stay
  registries slot _ := by
    unfold RegistrySubscriptions.generation RegistrySubscriptions.slot
    rw [slots]
    exact ⟨rfl, id⟩
  syncs slot _ := by rw [syncs]

theorem Tends.tenanted
    (tends : Tends hosts publisher later)
    (tenanted : Tenanted hosts publisher) : Tenanted hosts later where
  inhabited slot stamped := by
    obtain ⟨same, kept⟩ := tends.registries slot stamped
    exact kept (tenanted.inhabited slot (same ▸ stamped))
  registered slot stamped := by
    obtain ⟨same, -⟩ := tends.registries slot stamped
    rw [same] at stamped ⊢
    exact tends.stay _ (tenanted.registered slot stamped)
  waiting slot stamped := by
    have same := tends.syncs slot stamped
    rw [same] at stamped ⊢
    exact tends.stay _ (tenanted.waiting slot stamped)

/-- A registry that goes takes no client along. -/
theorem Tends.removed
    {registry : Handle} {registries : RegistrySubscriptions}
    (removed : publisher.registries.remove peer registry =
      (.ok (), registries)) :
    Tends hosts publisher { publisher with registries } where
  stay _ := id
  registries _ stamped := RegistrySubscriptions.remove_stamp removed stamped
  syncs _ _ := rfl

/-- Dropping removed globals changes no slot. -/
theorem Tends.collected :
    Tends hosts publisher publisher.collectRemovedGlobals.2 :=
  .aside (fun _ => id) rfl rfl

end Publisher
end Wayring
