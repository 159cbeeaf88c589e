import Wayring.Reactor.Slots

/-!
# Slot directory

The slots hold one active generation or none for each index.  Free slots form a
chain of their own.
-/

namespace Wayring
namespace Slots

variable {slots after : Slots} {peer : Peer}

/-- The slot at an index.  A slot that is not there yet was never used. -/
def slot (slots : Slots) (index : Nat) : Slot :=
  (slots.storage[index]?).getD {}

/-- The generation of an active slot. -/
def active (slots : Slots) (index : Nat) : Option Nat :=
  if (slots.slot index).link = .active then
    some (slots.slot index).generation
  else none

/-- The slot that follows a free one. -/
def nextFree (slots : Slots) (index : Nat) : Option Nat :=
  match (slots.slot index).link with
  | .active => none
  | .free next => next

/-- The free list holds free slots, each once. -/
structure WellFormed (slots : Slots) : Prop where
  free : ∃ nodes, Chain.Linked slots.nextFree slots.freeHead nodes ∧
    nodes.Nodup ∧ ∀ index ∈ nodes,
      index < slots.storage.length ∧ slots.active index = none
  bounded : slots.storage.length ≤ Token.slotLimit
  generations : ∀ index, (slots.slot index).generation < Token.generationLimit

/-- A slot is active with its generation. -/
theorem active_eq_some_iff
    {index generation : Nat} :
    slots.active index = some generation ↔
      (slots.slot index).link = .active ∧
        (slots.slot index).generation = generation := by
  unfold active
  split_ifs with link <;> simp [link]

theorem slot_of_length_le
    {index : Nat}
    (outside : slots.storage.length ≤ index) : slots.slot index = {} := by
  unfold slot
  rw [List.getElem?_eq_none outside]
  rfl

/-- An active slot is there. -/
theorem lt_of_active
    {index generation : Nat}
    (active : slots.active index = some generation) :
    index < slots.storage.length := by
  apply Nat.lt_of_not_le
  intro outside
  rw [active_eq_some_iff, slot_of_length_le outside] at active
  cases active.1

/-- No slots. -/
theorem wellFormed_empty : ({} : Slots).WellFormed where
  free := ⟨[], rfl, List.nodup_nil, by simp⟩
  bounded := Nat.zero_le _
  generations index := by simp [slot, Token.generationLimit]

/-- The slots after one was written. -/
theorem slot_set
    {index : Nat} {new : Slot} {freeHead : Option Nat} {activeCount : Nat}
    (inside : index < slots.storage.length) (position : Nat) :
    slot { storage := slots.storage.set index new, freeHead, activeCount }
        position =
      if position = index then new else slots.slot position := by
  unfold slot
  rw [List.getElem?_set]
  grind

/-- A peer is current when its slot is active with its generation. -/
theorem check_eq_ok_iff :
    slots.check peer = .ok () ↔
      slots.active peer.slot = some peer.generation := by
  rw [active_eq_some_iff]
  unfold check slot
  cases slots.storage[peer.slot]? with
  | none => simp
  | some found =>
      simp only [Option.getD_some]
      split_ifs <;> simp_all

/-- A current peer has a token for every operation. -/
theorem token_eq_ok_iff
    {operation : Operation} {userData : Nat} :
    slots.token peer operation = .ok userData ↔
      slots.active peer.slot = some peer.generation ∧
        Token.encode
          { operation, slot := peer.slot, generation := peer.generation } =
          userData := by
  rw [← check_eq_ok_iff]
  unfold token
  cases slots.check peer <;> simp [Except.map]

/-- A token is routed to the active generation of its slot. -/
theorem routeToken_eq (token : Token) :
    slots.routeToken token =
      if slots.active token.slot = some token.generation then
        some { slot := token.slot, operation := token.operation }
      else none := by
  simp only [active_eq_some_iff]
  unfold routeToken slot
  cases slots.storage[token.slot]? with
  | none => simp
  | some found => simp

/-- A peer is acquired in a free slot, with the next generation. -/
structure Acquired (slots after : Slots) (peer : Peer) : Prop where
  wellFormed : after.WellFormed
  vacant : slots.active peer.slot = none
  below : peer.slot < Token.slotLimit
  generation : peer.generation =
    Completion.nextGeneration (slots.slot peer.slot).generation
  slot : ∀ index, after.slot index =
    if index = peer.slot then
      { generation := peer.generation, link := .active }
    else slots.slot index

theorem active_congr
    {index : Nat}
    (same : after.slot index = slots.slot index) :
    after.active index = slots.active index := by
  unfold active
  rw [same]

/-- An acquired slot is active, and the others are as before. -/
theorem Acquired.active
    (acquired : Acquired slots after peer) (index : Nat) :
    after.active index =
      if index = peer.slot then some peer.generation
      else slots.active index := by
  by_cases same : index = peer.slot
  · rw [if_pos same, active_eq_some_iff, acquired.slot, if_pos same]
    exact ⟨rfl, rfl⟩
  · rw [if_neg same]
    apply active_congr
    rw [acquired.slot, if_neg same]

/-- Generations fit a token. -/
theorem nextGeneration_lt (generation : Nat) :
    Completion.nextGeneration generation < Token.generationLimit :=
  Generation.next_lt (by decide)

/-- Activate a slot that is free and no longer in the free list. -/
theorem activate_spec
    {index : Nat}
    (wellFormed : slots.WellFormed)
    (vacant : slots.active index = none)
    (inside : index < slots.storage.length)
    (removed : ∃ nodes, Chain.Linked slots.nextFree slots.freeHead nodes ∧
      nodes.Nodup ∧ index ∉ nodes ∧ ∀ index ∈ nodes,
        index < slots.storage.length ∧ slots.active index = none) :
    Acquired slots (slots.activate index).2 (slots.activate index).1 := by
  have changed : ∀ position, (slots.activate index).2.slot position =
      if position = index then
        { generation := (slots.activate index).1.generation, link := .active }
      else slots.slot position := fun position => slot_set inside position
  have generation : (slots.activate index).1.generation =
      Completion.nextGeneration (slots.slot index).generation := by
    unfold activate slot
    cases slots.storage[index]? <;> rfl
  refine ⟨⟨?_, ?_, fun position => ?_⟩, vacant, ?_, generation, changed⟩
  · obtain ⟨nodes, linked, distinct, outside, free⟩ := removed
    have apart : ∀ node ∈ nodes, node ≠ index := by
      rintro node member rfl
      exact outside member
    refine ⟨nodes, linked.congr fun node member => ?_, distinct,
      fun node member => ⟨?_, ?_⟩⟩
    · unfold nextFree
      rw [changed, if_neg (apart node member)]
    · have below := (free node member).1
      simpa [activate] using below
    · unfold active
      rw [changed, if_neg (apart node member)]
      exact (free node member).2
  · simpa [activate] using wellFormed.bounded
  · rw [changed]
    split_ifs
    · exact nextGeneration_lt _
    · exact wellFormed.generations position
  · exact inside.trans_le wellFormed.bounded

/-- A new slot is vacant. -/
theorem append_spec
    {index : Nat} {granted : Bool}
    (wellFormed : slots.WellFormed)
    (appended : slots.append granted = (.ok index, after)) :
    index = slots.storage.length ∧ after.WellFormed ∧
      index < after.storage.length ∧ after.slot = slots.slot ∧
      after.freeHead = slots.freeHead := by
  unfold append at appended
  split_ifs at appended with full
  · cases appended
  · cases appended
  · cases appended
    have same : slot { slots with storage := slots.storage ++ [{}] } =
        slots.slot := by
      funext position
      unfold slot
      simp only [List.getElem?_append]
      grind
    refine ⟨rfl, ⟨?_, ?_, ?_⟩, by simp, same, rfl⟩
    · obtain ⟨nodes, linked, distinct, free⟩ := wellFormed.free
      refine ⟨nodes, linked.congr fun node _ => ?_, distinct,
        fun node member => ⟨?_, ?_⟩⟩
      · unfold nextFree
        rw [same]
      · have below := (free node member).1
        simp only [List.length_append]
        omega
      · unfold active
        rw [same]
        exact (free node member).2
    · simp only [List.length_append, List.length_singleton]
      omega
    · rw [same]
      exact wellFormed.generations

/-- A vacant slot is acquired under a new generation, or nothing changes. -/
theorem acquire_spec
    (wellFormed : slots.WellFormed)
    (granted : Bool) :
    match slots.acquire granted with
    | (.error _, after) => after = slots
    | (.ok peer, after) => Acquired slots after peer := by
  obtain ⟨nodes, linked, distinct, free⟩ := wellFormed.free
  unfold acquire
  cases head : slots.freeHead with
  | none =>
      have noNodes : nodes = [] := by
        have first := linked.head_eq
        rw [head] at first
        simpa using first.symm
      simp only
      generalize appended : slots.append granted = outcome
      obtain ⟨result, grown⟩ := outcome
      cases result with
      | error cause =>
          unfold append at appended
          split_ifs at appended <;> cases appended <;> rfl
      | ok index =>
          obtain ⟨rfl, grownWellFormed, inside, same, freeHead⟩ :=
            append_spec wellFormed appended
          have vacant : grown.active slots.storage.length = none := by
            unfold active
            rw [same, slot_of_length_le (Nat.le_refl _)]
            rfl
          have acquired := activate_spec grownWellFormed vacant inside
            ⟨[], by rw [freeHead, head]; rfl, List.nodup_nil, by simp, by simp⟩
          exact
            { acquired with
              vacant := by simpa only [active, same] using acquired.vacant
              generation := by
                simpa only [same] using acquired.generation
              slot := by simpa only [same] using acquired.slot }
  | some index =>
      cases nodes with
      | nil => rw [head] at linked; cases linked
      | cons node rest =>
          rw [head] at linked
          obtain ⟨first, tail⟩ := linked
          cases first
          obtain ⟨inside, vacant⟩ := free index (by simp)
          have found : slots.storage[index]? = some slots.storage[index] :=
            List.getElem?_eq_getElem inside
          have recycled : slots.recycle index =
              { slots with freeHead := slots.nextFree index } := by
            unfold recycle nextFree slot
            unfold active slot at vacant
            rw [found] at vacant ⊢
            generalize slots.storage[index] = node at vacant ⊢
            obtain ⟨generation, link⟩ := node
            cases link with
            | active => simp at vacant
            | free next => rfl
          simp only [recycled]
          rw [List.nodup_cons] at distinct
          exact
            { @activate_spec { slots with freeHead := slots.nextFree index } _
                ⟨⟨rest, tail, distinct.2,
                    fun node member => free node (by simp [member])⟩,
                  wellFormed.bounded, wellFormed.generations⟩
                vacant inside
                ⟨rest, tail, distinct.2, distinct.1,
                  fun node member => free node (by simp [member])⟩ with }

/-- A peer leaves its slot. -/
theorem deactivate_spec
    (wellFormed : slots.WellFormed)
    (active : slots.active peer.slot = some peer.generation) :
    (slots.deactivate peer).1 = .ok () ∧
      (slots.deactivate peer).2.WellFormed ∧
      ∀ index, (slots.deactivate peer).2.slot index =
        if index = peer.slot then
          { generation := peer.generation, link := .free slots.freeHead }
        else slots.slot index := by
  have inside := lt_of_active active
  unfold deactivate
  rw [check_eq_ok_iff.mpr active]
  have changed := @slot_set slots peer.slot
    { generation := peer.generation, link := .free slots.freeHead }
    (some peer.slot) (slots.activeCount - 1) inside
  refine ⟨rfl, ⟨?_, ?_, fun index => ?_⟩, changed⟩
  · obtain ⟨nodes, linked, distinct, free⟩ := wellFormed.free
    have fresh : peer.slot ∉ nodes := by
      intro member
      rw [(free peer.slot member).2] at active
      cases active
    have apart : ∀ node ∈ nodes, node ≠ peer.slot := by
      rintro node member rfl
      exact fresh member
    refine ⟨peer.slot :: nodes, ⟨rfl, ?_⟩,
      List.nodup_cons.mpr ⟨fresh, distinct⟩, fun node member => ⟨?_, ?_⟩⟩
    · rw [show nextFree _ peer.slot = slots.freeHead by
        unfold nextFree
        rw [changed, if_pos rfl]]
      apply linked.congr
      intro node member
      unfold nextFree
      rw [changed, if_neg (apart node member)]
    · simp only [List.length_set]
      rcases List.mem_cons.mp member with rfl | later
      · exact inside
      · exact (free node later).1
    · unfold Slots.active
      rw [changed]
      rcases List.mem_cons.mp member with rfl | later
      · rw [if_pos rfl]
        rfl
      · rw [if_neg (apart node later)]
        exact (free node later).2
  · simpa using wellFormed.bounded
  · rw [changed]
    split_ifs with same
    · have below := wellFormed.generations peer.slot
      rw [(active_eq_some_iff.mp active).2] at below
      exact below
    · exact wellFormed.generations index

/-- A freed slot is not active, and the others are as before. -/
theorem active_deactivate
    (wellFormed : slots.WellFormed)
    (active : slots.active peer.slot = some peer.generation)
    (index : Nat) :
    (slots.deactivate peer).2.active index =
      if index = peer.slot then none else slots.active index := by
  obtain ⟨_, _, released⟩ := deactivate_spec wellFormed active
  by_cases same : index = peer.slot
  · unfold Slots.active
    rw [released, if_pos same, if_pos same]
    rfl
  · rw [if_neg same]
    apply active_congr
    rw [released, if_neg same]

end Slots
end Wayring
