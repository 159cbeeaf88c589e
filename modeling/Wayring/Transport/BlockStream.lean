import Wayring.Foundation.LeaseChain
import Wayring.Transport.Queue

/-!
# Byte streams

The bytes of a transmit queue lie on a chain of blocks, behind an offset in the
first block and up to the used part of the last one.  Operations change their
own chain only.
-/

namespace Wayring

open LeasePool (Cell Leases Moves)

namespace SharedBlocks

/-- All blocks have the block size. -/
structure WellFormed (blocks : SharedBlocks) : Prop where
  positive : 0 < blocks.blockSize
  pool : blocks.pool.WellFormed freeSentinel fun content =>
    content.length = blocks.blockSize

/-- What an operation of one owner does to the blocks. -/
structure Step
    (before after : SharedBlocks)
    (owned ownedNow : List Nat) : Prop where
  wellFormed : after.WellFormed
  blockSize : after.blockSize = before.blockSize
  moves : Moves before.pool.cell after.pool.cell owned ownedNow

variable {blocks middle last : SharedBlocks}
  {owned ownedNow ownedLast : List Nat}

theorem Step.refl
    (wellFormed : blocks.WellFormed)
    (owned : List Nat) : Step blocks blocks owned owned :=
  ⟨wellFormed, rfl, Moves.refl _ _⟩

theorem Step.trans
    (early : Step blocks middle owned ownedNow)
    (late : Step middle last ownedNow ownedLast) :
    Step blocks last owned ownedLast :=
  ⟨late.wellFormed, late.blockSize.trans early.blockSize,
    early.moves.trans late.moves⟩

/-- The same entries in another order. -/
theorem Step.perm
    {other otherNow : List Nat}
    (step : Step blocks middle owned ownedNow)
    (same : ∀ index, index ∈ other ↔ index ∈ owned)
    (sameNow : ∀ index, index ∈ otherNow ↔ index ∈ ownedNow) :
    Step blocks middle other otherNow where
  wellFormed := step.wellFormed
  blockSize := step.blockSize
  moves := step.moves.beside [] (by simpa using same) (by simpa using sameNow)

/-- An operation on some entries is one on more entries. -/
theorem Step.extend
    (step : Step blocks middle owned ownedNow)
    (more : List Nat) :
    Step blocks middle (owned ++ more) (ownedNow ++ more) where
  wellFormed := step.wellFormed
  blockSize := step.blockSize
  moves := step.moves.beside more (by simp) (by simp)

/-! ## Single blocks -/

/-- Growth adds free blocks alone. -/
theorem ensureAvailable_spec
    {count room : Nat}
    (wellFormed : blocks.WellFormed) :
    let outcome := blocks.ensureAvailable count room
    outcome.2.WellFormed ∧ outcome.2.blockSize = blocks.blockSize ∧
      outcome.2.pool.cell = blocks.pool.cell ∧
      outcome.2.pool.activeCount = blocks.pool.activeCount ∧
      blocks.available ≤ outcome.2.available ∧
      outcome.1 ≠ .error .unreachable ∧
      (outcome.1 = .ok () → count ≤ outcome.2.available) := by
  obtain ⟨grown, result⟩ := @LeasePool.ensureAvailable_spec _ blocks.pool
    freeSentinel _ blocks.newBlock count room wellFormed.pool
    (by simp [newBlock])
  unfold SharedBlocks.ensureAvailable
  generalize blocks.pool.ensureAvailable freeSentinel blocks.newBlock count
    room = outcome at grown result ⊢
  obtain ⟨answer, pool⟩ := outcome
  refine ⟨⟨wellFormed.positive, grown.wellFormed⟩, rfl, grown.cell,
    grown.activeCount, grown.available, ?_, fun ok => ?_⟩
  · cases answer with
    | error failure =>
        rcases result with rfl | rfl
        · simp [Except.mapError, poolError]
        · simp [Except.mapError, poolError]
    | ok _ => simp [Except.mapError]
  · cases answer with
    | error failure => simp [Except.mapError] at ok
    | ok _ => exact result

/-- A new pool has free blocks alone. -/
theorem init_spec
    {blockSize blockCount room : Nat}
    (ready : SharedBlocks.init blockSize blockCount room = .ok blocks) :
    blocks.WellFormed ∧ blocks.blockSize = blockSize ∧
      ∀ index, blocks.pool.cell index = none := by
  rw [SharedBlocks.init] at ready
  split_ifs at ready with invalid exceeds
  have empty : ({ blockSize } : SharedBlocks).WellFormed :=
    ⟨by simp only; omega, LeasePool.wellFormed_empty⟩
  obtain ⟨wellFormed, size, cells, _⟩ :=
    @ensureAvailable_spec { blockSize } blockCount room empty
  generalize ensureAvailable { blockSize } blockCount room = outcome
    at wellFormed size cells ready
  obtain ⟨result, after⟩ := outcome
  cases result with
  | error cause => cases ready
  | ok _ =>
      cases ready
      refine ⟨wellFormed, size, fun index => ?_⟩
      simp only at cells
      rw [cells]
      rfl

/-- Nothing is asked of the allocator while there are free blocks. -/
theorem ensureAvailable_enough
    {count : Nat}
    (room : Nat)
    (wellFormed : blocks.WellFormed)
    (enough : count ≤ blocks.available) :
    blocks.ensureAvailable count room = (.ok (), blocks) := by
  have same := @LeasePool.ensureAvailable_enough _ blocks.pool freeSentinel _
    blocks.newBlock count room wellFormed.pool enough
  rw [SharedBlocks.ensureAvailable, same]
  rfl

/-- A free block is leased. -/
theorem acquire_spec
    (room : Nat)
    (wellFormed : blocks.WellFormed)
    (some : 0 < blocks.available) :
    ∃ lease after content,
      blocks.acquire room = (.ok lease, after) ∧
      after.WellFormed ∧ after.blockSize = blocks.blockSize ∧
      blocks.pool.cell lease.index = none ∧
      content.length = blocks.blockSize ∧
      after.pool.cell = Function.update blocks.pool.cell lease.index
        (Option.some
          { content, next := none, generation := lease.generation }) ∧
      after.available + 1 = blocks.available := by
  obtain ⟨lease, pool, acquired, spec, available⟩ :=
    @LeasePool.acquire_free _ Unit blocks.pool freeSentinel (2 ^ 32) _
      blocks.newBlock (fun _ => ()) id room wellFormed.pool
      (fun _ good => good) some
  obtain ⟨content, length, _, cells⟩ := spec.cell
  exact ⟨lease, { blocks with pool }, content,
    by rw [SharedBlocks.acquire, acquired]; rfl,
    ⟨wellFormed.positive, spec.wellFormed⟩, rfl, spec.fresh, length, cells,
    available⟩

/-- A leased block can be given back. -/
theorem release_spec
    {lease : BlockLease}
    (wellFormed : blocks.WellFormed)
    (valid : Leases (fun _ => ()) blocks.pool.cell lease) :
    ∃ after, blocks.release lease = (.ok (), after) ∧
      after.WellFormed ∧ after.blockSize = blocks.blockSize ∧
      after.pool.cell = Function.update blocks.pool.cell lease.index none ∧
      after.available = blocks.available + 1 := by
  obtain ⟨pool, released, wellFormedNow, cells, available⟩ :=
    LeasePool.release_spec wellFormed.pool valid
  exact ⟨{ blocks with pool },
    by rw [SharedBlocks.release, released]; rfl,
    ⟨wellFormed.positive, wellFormedNow⟩, rfl, cells, available⟩

/-- A leased block can be put behind another. -/
theorem link_spec
    {source target : BlockLease} {cell : Cell (List UInt8)}
    (wellFormed : blocks.WellFormed)
    (valid : Leases (fun _ => ()) blocks.pool.cell source)
    (validTarget : Leases (fun _ => ()) blocks.pool.cell target)
    (found : blocks.pool.cell source.index = some cell)
    (unlinked : cell.next = none) :
    ∃ after, blocks.link source target = (.ok (), after) ∧
      after.WellFormed ∧ after.blockSize = blocks.blockSize ∧
      after.pool.cell = Function.update blocks.pool.cell source.index
        (some { cell with next := some target.index }) ∧
      after.available = blocks.available := by
  obtain ⟨pool, linked, wellFormedNow, cells, available⟩ :=
    LeasePool.link_spec wellFormed.pool valid validTarget found unlinked
  exact ⟨{ blocks with pool },
    by rw [SharedBlocks.link, linked]; rfl,
    ⟨wellFormed.positive, wellFormedNow⟩, rfl, cells, available⟩

/-- The first block of a chain is released. -/
theorem Step.pop
    {head : BlockLease} {rest : List Nat}
    (wellFormed : middle.WellFormed)
    (blockSize : middle.blockSize = blocks.blockSize)
    (cells : middle.pool.cell =
      Function.update blocks.pool.cell head.index none)
    (outside : head.index ∉ rest) :
    Step blocks middle (head.index :: rest) rest := by
  refine ⟨wellFormed, blockSize, ?_⟩
  rw [cells]
  refine Moves.release (by simp) fun other => ?_
  simp only [List.mem_cons]
  constructor
  · intro member
    exact ⟨Or.inr member, ne_of_mem_of_not_mem member outside⟩
  · rintro ⟨rfl | member, apart⟩
    · exact absurd rfl apart
    · exact member

/-- Copying into a block that bytes fit in. -/
theorem copyInto_spec
    {lease : BlockLease} {cell : Cell (List UInt8)} {start : Nat}
    {new : List UInt8}
    (wellFormed : blocks.WellFormed)
    (found : blocks.pool.cell lease.index = some cell)
    (fits : start + new.length ≤ blocks.blockSize) :
    (blocks.copyInto lease start new).WellFormed ∧
      (blocks.copyInto lease start new).pool.cell =
        Function.update blocks.pool.cell lease.index
          (some
            { cell with
              content := Segments.overwrite cell.content start new }) ∧
      (blocks.copyInto lease start new).available = blocks.available := by
  have length : cell.content.length = blocks.blockSize :=
    LeasePool.good_of_cell wellFormed.pool found
  obtain ⟨wellFormedNow, cells, available⟩ := @LeasePool.write_spec _
    blocks.pool freeSentinel _ lease.index cell
    (fun items => Segments.overwrite items start new) wellFormed.pool found
    (by rw [Segments.length_overwrite (by omega), length])
  exact ⟨⟨wellFormed.positive, wellFormedNow⟩, cells, available⟩

theorem copyInto_nil
    (blocks : SharedBlocks) (lease : BlockLease) (start : Nat) :
    blocks.copyInto lease start [] = blocks := by
  simp only [copyInto, Segments.overwrite_nil, LeasePool.write]
  split
  · rfl
  · next node found =>
      obtain ⟨bound, same⟩ := List.getElem?_eq_some_iff.mp found
      change { blocks with
        pool := { blocks.pool with
          nodes := blocks.pool.nodes.set lease.index node } } = blocks
      rw [← same, List.set_getElem_self]

/-- Copying writes the leased block alone. -/
theorem copyInto_leased
    {lease : BlockLease} {start : Nat} {new : List UInt8}
    (wellFormed : blocks.WellFormed)
    (valid : Leases (fun _ => ()) blocks.pool.cell lease)
    (fits : start + new.length ≤ blocks.blockSize) :
    Leases (fun _ => ()) (blocks.copyInto lease start new).pool.cell lease := by
  obtain ⟨cell, found, generation, same⟩ := valid
  obtain ⟨_, cells, _⟩ := copyInto_spec wellFormed found fits
  rw [cells]
  exact ⟨_, Function.update_self _ _ _, generation, same⟩

/-- The blocks of a chain have the block size. -/
theorem uniform
    {head tail : Option BlockLease} {chain : List Nat}
    {contents : List (List UInt8)}
    (wellFormed : blocks.WellFormed)
    (holds : LeasePool.Holds (fun _ => ()) blocks.pool.cell head tail chain contents) :
    ∀ content ∈ contents, content.length = blocks.blockSize := by
  intro content member
  have mapped : some content ∈ contents.map some := List.mem_map_of_mem member
  rw [← holds.content_eq] at mapped
  obtain ⟨index, _, found⟩ := List.mem_map.mp mapped
  obtain ⟨cell, there, rfl⟩ := Option.map_eq_some_iff.mp found
  exact LeasePool.good_of_cell wellFormed.pool there

/-- Copying into one block of a chain. -/
theorem copyInto_holds
    {head tail : Option BlockLease} {chain : List Nat}
    {contents : List (List UInt8)} {lease : BlockLease} {position start : Nat}
    {new : List UInt8}
    (wellFormed : blocks.WellFormed)
    (holds : LeasePool.Holds (fun _ => ()) blocks.pool.cell head tail chain contents)
    (found : chain[position]? = some lease.index)
    (fits : start + new.length ≤ blocks.blockSize) :
    ∃ contentsNow,
      LeasePool.Holds (fun _ => ()) (blocks.copyInto lease start new).pool.cell head tail
        chain contentsNow ∧
      contentsNow.flatten = Segments.overwrite contents.flatten
        (position * blocks.blockSize + start) new ∧
      Step blocks (blocks.copyInto lease start new) chain chain ∧
      (blocks.copyInto lease start new).available = blocks.available := by
  obtain ⟨bound, here⟩ := List.getElem?_eq_some_iff.mp found
  have lengths := holds.length_eq
  have chainEq : chain =
      chain.take position ++ lease.index :: chain.drop (position + 1) := by
    rw [← here, List.getElem_cons_drop, List.take_append_drop]
  have contentsEq : contents = contents.take position ++
      contents[position] :: contents.drop (position + 1) := by
    rw [List.getElem_cons_drop, List.take_append_drop]
  obtain ⟨cell, there, _⟩ := holds.used (List.mem_of_getElem? found)
  obtain ⟨wellFormedNow, cells, available⟩ :=
    copyInto_spec wellFormed there fits
  have uniform := uniform wellFormed holds
  have written := holds
  rw [chainEq, contentsEq] at written
  obtain ⟨content, holdsNow⟩ := written.write
    (Segments.overwrite cell.content start new)
    (by rw [List.length_take, List.length_take]; omega) there rfl
  refine ⟨contents.take position ++
      Segments.overwrite cell.content start new ::
        contents.drop (position + 1), ?_, ?_, ⟨wellFormedNow, rfl, ?_⟩,
    available⟩
  · rw [cells, chainEq]
    exact holdsNow
  · rw [content, Segments.flatten_overwrite
      (fun segment member => uniform segment (List.mem_of_mem_take member))
      (by rw [uniform _ (List.getElem_mem _)]; exact fits), ← contentsEq,
      List.length_take, Nat.min_eq_left (by omega)]
  · rw [cells]
    exact Moves.write _ (List.mem_of_getElem? found)

end SharedBlocks

namespace Tx

open SharedBlocks (Step)

namespace Queue

/-- Where the bytes of a chain of blocks end. -/
def stop (queue : Queue) (blockSize blockCount : Nat) : Nat :=
  (blockCount - 1) * blockSize + queue.tailUsed

/-- A queue's blocks hold some bytes. -/
structure Text
    (queue : Queue)
    (blocks : SharedBlocks)
    (chain : List Nat)
    (contents : List (List UInt8))
    (bytes : List UInt8) : Prop where
  holds : LeasePool.Holds (fun _ => ()) blocks.pool.cell queue.head queue.tail chain
    contents
  empty : chain = [] → queue.headOffset = 0 ∧ queue.tailUsed = 0
  headWithin : chain ≠ [] → queue.headOffset < blocks.blockSize
  tailWithin : queue.tailUsed ≤ blocks.blockSize
  ordered : queue.headOffset ≤ queue.stop blocks.blockSize chain.length
  bytes_eq : (contents.flatten.take
    (queue.stop blocks.blockSize chain.length)).drop queue.headOffset = bytes

/-- No block is used up, and the last one is in use. -/
structure Filled
    (queue : Queue)
    (blockSize : Nat)
    (chain : List Nat) : Prop where
  tailUsed : chain ≠ [] → 0 < queue.tailUsed
  headOffset : chain ≠ [] → queue.headOffset < queue.stop blockSize chain.length

/-- A queue changes its chain only. -/
structure Rechained (queue next : Queue) : Prop where
  byteBudget : next.byteBudget = queue.byteBudget
  byteCount : next.byteCount = queue.byteCount
  descriptors : next.descriptors = queue.descriptors
  active : next.active = queue.active
  reservationActive : next.reservationActive = queue.reservationActive

theorem Rechained.refl (queue : Queue) : Rechained queue queue :=
  ⟨rfl, rfl, rfl, rfl, rfl⟩

theorem Rechained.trans
    {queue next last : Queue}
    (early : Rechained queue next)
    (late : Rechained next last) : Rechained queue last :=
  ⟨late.byteBudget.trans early.byteBudget, late.byteCount.trans early.byteCount,
    late.descriptors.trans early.descriptors, late.active.trans early.active,
    late.reservationActive.trans early.reservationActive⟩

variable {queue : Queue} {blocks : SharedBlocks} {chain : List Nat}
  {contents : List (List UInt8)} {bytes : List UInt8}

/-! ## Lengths -/

/-- The blocks of a chain have one size. -/
theorem Text.length_flatten
    (text : Text queue blocks chain contents bytes)
    (wellFormed : blocks.WellFormed) :
    contents.flatten.length = chain.length * blocks.blockSize := by
  rw [Segments.length_flatten (SharedBlocks.uniform wellFormed text.holds), text.holds.length_eq]

/-- The bytes end within the chain. -/
theorem Text.stop_le
    (text : Text queue blocks chain contents bytes) :
    queue.stop blocks.blockSize chain.length ≤
      chain.length * blocks.blockSize := by
  have within := text.tailWithin
  cases chain with
  | nil =>
      have none := (text.empty rfl).2
      simp [stop, none]
  | cons index rest =>
      simp only [stop, List.length_cons, Nat.add_sub_cancel, Nat.succ_mul]
      omega

/-- The bytes of a queue end where its tail does. -/
theorem Text.length_bytes
    (text : Text queue blocks chain contents bytes)
    (wellFormed : blocks.WellFormed) :
    bytes.length + queue.headOffset =
      queue.stop blocks.blockSize chain.length := by
  have ordered := text.ordered
  have stops := text.stop_le
  rw [← text.bytes_eq, List.length_drop, List.length_take,
    text.length_flatten wellFormed]
  omega

/-- A queue without bytes has no chain. -/
theorem Text.bytes_eq_nil
    (text : Text queue blocks chain contents bytes)
    (filled : Filled queue blocks.blockSize chain)
    (wellFormed : blocks.WellFormed) : bytes = [] ↔ chain = [] := by
  have length := text.length_bytes wellFormed
  constructor
  · intro none
    by_contra some
    have ordered := filled.headOffset some
    rw [none, List.length_nil] at length
    omega
  · rintro rfl
    have none := (text.empty rfl).2
    simp only [stop, none, List.length_nil] at length
    exact List.length_eq_zero_iff.mp (by omega)

/-- A queue keeps its chain. -/
structure SameChain (queue next : Queue) : Prop where
  head : next.head = queue.head
  tail : next.tail = queue.tail
  headOffset : next.headOffset = queue.headOffset
  tailUsed : next.tailUsed = queue.tailUsed

/-- The text depends on the chain of a queue alone. -/
theorem Text.same
    {next : Queue}
    (text : Text queue blocks chain contents bytes)
    (same : SameChain queue next) : Text next blocks chain contents bytes := by
  obtain ⟨head, tail, headOffset, tailUsed⟩ := same
  refine ⟨?_, ?_, ?_, ?_, ?_, ?_⟩
  · rw [head, tail]
    exact text.holds
  · rw [headOffset, tailUsed]
    exact text.empty
  · rw [headOffset]
    exact text.headWithin
  · rw [tailUsed]
    exact text.tailWithin
  · rw [stop, headOffset, tailUsed]
    exact text.ordered
  · rw [stop, headOffset, tailUsed]
    exact text.bytes_eq

/-- Filling depends on the chain of a queue alone. -/
theorem Filled.same
    {next : Queue} {blockSize : Nat}
    (filled : Filled queue blockSize chain)
    (same : SameChain queue next) : Filled next blockSize chain := by
  obtain ⟨_, _, headOffset, tailUsed⟩ := same
  refine ⟨?_, ?_⟩
  · rw [tailUsed]
    exact filled.tailUsed
  · rw [stop, headOffset, tailUsed]
    exact filled.headOffset

/-- Someone else's step leaves a queue's bytes alone. -/
theorem Text.frame
    {after : SharedBlocks} {owned ownedNow : List Nat}
    (text : Text queue blocks chain contents bytes)
    (step : Step blocks after owned ownedNow)
    (apart : ∀ index ∈ chain, index ∉ owned) :
    Text queue after chain contents bytes where
  holds := text.holds.frame step.moves apart
  empty := text.empty
  headWithin := by
    rw [step.blockSize]
    exact text.headWithin
  tailWithin := by
    rw [step.blockSize]
    exact text.tailWithin
  ordered := by
    rw [step.blockSize]
    exact text.ordered
  bytes_eq := by
    rw [step.blockSize]
    exact text.bytes_eq

/-- New free blocks do not matter. -/
theorem Text.grown
    {after : SharedBlocks}
    (text : Text queue blocks chain contents bytes)
    (blockSize : after.blockSize = blocks.blockSize)
    (cells : after.pool.cell = blocks.pool.cell) :
    Text queue after chain contents bytes := by
  obtain ⟨holds, empty, headWithin, tailWithin, ordered, bytes_eq⟩ := text
  rw [← blockSize] at headWithin tailWithin ordered bytes_eq
  rw [← cells] at holds
  exact ⟨holds, empty, headWithin, tailWithin, ordered, bytes_eq⟩

/-- A new queue has no bytes. -/
theorem Text.init
    (blocks : SharedBlocks) (byteBudget descriptorBudget : Nat) :
    Text (Queue.init byteBudget descriptorBudget) blocks [] [] [] where
  holds := LeasePool.Holds.empty
  empty _ := ⟨rfl, rfl⟩
  headWithin some := absurd rfl some
  tailWithin := Nat.zero_le _
  ordered := Nat.zero_le _
  bytes_eq := by simp

/-- A new queue has no tail. -/
theorem Filled.init
    (byteBudget descriptorBudget blockSize : Nat) :
    Filled (Queue.init byteBudget descriptorBudget) blockSize [] where
  tailUsed some := absurd rfl some
  headOffset some := absurd rfl some

/-! ## Appending -/

/-- Bytes at the end of the last block. -/
theorem Text.copy
    {tail : BlockLease}
    (text : Text queue blocks chain contents bytes)
    (new : List UInt8)
    (wellFormed : blocks.WellFormed)
    (last : queue.tail = some tail)
    (fits : queue.tailUsed + new.length ≤ blocks.blockSize) :
    ∃ contentsNow,
      Text { queue with tailUsed := queue.tailUsed + new.length }
        (blocks.copyInto tail queue.tailUsed new) chain contentsNow
        (bytes ++ new) ∧
      Step blocks (blocks.copyInto tail queue.tailUsed new) chain chain ∧
      (blocks.copyInto tail queue.tailUsed new).available =
        blocks.available := by
  have holds := text.holds
  rw [last] at holds
  obtain ⟨front, chainEq⟩ := holds.tail_concat rfl
  have position : chain[chain.length - 1]? = some tail.index := by
    simp [chainEq]
  have some : chain ≠ [] := by simp [chainEq]
  obtain ⟨contentsNow, holdsNow, flatten, step, available⟩ :=
    SharedBlocks.copyInto_holds wellFormed holds position fits
  have stops := text.stop_le
  rw [← text.length_flatten wellFormed] at stops
  have ordered := text.ordered
  refine ⟨contentsNow,
    { holds := by
        rw [← last] at holdsNow
        exact holdsNow
      empty := fun none => absurd none some
      headWithin := text.headWithin
      tailWithin := fits
      ordered := ?_
      bytes_eq := ?_ }, step, available⟩
  · rw [step.blockSize]
    simp only [stop] at ordered ⊢
    omega
  · have total : Queue.stop { queue with
        tailUsed := queue.tailUsed + new.length } blocks.blockSize
        chain.length =
        queue.stop blocks.blockSize chain.length + new.length :=
      (Nat.add_assoc _ _ _).symm
    rw [step.blockSize, total, flatten]
    change ((Segments.overwrite contents.flatten
      (queue.stop blocks.blockSize chain.length) new).take _).drop _ = _
    rw [Segments.take_overwrite stops, List.drop_append_of_le_length
      (by rw [List.length_take, Nat.min_eq_left stops]; exact ordered),
      text.bytes_eq]

/-- A last block with room, a new one where there is none. -/
theorem readyTail_spec
    (text : Text queue blocks chain contents bytes)
    (wellFormed : blocks.WellFormed)
    (enough : queue.tailSpace blocks.blockSize = 0 → 0 < blocks.available) :
    ∃ tail next after more newContents,
      queue.readyTail blocks = (.ok tail, next, after) ∧
      Text next after (chain ++ more) (contents ++ newContents) bytes ∧
      Step blocks after chain (chain ++ more) ∧
      Rechained queue next ∧
      next.headOffset = queue.headOffset ∧
      next.tail = some tail ∧
      next.tailUsed < blocks.blockSize ∧
      next.tailSpace blocks.blockSize =
        (if queue.tailSpace blocks.blockSize = 0 then blocks.blockSize
        else queue.tailSpace blocks.blockSize) ∧
      more.length =
        (if queue.tailSpace blocks.blockSize = 0 then 1 else 0) ∧
      after.available + more.length = blocks.available := by
  have positive := wellFormed.positive
  cases last : queue.tail with
  | none =>
      have space : queue.tailSpace blocks.blockSize = 0 := by
        simp [tailSpace, last]
      have noChain : chain = [] := text.holds.tail_eq_none.mp last
      subst noChain
      have noContents : contents = [] :=
        List.length_eq_zero_iff.mp text.holds.length_eq.symm
      subst noContents
      obtain ⟨block, after, content, acquired, wellFormedNow, blockSize, fresh,
        _, cells, available⟩ :=
        SharedBlocks.acquire_spec 0 wellFormed (enough space)
      have here : after.pool.cell block.index =
          some { content, next := none, generation := block.generation } := by
        rw [cells, Function.update_self]
      refine ⟨block, { queue with
          head := some block
          headOffset := 0
          tail := some block
          tailUsed := 0 }, after, [block.index], [content],
        by simp only [readyTail, last, acquired],
        { holds := LeasePool.Holds.single here rfl
          empty := fun none => absurd none (by simp)
          headWithin := fun _ => by rw [blockSize]; exact positive
          tailWithin := Nat.zero_le _
          ordered := Nat.zero_le _
          bytes_eq := ?_ },
        ⟨wellFormedNow, blockSize, ?_⟩, ⟨rfl, rfl, rfl, rfl, rfl⟩,
        (text.empty rfl).1.symm, rfl, positive, ?_, by rw [if_pos space]; rfl,
        available⟩
      · rw [← text.bytes_eq]
        simp [stop]
      · rw [cells]
        exact Moves.acquire _ fresh (by simp)
      · rw [if_pos space]
        simp [tailSpace]
  | some tail =>
      have holds := text.holds
      rw [last] at holds
      obtain ⟨front, chainEq⟩ := holds.tail_concat rfl
      have within := text.tailWithin
      by_cases full : queue.tailUsed = blocks.blockSize
      · have space : queue.tailSpace blocks.blockSize = 0 := by
          simp [tailSpace, full]
        obtain ⟨block, middle, content, acquired, wellFormedMiddle,
          blockSizeMiddle, fresh, _, cells, available⟩ :=
          SharedBlocks.acquire_spec 0 wellFormed (enough space)
        have here : middle.pool.cell block.index =
            some { content, next := none, generation := block.generation } := by
          rw [cells, Function.update_self]
        have single : LeasePool.Holds (fun _ => ()) middle.pool.cell (some block)
            (some block) [block.index] [content] := LeasePool.Holds.single here rfl
        have outside : block.index ∉ chain := by
          intro member
          obtain ⟨cell, found, _⟩ := holds.used member
          rw [fresh] at found
          cases found
        have kept : LeasePool.Holds (fun _ => ()) middle.pool.cell queue.head (some tail)
            chain contents := holds.congr fun index member => by
          rw [cells,
            Function.update_of_ne (ne_of_mem_of_not_mem member outside)]
        obtain ⟨cell, found, unlinked⟩ := kept.last rfl
        obtain ⟨after, linked, wellFormedNow, blockSize, linkedCells, same⟩ :=
          SharedBlocks.link_spec wellFormedMiddle (kept.tailLeased tail rfl)
            (single.headLeased block rfl) found unlinked
        have sizes : after.blockSize = blocks.blockSize :=
          blockSize.trans blockSizeMiddle
        have total : (chain.length + 1 - 1) * blocks.blockSize =
            queue.stop blocks.blockSize chain.length := by
          rw [stop, full, chainEq]
          simp only [List.length_append, List.length_singleton,
            Nat.add_sub_cancel, Nat.succ_mul]
        have stops := text.stop_le
        rw [← text.length_flatten wellFormed] at stops
        refine ⟨block, { queue with tail := some block, tailUsed := 0 }, after,
          [block.index], [content],
          by simp only [readyTail, last, if_pos full, acquired, linked],
          { holds := ?_
            empty := fun none => absurd none (by simp)
            headWithin := fun _ => by
              rw [sizes]
              exact text.headWithin (by simp [chainEq])
            tailWithin := Nat.zero_le _
            ordered := ?_
            bytes_eq := ?_ },
          ⟨wellFormedNow, sizes, ?_⟩, ⟨rfl, rfl, rfl, rfl, rfl⟩, rfl, rfl,
          positive, ?_, by rw [if_pos space]; rfl, ?_⟩
        · simp only [linkedCells]
          exact kept.concat single (by simpa using outside) found
        · simp only [stop, sizes, List.length_append, List.length_singleton,
            total]
          exact text.ordered
        · simp only [stop, sizes, List.length_append, List.length_singleton,
            total, Nat.add_zero, List.flatten_append]
          change List.drop _ (List.take (queue.stop blocks.blockSize
            chain.length) _) = _
          rw [List.take_append_of_le_length stops, text.bytes_eq]
        · have taken : Moves blocks.pool.cell middle.pool.cell chain
              (chain ++ [block.index]) := by
            rw [cells]
            exact Moves.acquire _ fresh (by simp)
          refine taken.trans ?_
          rw [linkedCells]
          exact Moves.write _ (by simp [chainEq])
        · rw [if_pos space]
          simp [tailSpace]
        · rw [same]
          exact available
      · have below : queue.tailUsed < blocks.blockSize := by omega
        have space : queue.tailSpace blocks.blockSize ≠ 0 := by
          simp only [tailSpace, last, reduceCtorEq, if_false]
          omega
        refine ⟨tail, queue, blocks, [], [],
          by simp only [readyTail, last, if_neg full],
          by simpa using text, by simpa using Step.refl wellFormed chain,
          Rechained.refl queue, rfl, last, below, by rw [if_neg space],
          by rw [if_neg space]; rfl, rfl⟩

/-- No new blocks for bytes that the last one has room for. -/
theorem blocksNeeded_eq_zero
    {blockSize byteCount : Nat}
    (positive : 0 < blockSize)
    (fits : byteCount ≤ queue.tailSpace blockSize) :
    queue.blocksNeeded blockSize byteCount = 0 := by
  simp only [blocksNeeded]
  rw [Nat.min_eq_left fits]
  exact Nat.div_eq_of_lt (by omega)

/-- The blocks needed before and after some bytes are written. -/
theorem blocksNeeded_eq
    {next : Queue} {blockSize byteCount moved : Nat}
    (positive : 0 < blockSize)
    (some : 0 < byteCount)
    (all : moved = min byteCount
      (if queue.tailSpace blockSize = 0 then blockSize
      else queue.tailSpace blockSize))
    (space : next.tailSpace blockSize =
      (if queue.tailSpace blockSize = 0 then blockSize
      else queue.tailSpace blockSize) - moved) :
    next.blocksNeeded blockSize (byteCount - moved) +
      (if queue.tailSpace blockSize = 0 then 1 else 0) =
      queue.blocksNeeded blockSize byteCount := by
  simp only [blocksNeeded]
  by_cases empty : queue.tailSpace blockSize = 0
  · rw [if_pos empty] at all space ⊢
    rw [empty, space]
    have one : (byteCount - min byteCount 0 + blockSize - 1) / blockSize =
        (byteCount - 1) / blockSize + 1 := by
      rw [← Nat.add_div_right _ positive]
      congr 1
      omega
    rw [one]
    congr 1
    rcases Nat.lt_or_ge blockSize byteCount with long | short
    · congr 1
      omega
    · rw [Nat.div_eq_of_lt (by omega), Nat.div_eq_of_lt (by omega)]
  · rw [if_neg empty] at all space ⊢
    rw [space, Nat.add_zero]
    congr 2
    omega

/-- A full tail needs a block more. -/
theorem blocksNeeded_pos
    {blockSize byteCount : Nat}
    (positive : 0 < blockSize)
    (some : 0 < byteCount)
    (space : queue.tailSpace blockSize = 0) :
    0 < queue.blocksNeeded blockSize byteCount := by
  simp only [blocksNeeded, space]
  exact Nat.div_pos (by omega) positive

/-- What appending bytes does. -/
structure Appended
    (queue next : Queue)
    (blocks after : SharedBlocks)
    (chain more : List Nat)
    (bytes new : List UInt8) : Prop where
  text : ∃ contents, Text next after (chain ++ more) contents (bytes ++ new)
  filled : Filled next blocks.blockSize (chain ++ more)
  step : Step blocks after chain (chain ++ more)
  rechained : Rechained queue next
  headOffset : next.headOffset = queue.headOffset
  grown : more.length = queue.blocksNeeded blocks.blockSize new.length
  available : after.available + more.length = blocks.available

theorem Appended.nothing
    (text : Text queue blocks chain contents bytes)
    (filled : Filled queue blocks.blockSize chain)
    (wellFormed : blocks.WellFormed) :
    Appended queue queue blocks blocks chain [] bytes [] where
  text := ⟨contents, by simpa using text⟩
  filled := by simpa using filled
  step := by simpa using Step.refl wellFormed chain
  rechained := Rechained.refl queue
  headOffset := rfl
  grown := (blocksNeeded_eq_zero wellFormed.positive (Nat.zero_le _)).symm
  available := rfl

/-- Bytes that there are blocks for are appended. -/
theorem appendBytes_spec
    {fuel : Nat} {new : List UInt8}
    (text : Text queue blocks chain contents bytes)
    (filled : Filled queue blocks.blockSize chain)
    (wellFormed : blocks.WellFormed)
    (fuelled : new.length ≤ fuel)
    (enough : queue.blocksNeeded blocks.blockSize new.length ≤
      blocks.available) :
    ∃ next after more,
      appendBytes fuel new queue blocks = (.ok (), next, after) ∧
      Appended queue next blocks after chain more bytes new := by
  induction fuel generalizing queue blocks chain contents bytes new with
  | zero =>
      have none : new = [] := List.length_eq_zero_iff.mp (by omega)
      subst none
      exact ⟨queue, blocks, [], rfl, .nothing text filled wellFormed⟩
  | succ fuel append_ih =>
      cases new with
      | nil => exact ⟨queue, blocks, [], rfl, .nothing text filled wellFormed⟩
      | cons byte rest =>
          have positive := wellFormed.positive
          have some : 0 < (byte :: rest).length := by simp
          obtain ⟨tail, ready, middle, more, newContents, readied, readyText,
            readyStep, readyRechained, readyHead, last, below, readySpace,
            moreLength, readyAvailable⟩ := readyTail_spec text wellFormed
            fun space => (blocksNeeded_pos positive some space).trans_le enough
          have space : ready.tailSpace blocks.blockSize =
              blocks.blockSize - ready.tailUsed := by
            simp [tailSpace, last]
          have unfolded : appendBytes (fuel + 1) (byte :: rest) queue blocks =
              appendBytes fuel
                ((byte :: rest).drop (min (byte :: rest).length
                  (middle.blockSize - ready.tailUsed)))
                { ready with
                  tailUsed := ready.tailUsed + min (byte :: rest).length
                    (middle.blockSize - ready.tailUsed) }
                (middle.copyInto tail ready.tailUsed
                  ((byte :: rest).take (min (byte :: rest).length
                    (middle.blockSize - ready.tailUsed)))) := by
            simp only [appendBytes, readied]
          rw [unfolded, readyStep.blockSize]
          generalize byte :: rest = new at some fuelled enough ⊢
          generalize counted : min new.length
            (blocks.blockSize - ready.tailUsed) = count
          have length : (new.take count).length = count := by
            rw [List.length_take]
            omega
          obtain ⟨copied, copyText, copyStep, copyAvailable⟩ :=
            readyText.copy (new.take count) readyStep.wellFormed last
              (by rw [readyStep.blockSize, length]; omega)
          rw [length] at copyText
          have needed := @blocksNeeded_eq queue
            { ready with tailUsed := ready.tailUsed + count } _ _ _ positive some (by rw [← readySpace, space, counted])
            (by
              rw [← readySpace, space]
              simp only [tailSpace, last, reduceCtorEq, if_false]
              omega)
          rw [← moreLength] at needed
          have sizes : (middle.copyInto tail ready.tailUsed
              (new.take count)).blockSize = blocks.blockSize :=
            copyStep.blockSize.trans readyStep.blockSize
          have ordered := readyText.ordered
          rw [readyStep.blockSize] at ordered
          have filledNow : Filled { ready with
              tailUsed := ready.tailUsed + count } blocks.blockSize
              (chain ++ more) := by
            refine ⟨fun _ => ?_, fun _ => ?_⟩
            · change 0 < ready.tailUsed + count
              omega
            · simp only [stop] at ordered ⊢
              omega
          obtain ⟨next, after, others, rested, spec⟩ := @append_ih _ _ _ _ _
            (new.drop count) copyText (by rw [sizes]; exact filledNow)
            copyStep.wellFormed (by rw [List.length_drop]; omega)
            (by rw [sizes, List.length_drop]; omega)
          have grown := spec.grown
          rw [sizes, List.length_drop] at grown
          have available := spec.available
          refine ⟨next, after, more ++ others, rested,
            { text := ?_
              filled := ?_
              step := ?_
              rechained := ?_
              headOffset := spec.headOffset.trans readyHead
              grown := ?_
              available := ?_ }⟩
          · obtain ⟨contents, textNow⟩ := spec.text
            refine ⟨contents, ?_⟩
            rwa [List.append_assoc, List.append_assoc, List.take_append_drop]
              at textNow
          · rw [← List.append_assoc, ← sizes]
            exact spec.filled
          · rw [← List.append_assoc]
            exact readyStep.trans (copyStep.trans spec.step)
          · obtain ⟨h1, h2, h3, h4, h5⟩ := spec.rechained
            exact readyRechained.trans ⟨h1, h2, h3, h4, h5⟩
          · rw [List.length_append]
            omega
          · rw [List.length_append]
            omega

/-! ## Consuming -/

/-- Where the bytes of a block of the chain end. -/
theorem Text.blockEnd_eq
    {lease : BlockLease}
    (text : Text queue blocks chain contents bytes)
    (position : Nat)
    (found : chain[position]? = some lease.index) :
    queue.blockEnd blocks.blockSize lease =
      min blocks.blockSize
        (queue.stop blocks.blockSize chain.length -
          position * blocks.blockSize) := by
  obtain ⟨bound, here⟩ := List.getElem?_eq_some_iff.mp found
  have within := text.tailWithin
  have distinct := text.holds.distinct
  have holds := text.holds
  cases last : queue.tail with
  | none =>
      rw [holds.tail_eq_none.mp last] at bound
      simp at bound
  | some tail =>
      rw [last] at holds
      obtain ⟨front, rfl⟩ := holds.tail_concat rfl
      rw [List.length_append, List.length_singleton] at bound
      simp only [blockEnd, last, stop, List.length_append,
        List.length_singleton, Nat.add_sub_cancel]
      rcases Nat.lt_or_ge position front.length with before | atLast
      · have apart : lease.index ≠ tail.index := by
          rw [List.getElem_append_left before] at here
          rintro same
          refine List.disjoint_of_nodup_append distinct
            (List.getElem_mem before) ?_
          simp [here, same]
        rw [if_neg apart]
        have more : (position + 1) * blocks.blockSize ≤
            front.length * blocks.blockSize :=
          Nat.mul_le_mul_right _ before
        rw [Nat.succ_mul] at more
        omega
      · have same : position = front.length := by omega
        subst same
        have same : lease.index = tail.index := by
          rw [List.getElem_append_right (Nat.le_refl _)] at here
          simpa using here.symm
        rw [if_pos same]
        omega

/-- Bytes leave a queue from the front, and used up blocks with them. -/
structure Consumed
    (queue next : Queue)
    (blocks after : SharedBlocks)
    (chain : List Nat)
    (bytes : List UInt8)
    (count dropped : Nat) : Prop where
  text : ∃ contents, Text next after (chain.drop dropped) contents
    (bytes.drop count)
  filled : Filled next blocks.blockSize (chain.drop dropped)
  step : Step blocks after chain (chain.drop dropped)
  rechained : Rechained queue next
  within : dropped ≤ chain.length
  available : after.available = blocks.available + dropped

theorem Consumed.nothing
    (text : Text queue blocks chain contents bytes)
    (filled : Filled queue blocks.blockSize chain)
    (wellFormed : blocks.WellFormed) :
    Consumed queue queue blocks blocks chain bytes 0 0 where
  text := ⟨contents, text⟩
  filled := filled
  step := Step.refl wellFormed chain
  rechained := Rechained.refl queue
  within := Nat.zero_le _
  available := rfl

/-- The first block is used up. -/
theorem Text.popBlock
    {index : Nat} {rest : List Nat} {content : List UInt8}
    {later : List (List UInt8)} {next : Option BlockLease}
    {after : SharedBlocks}
    (text : Text queue blocks (index :: rest) (content :: later) bytes)
    (filled : Filled queue blocks.blockSize (index :: rest))
    (wellFormed : blocks.WellFormed)
    (blockSize : after.blockSize = blocks.blockSize)
    (holds : LeasePool.Holds (fun _ => ()) after.pool.cell next
      (if next = none then none else queue.tail) rest later) :
    let queueNow :=
      if next = none then
        { queue with
          head := none
          headOffset := 0
          tail := none
          tailUsed := 0 }
      else { queue with head := next, headOffset := 0 }
    Text queueNow after rest later
        (bytes.drop (min blocks.blockSize
          (queue.stop blocks.blockSize (index :: rest).length) -
            queue.headOffset)) ∧
      Filled queueNow blocks.blockSize rest ∧ Rechained queue queueNow := by
  intro queueNow
  have positive := wellFormed.positive
  have length : content.length = blocks.blockSize :=
    SharedBlocks.uniform wellFormed text.holds content (by simp)
  have headWithin := text.headWithin (by simp)
  have total := text.length_bytes wellFormed
  have ordered := filled.headOffset (by simp)
  have tailWithin := text.tailWithin
  have bytes_eq := text.bytes_eq
  have stopEq : queue.stop blocks.blockSize (index :: rest).length =
      rest.length * blocks.blockSize + queue.tailUsed := rfl
  rw [stopEq] at total ordered bytes_eq ⊢
  cases rest with
  | nil =>
      have none : next = none := holds.head_eq_none.mpr rfl
      have noLater : later = [] :=
        List.length_eq_zero_iff.mp holds.length_eq.symm
      subst none noLater
      simp only [if_true] at holds
      simp only [List.length_nil, Nat.zero_mul, Nat.zero_add] at total ordered ⊢
      refine ⟨
        { holds := holds
          empty := fun _ => ⟨rfl, rfl⟩
          headWithin := fun some => absurd rfl some
          tailWithin := Nat.zero_le _
          ordered := Nat.zero_le _
          bytes_eq := ?_ },
        ⟨fun some => absurd rfl some, fun some => absurd rfl some⟩,
        ⟨rfl, rfl, rfl, rfl, rfl⟩⟩
      have none : bytes.drop (min blocks.blockSize queue.tailUsed -
          queue.headOffset) = [] := List.drop_eq_nil_of_le (by omega)
      rw [none]
      simp
  | cons second rest =>
      have some : next ≠ none := by
        rw [Ne, holds.head_eq_none]
        simp
      have queueEq : queueNow = { queue with head := next, headOffset := 0 } :=
        if_neg some
      rw [if_neg some] at holds
      have used : 0 < queue.tailUsed := filled.tailUsed (by simp)
      rw [queueEq]
      refine ⟨
        { holds := holds
          empty := fun none => absurd none (by simp)
          headWithin := fun _ => by
            rw [blockSize]
            exact positive
          tailWithin := by
            rw [blockSize]
            exact tailWithin
          ordered := Nat.zero_le _
          bytes_eq := ?_ },
        ⟨fun _ => used, fun _ => by simp only [stop]; omega⟩,
        ⟨rfl, rfl, rfl, rfl, rfl⟩⟩
      have whole : (second :: rest).length * blocks.blockSize +
          queue.tailUsed =
          content.length + (rest.length * blocks.blockSize + queue.tailUsed) := by
        rw [List.length_cons, Nat.succ_mul, length]
        omega
      rw [whole, List.flatten_cons, List.take_length_add_append] at bytes_eq
      rw [Nat.min_eq_left (by omega), ← bytes_eq, List.drop_drop,
        Nat.add_sub_cancel' headWithin.le, ← length, List.drop_left, length]
      simp only [stop, blockSize, List.length_cons, Nat.add_sub_cancel,
        List.drop_zero]

/-- Fewer bytes than the first block has are consumed from it. -/
theorem Text.advance
    {count : Nat}
    (text : Text queue blocks chain contents bytes)
    (filled : Filled queue blocks.blockSize chain)
    (some : chain ≠ [])
    (short : count < min blocks.blockSize
      (queue.stop blocks.blockSize chain.length) - queue.headOffset) :
    Text { queue with headOffset := queue.headOffset + count } blocks chain
        contents (bytes.drop count) ∧
      Filled { queue with headOffset := queue.headOffset + count }
        blocks.blockSize chain := by
  refine ⟨
    { holds := text.holds
      empty := fun none => absurd none some
      headWithin := fun _ => ?_
      tailWithin := text.tailWithin
      ordered := ?_
      bytes_eq := ?_ }, ⟨filled.tailUsed, fun some => ?_⟩⟩
  · simp only
    omega
  · simp only [stop] at short ⊢
    omega
  · rw [← text.bytes_eq, List.drop_drop]
    rfl
  · simp only [stop] at short ⊢
    omega

/-- Bytes that a queue has leave it. -/
theorem consume_spec
    {fuel count : Nat}
    (text : Text queue blocks chain contents bytes)
    (filled : Filled queue blocks.blockSize chain)
    (wellFormed : blocks.WellFormed)
    (fuelled : chain.length ≤ fuel)
    (within : count ≤ bytes.length) :
    ∃ next after dropped,
      consume fuel count queue blocks = (.ok (), next, after) ∧
      Consumed queue next blocks after chain bytes count dropped := by
  induction fuel generalizing queue blocks chain contents bytes count with
  | zero =>
      have none : chain = [] := List.length_eq_zero_iff.mp (by omega)
      have noBytes := (text.bytes_eq_nil filled wellFormed).mpr none
      rw [noBytes] at within
      cases Nat.le_zero.mp within
      exact ⟨queue, blocks, 0, by simp only [consume],
        .nothing text filled wellFormed⟩
  | succ fuel consume_ih =>
      cases count with
      | zero =>
          exact ⟨queue, blocks, 0, by simp only [consume],
            .nothing text filled wellFormed⟩
      | succ count =>
          cases chain with
          | nil =>
              have noBytes := (text.bytes_eq_nil filled wellFormed).mpr rfl
              rw [noBytes] at within
              simp at within
          | cons index rest =>
              cases first : queue.head with
              | none => cases text.holds.head_eq_none.mp first
              | some head =>
                  have holds := text.holds
                  rw [first] at holds
                  obtain ⟨rfl, cell, next, found, nextEq, nextIndex, _,
                    nextLeased⟩ := holds.nextLease
                  have ends : queue.blockEnd blocks.blockSize head =
                      min blocks.blockSize (queue.stop blocks.blockSize
                        (head.index :: rest).length) := by
                    rw [text.blockEnd_eq 0 (by simp),
                      Nat.zero_mul, Nat.sub_zero]
                  have nextEq : blocks.nextLease head = .ok next := by
                    rw [SharedBlocks.nextLease, nextEq]
                    rfl
                  rcases Nat.lt_or_ge (count + 1)
                    (queue.blockEnd blocks.blockSize head - queue.headOffset)
                    with short | long
                  · have unfolded : consume (fuel + 1) (count + 1) queue
                        blocks = (.ok (), { queue with
                          headOffset := queue.headOffset + (count + 1) },
                          blocks) := by
                      simp only [consume, first, if_pos short]
                    rw [ends] at short
                    obtain ⟨textNow, filledNow⟩ :=
                      text.advance filled (by simp) short
                    exact ⟨_, _, 0, unfolded,
                      { text := ⟨contents, textNow⟩
                        filled := filledNow
                        step := Step.refl wellFormed _
                        rechained := ⟨rfl, rfl, rfl, rfl, rfl⟩
                        within := Nat.zero_le _
                        available := rfl }⟩
                  · cases contents with
                    | nil => simpa using holds.length_eq
                    | cons content later =>
                        obtain ⟨released, release, wellFormedNow, blockSize,
                          cells, available⟩ := SharedBlocks.release_spec
                          wellFormed (holds.headLeased head rfl)
                        have popped := holds.pop found nextIndex nextLeased
                        rw [← cells] at popped
                        obtain ⟨textNow, filledNow, rechained⟩ :=
                          text.popBlock filled wellFormed blockSize popped
                        rw [← ends] at textNow
                        have total := text.length_bytes wellFormed
                        have ordered := text.ordered
                        obtain ⟨last, final, dropped, rested, spec⟩ :=
                          @consume_ih _ _ _ _ _ (count + 1 -
                            (queue.blockEnd blocks.blockSize head -
                              queue.headOffset)) textNow
                            (by rw [blockSize]; exact filledNow) wellFormedNow
                            (by simpa using fuelled)
                            (by rw [List.length_drop]; omega)
                        have step : Step blocks released (head.index :: rest)
                            rest := Step.pop wellFormedNow blockSize cells
                          (List.nodup_cons.mp holds.distinct).1
                        refine ⟨last, final, dropped + 1, ?_,
                          { text := ?_
                            filled := ?_
                            step := step.trans spec.step
                            rechained := rechained.trans spec.rechained
                            within := ?_
                            available := ?_ }⟩
                        · rw [← rested]
                          simp only [consume, first, if_neg long.not_gt,
                            nextEq, release]
                        · obtain ⟨contents, text⟩ := spec.text
                          refine ⟨contents, ?_⟩
                          rwa [List.drop_drop, Nat.add_sub_cancel' long]
                            at text
                        · rw [← blockSize]
                          exact spec.filled
                        · simpa using spec.within
                        · rw [spec.available, available]
                          omega

end Queue
end Tx
end Wayring
