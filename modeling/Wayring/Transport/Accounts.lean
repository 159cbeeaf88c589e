import Wayring.Transport.QueueRuns

/-!
# Transmit storage accounting

What the blocks of a queue are, which of them a completion releases, and how
the pool counts the blocks of all queues.
-/

namespace Wayring
namespace Tx

namespace Queue

/-- Where the bytes of a block end, counted from the start of the chain. -/
def blockStop
    (queue : Queue)
    (blockSize blockCount position : Nat) : Nat :=
  min ((position + 1) * blockSize) (queue.stop blockSize blockCount)

/-- The chain runs from the head to the tail and holds the queued bytes.  No
block is consumed. -/
structure Accounted
    (queue : Queue)
    (blocks : SharedBlocks)
    (chain : List Nat) : Prop where
  linked : Chain.Linked (LeasePool.links blocks.pool.cell)
    (queue.head.map LeasePool.Lease.index) chain
  last : queue.tail.map LeasePool.Lease.index = chain.getLast?
  bytes : queue.headOffset + queue.byteCount =
    queue.stop blocks.blockSize chain.length
  within : queue.byteCount ≤ queue.byteBudget
  unconsumed : ∀ position < chain.length,
    max queue.headOffset (position * blocks.blockSize) <
      queue.blockStop blocks.blockSize chain.length position

variable {queue next : Queue} {blocks after : SharedBlocks} {chain : List Nat}
  {contents : List (List UInt8)} {bytes : List UInt8}

/-- A chain accounts for the bytes of its queue. -/
theorem Text.accounted
    (text : Text queue blocks chain contents bytes)
    (filled : Filled queue blocks.blockSize chain)
    (wellFormed : blocks.WellFormed)
    (count : queue.byteCount = bytes.length)
    (within : queue.byteCount ≤ queue.byteBudget) :
    queue.Accounted blocks chain where
  linked := text.holds.linked
  last := text.holds.tail_eq
  bytes := by
    rw [count, Nat.add_comm]
    exact text.length_bytes wellFormed
  within := within
  unconsumed position inside := by
    have some : chain ≠ [] := List.ne_nil_of_length_pos (by omega)
    have headWithin := text.headWithin some
    have headBefore := filled.headOffset some
    have tailUsed := filled.tailUsed some
    have positive := wellFormed.positive
    have upTo : position * blocks.blockSize ≤
        (chain.length - 1) * blocks.blockSize :=
      Nat.mul_le_mul_right _ (by omega)
    rw [blockStop, Nat.succ_mul]
    unfold stop at headBefore ⊢
    omega

/-- Nothing is consumed from an empty chain. -/
theorem consume_empty
    (fuel count : Nat) (blocks : SharedBlocks)
    (empty : queue.head = none) :
    (consume fuel count queue blocks).2.1 = queue := by
  cases count with
  | zero => simp [consume]
  | succ count =>
      cases fuel with
      | zero => rfl
      | succ fuel => simp [consume, empty]

/-- Consuming keeps the fill of a tail that stays. -/
theorem consume_tailUsed
    {fuel count : Nat}
    (stays : (consume fuel count queue blocks).2.1.head ≠ none) :
    (consume fuel count queue blocks).2.1.tailUsed = queue.tailUsed := by
  induction fuel generalizing queue blocks count with
  | zero =>
      cases count with
      | zero => rfl
      | succ count => rfl
  | succ fuel consume_ih =>
      cases count with
      | zero => simp [consume]
      | succ count =>
          cases first : queue.head with
          | none => simp only [consume, first]
          | some head =>
              simp only [consume, first] at stays ⊢
              split_ifs at stays ⊢ with short
              · rfl
              · cases linked : blocks.nextLease head with
                | error cause => simp only
                | ok following =>
                    simp only [linked] at stays ⊢
                    generalize blocks.release head = released at stays ⊢
                    obtain ⟨result, blocksNow⟩ := released
                    cases result with
                    | error cause => rfl
                    | ok _ =>
                        simp only at stays ⊢
                        split_ifs at stays ⊢ with ends
                        · rw [consume_empty _ _ _ rfl] at stays
                          exact absurd rfl stays
                        · exact consume_ih stays

/-- A completion that leaves bytes does not move the end. -/
theorem complete_tailUsed
    {storage storageNow : Storage} {count : Nat} {closed : List Fd}
    (completed : queue.complete storage count = (.ok closed, next, storageNow))
    (stays : next.head ≠ none) : next.tailUsed = queue.tailUsed := by
  rw [complete] at completed
  split_ifs at completed
  · cases completed
  cases sending : queue.active with
  | none =>
      rw [sending] at completed
      cases completed
  | some active =>
      simp only [sending] at completed
      split_ifs at completed
      · cases completed
      have kept := @consume_tailUsed queue storage.blocks
        (storage.blocks.pool.nodes.length + 1) count
      generalize consume (storage.blocks.pool.nodes.length + 1) count queue
        storage.blocks = consumed at completed kept
      obtain ⟨result, left, blocksNow⟩ := consumed
      cases result with
      | error cause => cases completed
      | ok _ =>
          simp only at completed kept
          generalize FdQueue.popAndClose active.descriptorCount
            left.descriptors storage.fds = popped at completed
          obtain ⟨result, descriptors, fdsNow⟩ := popped
          cases result with
          | error cause => cases completed
          | ok _ =>
              cases completed
              exact kept stays

/-- A completion drops the blocks whose bytes end by what was sent, and no
other. -/
theorem Stores.dropped_iff
    {storage storageNow : Storage} {count dropped : Nat}
    {bytesNow : List UInt8} {fds fdsNow : List Fd} {fdChain fdChainNow : List Nat}
    (stores : queue.Stores storage bytes fds chain fdChain)
    (wellFormed : storage.WellFormed)
    (storesNow : next.Stores storageNow bytesNow fdsNow (chain.drop dropped)
      fdChainNow)
    (wellFormedNow : storageNow.WellFormed)
    (blockSize : storageNow.blocks.blockSize = storage.blocks.blockSize)
    (left : bytesNow.length + count = bytes.length)
    (tailUsed : next.head ≠ none → next.tailUsed = queue.tailUsed)
    {position : Nat}
    (inside : position < chain.length) :
    position < dropped ↔
      queue.blockStop storage.blocks.blockSize chain.length position ≤
        queue.headOffset + count := by
  obtain ⟨contents, text⟩ := stores.text
  obtain ⟨contentsNow, textNow⟩ := storesNow.text
  have filledNow := storesNow.filled
  have length := text.length_bytes wellFormed.blocks
  have lengthNow := textNow.length_bytes wellFormedNow.blocks
  have headWithin := textNow.headWithin
  rw [blockSize] at lengthNow filledNow headWithin
  unfold blockStop
  by_cases emptied : chain.drop dropped = []
  · have nothing := (textNow.bytes_eq_nil storesNow.filled
      wellFormedNow.blocks).mpr emptied
    rw [nothing, List.length_nil, Nat.zero_add] at left
    have all := List.drop_eq_nil_iff.mp emptied
    exact ⟨fun _ => by omega, fun _ => by omega⟩
  · have some : dropped < chain.length := by
      by_contra beyond
      exact emptied (List.drop_eq_nil_iff.mpr (by omega))
    obtain ⟨later, split⟩ : ∃ later, chain.length = dropped + later + 1 :=
      ⟨chain.length - dropped - 1, by omega⟩
    have sameTail : next.tailUsed = queue.tailUsed := by
      apply tailUsed
      intro none
      exact emptied (textNow.holds.head_eq_none.mp none)
    have offset := headWithin emptied
    have before := filledNow.headOffset emptied
    unfold stop at *
    rw [List.length_drop, split, show dropped + later + 1 - dropped - 1 = later
      by omega, sameTail] at lengthNow before
    rw [split, Nat.add_sub_cancel, Nat.add_mul dropped later] at length ⊢
    constructor
    · intro early
      have upTo := Nat.mul_le_mul_right storage.blocks.blockSize
        (show position + 1 ≤ dropped by omega)
      omega
    · intro consumed
      by_contra late
      have beyond := Nat.mul_le_mul_right storage.blocks.blockSize
        (show dropped + 1 ≤ position + 1 by omega)
      rw [Nat.succ_mul] at beyond
      omega

end Queue

/-! ## All owners -/

/-- The blocks of all owners, and what the pool counts. -/
structure World.Accounts
    (world : World)
    (owners : Finset Nat)
    (entries : Nat → Entries) : Prop where
  queue : ∀ owner sender, world.senders owner = some sender →
    sender.queue.Accounted world.storage.blocks (entries owner).chain ∧
      Chain.Linked (LeasePool.links world.storage.blocks.pool.cell)
        ((sender.reservation.bind Reservation.newHead).map
          LeasePool.Lease.index)
        (entries owner).reserved
  vacant : ∀ owner, world.senders owner = none → (entries owner).blocks = []
  distinct : ∀ owner, (entries owner).blocks.Nodup
  apart : ∀ owner other, owner ≠ other →
    (entries owner).blocks.Disjoint (entries other).blocks
  free : ∃ free,
    Chain.Linked
      (fun index => (world.storage.blocks.pool.nodes[index]?).bind
        LeasePool.Node.freeNext)
      world.storage.blocks.pool.freeHead free ∧
    free.Nodup ∧ ∀ owner, free.Disjoint (entries owner).blocks
  active : world.storage.blocks.pool.activeCount =
    ∑ owner ∈ owners,
      ((entries owner).chain.length + (entries owner).reserved.length)

/-- A completion releases the blocks that it consumes, and no other. -/
def World.Completes
    (world worldNow : World)
    (owner written : Nat)
    (chain : List Nat) : Prop :=
  ∃ sender senderNow dropped,
    world.senders owner = some sender ∧
    worldNow.senders owner = some senderNow ∧
    senderNow.queue.Accounted worldNow.storage.blocks (chain.drop dropped) ∧
    senderNow.queue.byteCount + written = sender.queue.byteCount ∧
    (∀ position < chain.length,
      position < dropped ↔
        sender.queue.blockStop world.storage.blocks.blockSize chain.length
          position ≤ sender.queue.headOffset + written) ∧
    ∀ index, worldNow.storage.blocks.pool.cell index ≠ none ↔
      world.storage.blocks.pool.cell index ≠ none ∧
        index ∉ chain.take dropped

variable {storage : Storage} {sender : Option Sender} {entries : Entries}

/-- A sender accounts for its storage. -/
theorem Has.accounted
    {sender : Sender}
    (has : Has storage (some sender) entries)
    (wellFormed : storage.WellFormed) :
    sender.queue.Accounted storage.blocks entries.chain ∧
      Chain.Linked (LeasePool.links storage.blocks.pool.cell)
        ((sender.reservation.bind Reservation.newHead).map
          LeasePool.Lease.index)
        entries.reserved := by
  cases has with
  | @settled queue reservation _ _ _ _ stores finished =>
      obtain ⟨contents, text⟩ := stores.text
      refine ⟨text.accounted stores.filled wellFormed.blocks stores.count
        stores.within, ?_⟩
      cases last : reservation with
      | none => simp
      | some reservation => simp [(finished reservation last).2]
  | reserving holds =>
      obtain ⟨contents, newContents, writes⟩ := holds.writes
      have within := holds.within
      exact ⟨writes.text.accounted holds.filled wellFormed.blocks holds.count
        (by omega), writes.reserved.linked⟩

/-- The chains of all queues account for what is in use. -/
theorem World.Sound.accounts
    {world : World} {entries : Nat → Entries}
    (sound : world.Sound entries)
    (owners : Finset Nat)
    (idle : ∀ owner, owner ∉ owners → entries owner = {}) :
    world.Accounts owners entries where
  queue owner sender found := by
    have has := sound.has owner
    rw [found] at has
    exact has.accounted sound.wellFormed
  vacant owner none := by
    have has := sound.has owner
    rw [none] at has
    generalize entries owner = entries at has ⊢
    cases has
    rfl
  distinct := sound.blocks.distinct
  apart := sound.blocks.apart
  free := by
    obtain ⟨free, linked, distinct, free_iff⟩ :=
      sound.wellFormed.blocks.pool.free
    refine ⟨free, linked, distinct, ?_⟩
    intro owner index isFree inOwner
    obtain ⟨node, found, unused⟩ := (free_iff index).mp isFree
    apply (sound.blocks.used_iff index).mpr ⟨owner, inOwner⟩
    simp [LeasePool.cell, found, unused]
  active := by
    rw [sound.blocks.activeCount_eq_sum sound.wellFormed.blocks.pool owners]
    · simp [Entries.blocks]
    · intro owner outside
      rw [idle owner outside]
      rfl

section Completions

variable [Native] {outcome : Outcome} {count : Nat}

/-- A completion of one owner. -/
theorem completed
    (wellFormed : storage.WellFormed)
    (has : Has storage sender entries)
    (called : Sender.call storage sender (.complete count) = some outcome)
    (done : outcome.result = .ok ()) :
    ∃ queue reservation next dropped,
      sender = some { queue, reservation } ∧
      outcome.sender = some { queue := next, reservation } ∧
      next.byteCount + count = queue.byteCount ∧
      (∀ position < entries.chain.length,
        position < dropped ↔
          queue.blockStop storage.blocks.blockSize entries.chain.length
            position ≤ queue.headOffset + count) ∧
      entries.reserved = [] ∧
      ∃ fdChain, Served storage sender entries outcome
        { chain := entries.chain.drop dropped, fdChain } := by
  cases has with
  | gone => cases called
  | settled stores finished =>
      rename_i queue reservation bytes items chain fdChain
      have spec := @Queue.complete_spec queue storage bytes items chain fdChain
        count stores wellFormed
      cases result : (queue.complete storage count).1 with
      | error cause =>
          simp only [Sender.call, Option.some.injEq] at called
          subst called
          simp only [result] at done
          cases done
      | ok closed =>
          simp only [result] at spec
          obtain ⟨active, _, _, sending, positive, within, _⟩ := spec
          obtain ⟨next, after, dropped, completed, spec, _⟩ :=
            Queue.complete_active stores wellFormed sending positive within
          simp only [Sender.call, completed, Option.some.injEq] at called
          subst called
          have fits := (stores.flight active sending).2.1
          have counted := stores.count
          have countedNow := spec.stores.count
          rw [List.length_drop] at countedNow
          refine ⟨queue, reservation, next, dropped, rfl, rfl, by omega, ?_,
            rfl, _, .settled spec.stores finished, ?_, by simp [Except.map]⟩
          · intro position inside
            apply stores.dropped_iff wellFormed spec.stores
              spec.step.wellFormed spec.step.blocks.blockSize
              (by rw [List.length_drop]; omega)
              (Queue.complete_tailUsed completed) inside
          · simpa [Entries.blocks] using spec.step
  | reserving holds =>
      simp only [Sender.call, Queue.complete_unsettled count holds.unsettled,
        Option.some.injEq] at called
      subst called
      cases done

/-- A completion closes what it freed. -/
theorem World.Sound.completes
    {world worldNow : World} {entries : Nat → Entries} {owner : Nat}
    (sound : world.Sound entries)
    (stepped : Tx.step world owner (.complete count) =
      some (.ok (), worldNow)) :
    world.Completes worldNow owner count (entries owner).chain := by
  obtain ⟨outcome, called, same⟩ := Option.map_eq_some_iff.mp stepped
  simp only [Prod.mk.injEq] at same
  obtain ⟨done, rfl⟩ := same
  obtain ⟨queue, reservation, next, dropped, before, now, counted, dropped_iff,
    unreserved, fdChain, served⟩ :=
    completed sound.wellFormed (sound.has owner) called done
  have turned := sound.serve served
  have hasNow := served.has
  rw [now] at hasNow
  refine ⟨_, _, dropped, before, by simp [now],
    (hasNow.accounted served.step.wellFormed).1, counted, dropped_iff, ?_⟩
  intro index
  have moves := served.step.blocks.moves
  simp only [Entries.blocks, unreserved, List.append_nil] at moves
  have distinct : ((entries owner).chain.take dropped ++
      (entries owner).chain.drop dropped).Nodup := by
    rw [List.take_append_drop]
    have all := (sound.has owner).used.1
    rwa [Entries.blocks, unreserved, List.append_nil] at all
  constructor
  · intro used
    rcases moves.accounted index used with kept | ⟨outside, usedBefore⟩
    · refine ⟨(sound.has owner).used.2.2.1 index ?_, fun gone =>
        (List.nodup_append.mp distinct).2.2 index gone index kept rfl⟩
      exact List.mem_append_left _ (List.mem_of_mem_drop kept)
    · exact ⟨usedBefore, fun gone => outside (List.mem_of_mem_take gone)⟩
  · rintro ⟨used, stays⟩
    by_cases member : index ∈ (entries owner).chain
    · apply served.has.used.2.2.1
      rw [← List.take_append_drop dropped (entries owner).chain] at member
      rcases List.mem_append.mp member with gone | kept
      · exact absurd gone stays
      · exact List.mem_append_left _ kept
    · rw [moves.frame index member used]
      exact used

/-- In every run of any number of queues over one pool, the blocks in use are
divided among the queues and the messages being written, and the pool counts
them.  A call that fails leaves all queues as they were, a completion releases
exactly the blocks it consumes, and no block is in use once no queue is left. -/
theorem transmit_storage_is_accounted
    {blockSize blockCount blockRoom capacity fdRoom : Nat}
    {blocks : SharedBlocks} {fds : SharedFds}
    (blocksReady : SharedBlocks.init blockSize blockCount blockRoom =
      .ok blocks)
    (fdsReady : SharedFds.init capacity fdRoom = .ok fds)
    {turns : List (Nat × Call)} {results : List (Except Error Unit)}
    {world : World}
    (ran : run (World.start { blocks, fds }) turns = some (results, world)) :
    (∃ entries,
      world.Accounts (turns.map Prod.fst).toFinset entries ∧
      ∀ owner call result worldNow,
        step world owner call = some (result, worldNow) →
        (∀ cause, result = .error cause →
          worldNow.senders = world.senders ∧
            Queue.Unchanged world.storage worldNow.storage) ∧
        ∀ written, call = .complete written → result = .ok () →
          world.Completes worldNow owner written (entries owner).chain) ∧
    ((∀ owner, world.senders owner = none) →
      world.storage.blocks.pool.activeCount = 0 ∧
        ∀ index, world.storage.blocks.pool.cell index = none) := by
  obtain ⟨entries, sound, untouched⟩ :=
    (World.Sound.start_ready blocksReady fdsReady).run ran
  have accounts := sound.accounts (turns.map Prod.fst).toFinset
    fun owner outside => untouched owner (by simpa using outside)
  refine ⟨⟨entries, accounts, ?_⟩, ?_⟩
  · intro owner call result worldNow stepped
    constructor
    · intro cause failed
      obtain ⟨entriesNow, turned⟩ := sound.step stepped
      obtain ⟨sameSenders, _, unchanged⟩ := turned.failed cause failed
      exact ⟨sameSenders, unchanged⟩
    · rintro written rfl rfl
      exact sound.completes stepped
  · intro gone
    have nothing : ∀ owner, (entries owner).blocks = [] :=
      fun owner => accounts.vacant owner (gone owner)
    constructor
    · rw [accounts.active]
      apply Finset.sum_eq_zero
      intro owner _
      rw [← List.length_append, ← Entries.blocks, nothing owner,
        List.length_nil]
    · intro index
      by_contra used
      obtain ⟨owner, member⟩ := (sound.blocks.used_iff index).mp used
      rw [nothing owner] at member
      cases member

end Completions

section Sample

local instance littleEndian : Native := ⟨.little⟩

/-- Pools of two blocks of four bytes and of two descriptor entries. -/
def sampleStorage : Storage where
  blocks := ((SharedBlocks.init 4 2 2).toOption).getD { blockSize := 4 }
  fds := ((SharedFds.init 2 2).toOption).getD {}

/-- One owner drops its first block while another writes a message. -/
def sampleTurns : List (Nat × Call) :=
  [ (0, .init 16 1),
    (1, .init 16 1),
    (0, .enqueue [1, 2, 3, 4, 5] [7] { blocks := 0, fds := 0 }),
    (1, .reserve 6 0),
    (1, .reserve 6 2),
    (1, .reserve 6 2),
    (1, .write [1, 2, 3]),
    (0, .begin
      { first := { lease := { index := 1, generation := 1, key := () }, start := 0, stop := 4 }
        second := none
        control := []
        descriptorCount := 1 }),
    (0, .complete 4) ]

/-- The world after the sample calls. -/
def sampleWorld : World :=
  ((run (World.start sampleStorage) sampleTurns).map Prod.snd).getD
    (World.start sampleStorage)

theorem transmit_storage_is_accounted_sample :
    ∃ entries, sampleWorld.Accounts {0, 1} entries ∧
      sampleWorld.storage.blocks.pool.activeCount = 3 := by
  have blocksReady : SharedBlocks.init 4 2 2 = .ok sampleStorage.blocks := rfl
  have fdsReady : SharedFds.init 2 2 = .ok sampleStorage.fds := rfl
  have ran : run (World.start sampleStorage) sampleTurns = some
      ([.ok (), .ok (), .ok (), .error .outOfMemory, .ok (),
        .error .reservationActive, .ok (), .ok (), .ok ()], sampleWorld) := rfl
  obtain ⟨⟨entries, accounts, _⟩, _⟩ :=
    transmit_storage_is_accounted blocksReady fdsReady ran
  have owners : (sampleTurns.map Prod.fst).toFinset = {0, 1} := by decide
  rw [owners] at accounts
  exact ⟨entries, accounts, rfl⟩

end Sample

end Tx
end Wayring
