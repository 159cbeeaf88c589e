import Wayring.Transport.FdStream
import Wayring.Transport.Reserved

/-!
# Transmit streams

A transmit queue holds a list of bytes and a list of descriptors.  A message
that is being written through a reservation is not part of them yet.
-/

namespace Wayring

namespace Storage

/-- Both pools are well formed. -/
structure WellFormed (storage : Storage) : Prop where
  blocks : storage.blocks.WellFormed
  fds : storage.fds.WellFormed

/-- What an operation of one owner does to the pools. -/
structure Step
    (before after : Storage)
    (owned ownedNow fdsOwned fdsOwnedNow : List Nat) : Prop where
  blocks : SharedBlocks.Step before.blocks after.blocks owned ownedNow
  fds : FdQueue.Step before.fds after.fds fdsOwned fdsOwnedNow

variable {storage middle last : Storage}
  {owned ownedNow ownedLast fdsOwned fdsOwnedNow fdsOwnedLast : List Nat}

/-- Steps keep storage well formed. -/
theorem Step.wellFormed
    (step : Step storage middle owned ownedNow fdsOwned fdsOwnedNow) :
    middle.WellFormed :=
  ⟨step.blocks.wellFormed, step.fds.wellFormed⟩

theorem Step.refl
    (wellFormed : storage.WellFormed)
    (owned fdsOwned : List Nat) :
    Step storage storage owned owned fdsOwned fdsOwned :=
  ⟨.refl wellFormed.blocks owned, .refl wellFormed.fds fdsOwned⟩

theorem Step.trans
    (early : Step storage middle owned ownedNow fdsOwned fdsOwnedNow)
    (late : Step middle last ownedNow ownedLast fdsOwnedNow fdsOwnedLast) :
    Step storage last owned ownedLast fdsOwned fdsOwnedLast :=
  ⟨early.blocks.trans late.blocks, early.fds.trans late.fds⟩

end Storage

namespace Tx

open Reservation (Writes)

/-- A queue with no reservation holds some bytes and descriptors. -/
structure Queue.Stores
    (queue : Queue)
    (storage : Storage)
    (bytes : List UInt8)
    (fds : List Fd)
    (chain fdChain : List Nat) : Prop where
  text : ∃ contents, Queue.Text queue storage.blocks chain contents bytes
  filled : Queue.Filled queue storage.blocks.blockSize chain
  count : queue.byteCount = bytes.length
  within : queue.byteCount ≤ queue.byteBudget
  descriptors : queue.descriptors.Stores storage.fds fds fdChain
  flight : ∀ active, queue.active = some active →
    0 < active.byteCount ∧ active.byteCount ≤ bytes.length ∧
      active.descriptorCount ≤ fds.length
  settled : queue.reservationActive = false

/-- A queue with a reservation holds some bytes and descriptors, and part of a
message. -/
structure Queue.Reserving
    (queue : Queue)
    (storage : Storage)
    (reservation : Reservation)
    (bytes written : List UInt8)
    (fds : List Fd)
    (chain newChain fdChain : List Nat) : Prop where
  writes : ∃ contents newContents,
    Writes reservation queue storage.blocks chain newChain contents newContents
      bytes written
  filled : Queue.Filled queue storage.blocks.blockSize chain
  count : queue.byteCount = bytes.length
  within : queue.byteCount + reservation.byteCount ≤ queue.byteBudget
  descriptors : queue.descriptors.Stores storage.fds fds fdChain
  flight : ∀ active, queue.active = some active →
    0 < active.byteCount ∧ active.byteCount ≤ bytes.length ∧
      active.descriptorCount ≤ fds.length
  unsettled : queue.reservationActive = true

namespace Queue

open Storage (Step)

variable {queue : Queue} {storage after : Storage} {bytes written : List UInt8}
  {fds : List Fd} {chain newChain fdChain : List Nat}
  {reservation : Reservation}

/-- A new queue stores nothing. -/
theorem Stores.init
    (storage : Storage) (byteBudget descriptorBudget : Nat) :
    (Queue.init byteBudget descriptorBudget).Stores storage [] [] [] [] where
  text := ⟨[], Text.init _ _ _⟩
  filled := Filled.init _ _ _
  count := rfl
  within := Nat.zero_le _
  descriptors := FdQueue.Stores.init _ _
  flight _ active := nomatch active
  settled := rfl

/-- Someone else's step leaves a queue alone. -/
theorem Stores.frame
    {owned ownedNow fdsOwned fdsOwnedNow : List Nat}
    (stores : Stores queue storage bytes fds chain fdChain)
    (step : Step storage after owned ownedNow fdsOwned fdsOwnedNow)
    (apart : ∀ index ∈ chain, index ∉ owned)
    (fdsApart : ∀ index ∈ fdChain, index ∉ fdsOwned) :
    Stores queue after bytes fds chain fdChain := by
  obtain ⟨contents, text⟩ := stores.text
  exact
    { stores with
      text := ⟨contents, text.frame step.blocks apart⟩
      filled := by
        rw [step.blocks.blockSize]
        exact stores.filled
      descriptors := stores.descriptors.frame step.fds fdsApart }

/-- Steps on other storage leave a reservation alone. -/
theorem Reserving.frame
    {owned ownedNow fdsOwned fdsOwnedNow : List Nat}
    (reserving : Reserving queue storage reservation bytes written fds chain
      newChain fdChain)
    (step : Step storage after owned ownedNow fdsOwned fdsOwnedNow)
    (apart : ∀ index ∈ chain ++ newChain, index ∉ owned)
    (fdsApart : ∀ index ∈ fdChain, index ∉ fdsOwned) :
    Reserving queue after reservation bytes written fds chain newChain
      fdChain := by
  obtain ⟨contents, newContents, writes⟩ := reserving.writes
  exact
    { reserving with
      writes := ⟨contents, newContents, writes.frame step.blocks apart⟩
      filled := by
        rw [step.blocks.blockSize]
        exact reserving.filled
      descriptors := reserving.descriptors.frame step.fds fdsApart }

/-! ## Capacity -/

/-- Capacity for a message never changes what the queue holds. -/
theorem ensureCapacity_spec
    {byteCount descriptorCount : Nat} {room : Room}
    (stores : Stores queue storage bytes fds chain fdChain)
    (wellFormed : storage.WellFormed) :
    let outcome := queue.ensureCapacity storage byteCount descriptorCount room
    Step storage outcome.2 chain chain fdChain fdChain ∧
      Stores queue outcome.2 bytes fds chain fdChain ∧
      outcome.1 ≠ .error .unreachable ∧
      (outcome.1 = .ok () →
        bytes.length + byteCount ≤ queue.byteBudget ∧
        fds.length + descriptorCount ≤ queue.descriptors.budget ∧
        queue.blocksNeeded outcome.2.blocks.blockSize byteCount ≤
          outcome.2.blocks.available ∧
        descriptorCount ≤ outcome.2.fds.available) := by
  have within := stores.within
  rw [stores.count] at within
  rw [ensureCapacity, stores.settled, if_neg (by simp), stores.count]
  split_ifs with exceeds
  · exact ⟨Step.refl wellFormed _ _, stores, by simp, by simp⟩
  · obtain ⟨fdStep, fdStores, _, fdReachable, fdEnough⟩ :=
      @FdQueue.ensureCapacity_spec queue.descriptors storage.fds fds fdChain
        descriptorCount room.fds stores.descriptors wellFormed.fds
    generalize queue.descriptors.ensureCapacity storage.fds descriptorCount
      room.fds = ensured at fdStep fdStores fdReachable fdEnough
    obtain ⟨result, fdsNow⟩ := ensured
    cases result with
    | error cause =>
        exact ⟨⟨.refl wellFormed.blocks _, fdStep⟩,
          { stores with descriptors := fdStores },
          fun broken => fdReachable broken, by simp⟩
    | ok _ =>
        obtain ⟨blocksWellFormed, blockSize, cells, _, _, reachable,
          enough⟩ := @SharedBlocks.ensureAvailable_spec storage.blocks
          (queue.blocksNeeded storage.blocks.blockSize byteCount) room.blocks
          wellFormed.blocks
        simp only
        generalize storage.blocks.ensureAvailable
          (queue.blocksNeeded storage.blocks.blockSize byteCount) room.blocks =
          ensured at blocksWellFormed blockSize cells reachable enough ⊢
        obtain ⟨answer, blocksNow⟩ := ensured
        simp only at blocksWellFormed blockSize cells reachable enough ⊢
        obtain ⟨contents, text⟩ := stores.text
        refine ⟨⟨⟨blocksWellFormed, blockSize, ?_⟩, fdStep⟩,
          { stores with
            text := ⟨contents, text.grown blockSize cells⟩
            filled := by
              rw [blockSize]
              exact stores.filled
            descriptors := fdStores }, reachable, fun ok => ?_⟩
        · rw [cells]
          exact LeasePool.Moves.refl _ _
        · obtain ⟨fits, available⟩ := fdEnough rfl
          rw [blockSize]
          exact ⟨by omega, fits, enough ok, available⟩

/-- Nothing is asked of the allocator while there is room. -/
theorem ensureCapacity_enough
    {byteCount descriptorCount : Nat}
    (room : Room)
    (stores : Stores queue storage bytes fds chain fdChain)
    (wellFormed : storage.WellFormed)
    (budget : bytes.length + byteCount ≤ queue.byteBudget)
    (fdBudget : fds.length + descriptorCount ≤ queue.descriptors.budget)
    (enough : queue.blocksNeeded storage.blocks.blockSize byteCount ≤
      storage.blocks.available)
    (fdEnough : descriptorCount ≤ storage.fds.available) :
    queue.ensureCapacity storage byteCount descriptorCount room =
      (.ok (), storage) := by
  have fdCapacity := @FdQueue.ensureCapacity_enough queue.descriptors
    storage.fds fds fdChain descriptorCount room.fds stores.descriptors
    wellFormed.fds fdBudget fdEnough
  rw [ensureCapacity, stores.settled, if_neg (by simp), stores.count,
    if_neg (by omega)]
  simp only [fdCapacity,
    SharedBlocks.ensureAvailable_enough room.blocks wellFormed.blocks enough]

/-! ## Whole messages -/

/-- What queueing a message does. -/
structure Enqueued
    (queue next : Queue)
    (storage after : Storage)
    (bytes new : List UInt8)
    (fds added : List Fd)
    (chain more fdChain fdChainNow : List Nat) : Prop where
  stores : Stores next after (bytes ++ new) (fds ++ added) (chain ++ more)
    fdChainNow
  step : Step storage after chain (chain ++ more) fdChain fdChainNow
  byteBudget : next.byteBudget = queue.byteBudget
  descriptorBudget : next.descriptors.budget = queue.descriptors.budget
  active : next.active = queue.active
  headOffset : next.headOffset = queue.headOffset

/-- A message that there is room for is queued. -/
theorem enqueue_granted
    {before : Storage} {new : List UInt8} {added : List Fd} {room : Room}
    (granted : queue.ensureCapacity before new.length added.length room =
      (.ok (), storage))
    (stores : Stores queue storage bytes fds chain fdChain)
    (wellFormed : storage.WellFormed)
    (some : new ≠ [])
    (budget : bytes.length + new.length ≤ queue.byteBudget)
    (fdBudget : fds.length + added.length ≤ queue.descriptors.budget)
    (enough : queue.blocksNeeded storage.blocks.blockSize new.length ≤
      storage.blocks.available)
    (fdEnough : added.length ≤ storage.fds.available) :
    ∃ next after more fdChainNow,
      queue.enqueue before new added room = (.ok (), next, after) ∧
      Enqueued queue next storage after bytes new fds added chain more fdChain
        fdChainNow ∧
      more.length = queue.blocksNeeded storage.blocks.blockSize new.length ∧
      after.blocks.available + more.length = storage.blocks.available ∧
      after.fds.available + added.length = storage.fds.available := by
  obtain ⟨contents, text⟩ := stores.text
  obtain ⟨next, blocksNow, more, appended, spec⟩ := appendBytes_spec text
    stores.filled wellFormed.blocks le_rfl enough
  obtain ⟨contentsNow, textNow⟩ := spec.text
  obtain ⟨budgetEq, countEq, descriptorsEq, activeEq, settledEq⟩ :=
    spec.rechained
  obtain ⟨descriptors, fdsNow, fdChainNow, appendedFds, fdStores, fdStep,
    fdBudgetEq, fdAvailable⟩ := FdQueue.appendAll_spec stores.descriptors
    wellFormed.fds fdBudget fdEnough
  refine ⟨{ next with
      byteCount := next.byteCount + new.length
      descriptors }, { blocks := blocksNow, fds := fdsNow }, more, fdChainNow,
    ?_, ⟨
    { text := ⟨contentsNow, textNow.same ⟨rfl, rfl, rfl, rfl⟩⟩
      filled := by
        rw [spec.step.blockSize]
        exact spec.filled.same ⟨rfl, rfl, rfl, rfl⟩
      count := by
        rw [List.length_append]
        simp only [countEq, stores.count]
      within := by
        simp only [budgetEq, countEq, stores.count]
        exact budget
      descriptors := fdStores
      flight := fun active isActive => ?_
      settled := settledEq.trans stores.settled },
    ⟨spec.step, fdStep⟩, budgetEq, fdBudgetEq, activeEq, spec.headOffset⟩,
    spec.grown, spec.available, fdAvailable⟩
  · simp only [enqueue, if_neg some, granted, appended, descriptorsEq,
      appendedFds]
  · obtain ⟨positive, bytesWithin, fdsWithin⟩ :=
      stores.flight active (activeEq ▸ isActive)
    rw [List.length_append, List.length_append]
    exact ⟨positive, by omega, by omega⟩

/-- A message is queued with its descriptors, or not at all. -/
theorem enqueue_spec
    {new : List UInt8} {added : List Fd} {room : Room}
    (stores : Stores queue storage bytes fds chain fdChain)
    (wellFormed : storage.WellFormed) :
    let outcome := queue.enqueue storage new added room
    match outcome.1 with
    | .error cause => cause ≠ .unreachable ∧ outcome.2.1 = queue ∧
        Stores queue outcome.2.2 bytes fds chain fdChain ∧
        Step storage outcome.2.2 chain chain fdChain fdChain
    | .ok _ => ∃ more fdChainNow,
        Enqueued queue outcome.2.1 storage outcome.2.2 bytes new fds added chain
          more fdChain fdChainNow := by
  intro outcome
  by_cases none : new = []
  · have same : outcome = (.error .emptyMessage, queue, storage) := by
      simp only [outcome, enqueue, if_pos none]
    rw [same]
    exact ⟨by simp, rfl, stores, Step.refl wellFormed _ _⟩
  obtain ⟨step, storesNow, reachable, enough⟩ :=
    @ensureCapacity_spec queue storage bytes fds chain fdChain new.length
      added.length room stores wellFormed
  cases ensured : queue.ensureCapacity storage new.length added.length room with
  | mk result grown =>
      rw [ensured] at step storesNow reachable enough
      simp only at step storesNow reachable enough
      cases result with
      | error cause =>
          have same : outcome = (.error cause, queue, grown) := by
            simp only [outcome, enqueue, if_neg none, ensured]
          rw [same]
          exact ⟨fun broken => reachable (congrArg _ broken), rfl, storesNow,
            step⟩
      | ok _ =>
          obtain ⟨budget, fdBudget, needed, fdNeeded⟩ := enough rfl
          obtain ⟨next, after, more, fdChainNow, enqueued, spec, _⟩ :=
            enqueue_granted ensured storesNow step.wellFormed none budget
              fdBudget needed fdNeeded
          have same : outcome = (.ok (), next, after) := enqueued
          rw [same]
          exact ⟨more, fdChainNow, { spec with step := step.trans spec.step }⟩

/-! ## Sends -/

/-- A send that starts covers part of the queue's contents. -/
theorem Stores.begin_spec
    {snapshot : Snapshot} {next : Queue}
    (stores : Stores queue storage bytes fds chain fdChain)
    (begun : queue.begin snapshot = .ok next) :
    Stores next storage bytes fds chain fdChain ∧
      queue.active = none ∧
      next.active = some
        { byteCount := snapshot.byteCount
          descriptorCount := snapshot.descriptorCount } ∧
      0 < snapshot.byteCount ∧ snapshot.byteCount ≤ bytes.length ∧
      snapshot.descriptorCount ≤ fds.length := by
  obtain ⟨contents, text⟩ := stores.text
  rw [begin, stores.settled, if_neg (by simp)] at begun
  split_ifs at begun with sending invalid
  · have bounds : 0 < snapshot.byteCount ∧
        snapshot.byteCount ≤ bytes.length ∧
        snapshot.descriptorCount ≤ fds.length := by
      rw [stores.count, stores.descriptors.count] at invalid
      omega
    have none : queue.active = none := by simpa [sendActive] using sending
    cases begun
    exact ⟨
      { text := ⟨contents, text.same ⟨rfl, rfl, rfl, rfl⟩⟩
        filled := stores.filled.same ⟨rfl, rfl, rfl, rfl⟩
        count := stores.count
        within := stores.within
        descriptors := stores.descriptors
        flight := fun active isActive => by
          cases isActive
          exact bounds
        settled := rfl }, none, rfl, bounds⟩

/-- A failed send leaves everything queued. -/
theorem Stores.failed_spec
    {next : Queue}
    (stores : Stores queue storage bytes fds chain fdChain)
    (failed : queue.failed = .ok next) :
    Stores next storage bytes fds chain fdChain ∧
      next = { queue with active := none } := by
  obtain ⟨contents, text⟩ := stores.text
  rw [Queue.failed, stores.settled, if_neg (by simp)] at failed
  split_ifs at failed with sending
  cases failed
  exact ⟨
    { text := ⟨contents, text.same ⟨rfl, rfl, rfl, rfl⟩⟩
      filled := stores.filled.same ⟨rfl, rfl, rfl, rfl⟩
      count := stores.count
      within := stores.within
      descriptors := stores.descriptors
      flight := fun active isActive => nomatch isActive
      settled := rfl }, by rw [stores.settled]⟩

/-- What the completion of a send does. -/
structure Completed
    (queue next : Queue)
    (storage after : Storage)
    (bytes : List UInt8)
    (fds : List Fd)
    (active : Flight)
    (chain chainNow fdChain fdChainNow : List Nat)
    (written : Nat) : Prop where
  stores : Stores next after (bytes.drop written)
    (fds.drop active.descriptorCount) chainNow fdChainNow
  step : Step storage after chain chainNow fdChain fdChainNow
  byteBudget : next.byteBudget = queue.byteBudget
  descriptorBudget : next.descriptors.budget = queue.descriptors.budget
  active : next.active = none

/-- Some bytes of a send that is active were written, at most all of them. -/
theorem complete_active
    {active : Flight} {count : Nat}
    (stores : Stores queue storage bytes fds chain fdChain)
    (wellFormed : storage.WellFormed)
    (sending : queue.active = some active)
    (positive : 0 < count)
    (within : count ≤ active.byteCount) :
    ∃ next after dropped,
      queue.complete storage count =
        (.ok (fds.take active.descriptorCount), next, after) ∧
      Completed queue next storage after bytes fds active chain
        (chain.drop dropped) fdChain (fdChain.drop active.descriptorCount)
        count ∧
      after.blocks.available = storage.blocks.available + dropped := by
  obtain ⟨contents, text⟩ := stores.text
  obtain ⟨_, bytesWithin, fdsWithin⟩ := stores.flight active sending
  have fuelled : chain.length ≤ storage.blocks.pool.nodes.length + 1 :=
    text.holds.length_le.trans (Nat.le_succ _)
  obtain ⟨next, blocksNow, dropped, consumed, spec⟩ := consume_spec text
    stores.filled wellFormed.blocks fuelled (within.trans bytesWithin)
  obtain ⟨budgetEq, countEq, descriptorsEq, activeEq, settledEq⟩ :=
    spec.rechained
  obtain ⟨descriptors, fdsNow, closed, fdStores, fdStep, fdBudgetEq, _⟩ :=
    FdQueue.popAndClose_spec stores.descriptors wellFormed.fds fdsWithin
  obtain ⟨contentsNow, textNow⟩ := spec.text
  refine ⟨{ next with
      byteCount := next.byteCount - count
      descriptors
      active := none }, { blocks := blocksNow, fds := fdsNow }, dropped, ?_,
    { stores :=
        { text := ⟨contentsNow, textNow.same ⟨rfl, rfl, rfl, rfl⟩⟩
          filled := by
            rw [spec.step.blockSize]
            exact spec.filled.same ⟨rfl, rfl, rfl, rfl⟩
          count := by
            rw [List.length_drop]
            simp only [countEq, stores.count]
          within := by
            have budget := stores.within
            simp only [budgetEq, countEq]
            omega
          descriptors := fdStores
          flight := fun active isActive => nomatch isActive
          settled := settledEq.trans stores.settled }
      step := ⟨spec.step, fdStep⟩
      byteBudget := budgetEq
      descriptorBudget := fdBudgetEq
      active := rfl }, spec.available⟩
  rw [complete, stores.settled, if_neg (by simp), sending]
  simp only
  rw [if_neg (by omega)]
  simp only [consumed, descriptorsEq, closed]

/-- A completion drops what was sent, or fails without an effect. -/
theorem complete_spec
    {count : Nat}
    (stores : Stores queue storage bytes fds chain fdChain)
    (wellFormed : storage.WellFormed) :
    let outcome := queue.complete storage count
    match outcome.1 with
    | .error cause => cause ≠ .unreachable ∧ outcome.2 = (queue, storage)
    | .ok closed => ∃ active chainNow fdChainNow,
        queue.active = some active ∧ 0 < count ∧ count ≤ active.byteCount ∧
        closed = fds.take active.descriptorCount ∧
        Completed queue outcome.2.1 storage outcome.2.2 bytes fds active chain
          chainNow fdChain fdChainNow count := by
  intro outcome
  cases sending : queue.active with
  | none =>
      have same : outcome = (.error .noSendActive, queue, storage) := by
        simp only [outcome, complete, stores.settled, sending,
          Bool.false_eq_true, if_false]
      rw [same]
      exact ⟨by simp, rfl⟩
  | some active =>
      by_cases invalid : count = 0 ∨ count > active.byteCount
      · have same : outcome = (.error .invalidCompletion, queue, storage) := by
          simp only [outcome, complete, stores.settled, sending,
            Bool.false_eq_true, if_false, if_pos invalid]
        rw [same]
        exact ⟨by simp, rfl⟩
      · obtain ⟨next, after, dropped, completed, spec, _⟩ :=
          complete_active stores wellFormed sending
            (show 0 < count by omega) (by omega)
        have same : outcome =
            (.ok (fds.take active.descriptorCount), next, after) := completed
        rw [same]
        exact ⟨active, _, _, rfl, by omega, by omega, rfl, spec⟩

/-- All blocks are given back, and all descriptors closed. -/
theorem Stores.deinit_spec
    (stores : Stores queue storage bytes fds chain fdChain)
    (wellFormed : storage.WellFormed) :
    ∃ after,
      queue.deinit storage = (.ok fds, after) ∧
      Step storage after chain [] fdChain [] := by
  obtain ⟨contents, text⟩ := stores.text
  obtain ⟨blocksNow, released, step, _⟩ :=
    releasePrivateChain_spec text.holds wellFormed.blocks text.holds.length_le
  obtain ⟨descriptors, fdsNow, closed, fdStores, fdStep, _⟩ :=
    FdQueue.popAndClose_spec stores.descriptors wellFormed.fds le_rfl
  have all : fdChain.length = fds.length := stores.descriptors.holds.length_eq
  rw [List.take_length] at closed
  rw [List.drop_eq_nil_of_le all.le] at fdStep
  refine ⟨{ blocks := blocksNow, fds := fdsNow }, ?_, step, fdStep⟩
  rw [deinit, stores.settled, if_neg (by simp), released]
  simp only [FdQueue.deinit, stores.descriptors.count, closed]

/-! ## Reservations -/

/-- A reservation of a settled queue. -/
theorem Stores.reserving
    {next : Queue} {blocksNow : SharedBlocks} {byteCount : Nat}
    (stores : Stores queue storage bytes fds chain fdChain)
    (reserved : Reserved queue next reservation storage.blocks blocksNow chain
      newChain bytes byteCount) :
    Reserving next { storage with blocks := blocksNow } reservation bytes []
      fds chain newChain fdChain := by
  have budget := reserved.budget
  have within := stores.within
  refine
    { writes := reserved.writes
      filled := ?_
      count := ?_
      within := ?_
      descriptors := ?_
      flight := ?_
      unsettled := ?_ }
  · change Filled next blocksNow.blockSize chain
    rw [reserved.step.blockSize]
    exact stores.filled.same
      (by rw [reserved.queue_eq]; exact ⟨rfl, rfl, rfl, rfl⟩)
  · rw [reserved.queue_eq]
    exact stores.count
  · rw [reserved.queue_eq, reserved.byteCount_eq]
    simp only
    omega
  · rw [reserved.queue_eq]
    exact stores.descriptors
  · rw [reserved.queue_eq]
    exact stores.flight
  · rw [reserved.queue_eq]

/-- A message is reserved within the budget, or nothing happens. -/
theorem reserve_stores
    {byteCount room : Nat}
    (stores : Stores queue storage bytes fds chain fdChain)
    (wellFormed : storage.WellFormed) :
    let outcome := queue.reserve storage.blocks byteCount room
    let after := { storage with blocks := outcome.2.2 }
    match outcome.1 with
    | .error cause => cause ≠ .unreachable ∧ outcome.2.1 = queue ∧
        Stores queue after bytes fds chain fdChain ∧
        Step storage after chain chain fdChain fdChain
    | .ok reservation => ∃ newChain,
        outcome.2.1 = { queue with reservationActive := true } ∧
        reservation.byteCount = byteCount ∧
        Reserving outcome.2.1 after reservation bytes [] fds chain newChain
          fdChain ∧
        Step storage after chain (chain ++ newChain) fdChain fdChain := by
  intro outcome after
  obtain ⟨contents, text⟩ := stores.text
  have spec := @reserve_spec queue storage.blocks chain contents bytes
    byteCount room text wellFormed.blocks
  simp only at spec
  cases result : outcome.1 with
  | error cause =>
      simp only [outcome] at result
      rw [result] at spec
      obtain ⟨reachable, same, step, cells⟩ := spec
      exact ⟨reachable, same,
        { stores with
          text := ⟨contents, text.grown step.blockSize cells⟩
          filled := by
            change Filled queue outcome.2.2.blockSize chain
            rw [step.blockSize]
            exact stores.filled },
        ⟨step, .refl wellFormed.fds _⟩⟩
  | ok reservation =>
      simp only [outcome] at result
      rw [result] at spec
      obtain ⟨newChain, spec⟩ := spec
      exact ⟨newChain, spec.queue_eq, spec.byteCount_eq, stores.reserving spec,
        ⟨spec.step, .refl wellFormed.fds _⟩⟩

/-- A part of a message within its length is written. -/
theorem Reserving.write_fits
    {new : List UInt8}
    (reserving : Reserving queue storage reservation bytes written fds chain
      newChain fdChain)
    (wellFormed : storage.WellFormed)
    (fits : written.length + new.length ≤ reservation.byteCount) :
    ∃ next blocksNow,
      reservation.write storage.blocks new = (.ok (), next, blocksNow) ∧
      Step storage { storage with blocks := blocksNow } (chain ++ newChain)
        (chain ++ newChain) fdChain fdChain ∧
      next.byteCount = reservation.byteCount ∧
      Reserving queue { storage with blocks := blocksNow } next bytes
        (written ++ new) fds chain newChain fdChain ∧
      blocksNow.available = storage.blocks.available := by
  obtain ⟨contents, newContents, writes⟩ := reserving.writes
  obtain ⟨next, blocksNow, wrote, spec⟩ :=
    writes.write_spec wellFormed.blocks fits
  refine ⟨next, blocksNow, wrote, ⟨spec.step, .refl wellFormed.fds _⟩,
    spec.continues.byteCount,
    { reserving with
      writes := spec.writes
      filled := ?_
      within := ?_ }, spec.available⟩
  · change Filled queue blocksNow.blockSize chain
    rw [spec.step.blockSize]
    exact reserving.filled
  · rw [spec.continues.byteCount]
    exact reserving.within

/-- Writing part of a message, within its length or not. -/
theorem Reserving.write
    (reserving : Reserving queue storage reservation bytes written fds chain
      newChain fdChain)
    (new : List UInt8)
    (wellFormed : storage.WellFormed) :
    let outcome := reservation.write storage.blocks new
    let after := { storage with blocks := outcome.2.2 }
    Step storage after (chain ++ newChain) (chain ++ newChain) fdChain
        fdChain ∧
      outcome.2.1.byteCount = reservation.byteCount ∧
      match outcome.1 with
      | .error cause => cause = .reservationOverflow ∧
          reservation.byteCount < written.length + new.length ∧
          outcome.2 = (reservation, storage.blocks)
      | .ok _ => written.length + new.length ≤ reservation.byteCount ∧
          Reserving queue after outcome.2.1 bytes (written ++ new) fds chain
            newChain fdChain := by
  intro outcome after
  obtain ⟨contents, newContents, writes⟩ := reserving.writes
  rcases Nat.lt_or_ge reservation.byteCount (written.length + new.length) with
    exceeds | fits
  · have same : outcome =
        (.error .reservationOverflow, reservation, storage.blocks) :=
      writes.write_overflow exceeds
    simp only [after]
    rw [same]
    exact ⟨Step.refl wellFormed _ _, rfl, rfl, exceeds, rfl⟩
  · obtain ⟨next, blocksNow, wrote, step, sameCount, reservingNow, _⟩ :=
      reserving.write_fits wellFormed fits
    have same : outcome = (.ok (), next, blocksNow) := wrote
    simp only [after]
    rw [same]
    exact ⟨step, sameCount, fits, reservingNow⟩

/-! While a message is being written, nothing else happens. -/

theorem ensureCapacity_unsettled
    (byteCount fdCount : Nat) (room : Room)
    (unsettled : queue.reservationActive = true) :
    queue.ensureCapacity storage byteCount fdCount room =
      (.error .reservationActive, storage) := by
  rw [ensureCapacity, if_pos unsettled]

theorem enqueue_unsettled
    (new : List UInt8) (added : List Fd) (room : Room)
    (unsettled : queue.reservationActive = true) :
    ∃ cause, queue.enqueue storage new added room =
      (.error cause, queue, storage) := by
  by_cases none : new = []
  · exact ⟨.emptyMessage, by rw [enqueue, if_pos none]⟩
  · refine ⟨.reservationActive, ?_⟩
    simp only [enqueue, if_neg none, ensureCapacity_unsettled _ _ _ unsettled]

/-- One message is reserved at a time. -/
theorem reserve_unsettled
    (blocks : SharedBlocks) (byteCount room : Nat)
    (unsettled : queue.reservationActive = true) :
    queue.reserve blocks byteCount room =
      (.error .reservationActive, queue, blocks) := by
  rw [reserve, if_pos unsettled]

theorem begin_unsettled
    (snapshot : Snapshot)
    (unsettled : queue.reservationActive = true) :
    queue.begin snapshot = .error .reservationActive := by
  rw [begin, if_pos unsettled]

theorem complete_unsettled
    (count : Nat)
    (unsettled : queue.reservationActive = true) :
    queue.complete storage count =
      (.error .reservationActive, queue, storage) := by
  rw [complete, if_pos unsettled]

theorem failed_unsettled
    (unsettled : queue.reservationActive = true) :
    queue.failed = .error .reservationActive := by
  rw [failed, if_pos unsettled]

theorem deinit_unsettled
    (unsettled : queue.reservationActive = true) :
    queue.deinit storage = (.error .unreachable, storage) := by
  rw [deinit, if_pos unsettled]

/-- Room for the descriptors of a message, if it has any. -/
theorem Reserving.descriptorRoom
    (reserving : Reserving queue storage reservation bytes written fds chain
      newChain fdChain)
    (added : List Fd) (room : Nat)
    (wellFormed : storage.WellFormed) :
    ∃ result fdsNow,
      (if added.length ≠ 0 then
        queue.descriptors.ensureCapacity storage.fds added.length room
      else (.ok (), storage.fds)) = (result, fdsNow) ∧
      FdQueue.Step storage.fds fdsNow fdChain fdChain ∧
      queue.descriptors.Stores fdsNow fds fdChain ∧
      fdsNow.pool.cell = storage.fds.pool.cell ∧
      result ≠ .error .unreachable ∧
      (result = .ok () →
        fds.length + added.length ≤ queue.descriptors.budget ∧
        added.length ≤ fdsNow.available) := by
  have within := reserving.descriptors.within
  rw [reserving.descriptors.count] at within
  split_ifs with some
  · obtain ⟨step, stores, _, reachable, enough⟩ :=
      @FdQueue.ensureCapacity_spec queue.descriptors storage.fds fds fdChain
        added.length room reserving.descriptors wellFormed.fds
    exact ⟨_, _, rfl, step, stores,
      FdQueue.ensureCapacity_cells _ _ _ wellFormed.fds, reachable, enough⟩
  · exact ⟨_, _, rfl, .refl wellFormed.fds _, reserving.descriptors, rfl,
      by simp, fun _ => ⟨by omega, by omega⟩⟩

/-- What publishing a message does. -/
structure Committed
    (reservation reservationNow : Reservation)
    (queue next : Queue)
    (storage after : Storage)
    (bytes written : List UInt8)
    (fds added : List Fd)
    (chain newChain fdChain fdChainNow : List Nat) : Prop where
  finished : reservationNow.finished = true
  newHead : reservationNow.newHead = none
  stores : Stores next after (bytes ++ written) (fds ++ added)
    (chain ++ newChain) fdChainNow
  step : Step storage after (chain ++ newChain) (chain ++ newChain) fdChain
    fdChainNow
  byteBudget : next.byteBudget = queue.byteBudget
  descriptorBudget : next.descriptors.budget = queue.descriptors.budget
  active : next.active = queue.active
  headOffset : next.headOffset = queue.headOffset

/-- A finished message is queued if there is room for its descriptors. -/
theorem Reserving.commit_granted
    {added : List Fd} {room : Nat} {fdsNow : SharedFds}
    (reserving : Reserving queue storage reservation bytes written fds chain
      newChain fdChain)
    (wellFormed : storage.WellFormed)
    (complete : written.length = reservation.byteCount)
    (ensured : (if added.length ≠ 0 then
        queue.descriptors.ensureCapacity storage.fds added.length room
      else (.ok (), storage.fds)) = (.ok (), fdsNow)) :
    ∃ reservationNow next after fdChainNow,
      reservation.commit queue storage added room =
        (.ok (), reservationNow, next, after) ∧
      Committed reservation reservationNow queue next storage after bytes
        written fds added chain newChain fdChain fdChainNow ∧
      after.blocks.available = storage.blocks.available ∧
      after.fds.available + added.length = fdsNow.available := by
  obtain ⟨contents, newContents, writes⟩ := reserving.writes
  have ready : ¬ (reservation.finished = true ∨
      reservation.written ≠ reservation.byteCount) := by
    simp [writes.unfinished, writes.count, complete]
  obtain ⟨_, _, same, fdStep, fdStores, _, _, enough⟩ :=
    reserving.descriptorRoom added room wellFormed
  rw [ensured] at same
  cases same
  obtain ⟨fits, available⟩ := enough rfl
  obtain ⟨head, tail, blocksNow, published, text, step, blocksAvailable⟩ :=
    writes.publish_spec wellFormed.blocks complete
  obtain ⟨descriptors, fdsLast, fdChainNow, appended, fdStoresLast,
    fdStepLast, fdBudget, fdsAvailable⟩ :=
    FdQueue.appendAll_spec fdStores fdStep.wellFormed fits available
  have final := writes.finalTailUsed
  have ordered := writes.text.ordered
  refine ⟨{ reservation with finished := true, newHead := none },
    { queue with
      head
      tail
      tailUsed := reservation.finalTailUsed
      byteCount := queue.byteCount + reservation.byteCount
      descriptors
      reservationActive := false },
    { blocks := blocksNow, fds := fdsLast }, fdChainNow, ?_,
    { finished := rfl
      newHead := rfl
      stores :=
        { text := ⟨_, text.same ⟨rfl, rfl, rfl, rfl⟩⟩
          filled := ?_
          count := ?_
          within := reserving.within
          descriptors := fdStoresLast
          flight := fun active isActive => ?_
          settled := rfl }
      step := ⟨step, fdStep.trans fdStepLast⟩
      byteBudget := rfl
      descriptorBudget := fdBudget
      active := rfl
      headOffset := rfl }, blocksAvailable, fdsAvailable⟩
  · simp only [Reservation.commit, if_neg ready, ensured, published, appended]
  · have positive := writes.nonempty
    refine ⟨fun _ => final.1, fun _ => ?_⟩
    change queue.headOffset < ((chain ++ newChain).length - 1) *
      blocksNow.blockSize + reservation.finalTailUsed
    rw [step.blockSize, List.length_append]
    omega
  · rw [List.length_append]
    simp only [reserving.count, complete]
  · obtain ⟨positive, bytesWithin, fdsWithin⟩ :=
      reserving.flight active isActive
    rw [List.length_append, List.length_append]
    exact ⟨positive, by omega, by omega⟩

/-- A finished message stays reserved if there is no room for its
descriptors. -/
theorem Reserving.commit_refused
    {added : List Fd} {room : Nat} {cause : Error} {fdsNow : SharedFds}
    (reserving : Reserving queue storage reservation bytes written fds chain
      newChain fdChain)
    (complete : written.length = reservation.byteCount)
    (ensured : (if added.length ≠ 0 then
        queue.descriptors.ensureCapacity storage.fds added.length room
      else (.ok (), storage.fds)) = (.error cause, fdsNow)) :
    reservation.commit queue storage added room =
      (.error cause, reservation, queue, { storage with fds := fdsNow }) := by
  obtain ⟨contents, newContents, writes⟩ := reserving.writes
  have ready : ¬ (reservation.finished = true ∨
      reservation.written ≠ reservation.byteCount) := by
    simp [writes.unfinished, writes.count, complete]
  simp only [Reservation.commit, if_neg ready, ensured]

/-- A finished message is queued with its descriptors, or stays reserved. -/
theorem Reserving.commit
    (reserving : Reserving queue storage reservation bytes written fds chain
      newChain fdChain)
    (added : List Fd) (room : Nat)
    (wellFormed : storage.WellFormed) :
    let outcome := reservation.commit queue storage added room
    match outcome.1 with
    | .error cause => cause ≠ .unreachable ∧
        outcome.2.1 = reservation ∧ outcome.2.2.1 = queue ∧
        Reserving queue outcome.2.2.2 reservation bytes written fds chain
          newChain fdChain ∧
        Step storage outcome.2.2.2 (chain ++ newChain) (chain ++ newChain)
          fdChain fdChain
    | .ok _ => ∃ fdChainNow,
        written.length = reservation.byteCount ∧
        outcome.2.1.finished = true ∧
        outcome.2.1.newHead = none ∧
        Stores outcome.2.2.1 outcome.2.2.2 (bytes ++ written) (fds ++ added)
          (chain ++ newChain) fdChainNow ∧
        Step storage outcome.2.2.2 (chain ++ newChain) (chain ++ newChain)
          fdChain fdChainNow ∧
        outcome.2.2.1.byteBudget = queue.byteBudget ∧
        outcome.2.2.1.descriptors.budget = queue.descriptors.budget ∧
        outcome.2.2.1.active = queue.active ∧
        outcome.2.2.1.headOffset = queue.headOffset := by
  intro outcome
  obtain ⟨contents, newContents, writes⟩ := reserving.writes
  by_cases incomplete : reservation.written ≠ reservation.byteCount
  · have same : outcome =
        (.error .invalidCompletion, reservation, queue, storage) := by
      simp only [outcome, Reservation.commit, if_pos (Or.inr incomplete)]
    rw [same]
    exact ⟨by simp, rfl, rfl, reserving, Step.refl wellFormed _ _⟩
  have complete : written.length = reservation.byteCount := by
    rw [← writes.count]
    exact not_not.mp incomplete
  obtain ⟨result, fdsNow, ensured, fdStep, fdStores, _, reachable, _⟩ :=
    reserving.descriptorRoom added room wellFormed
  cases result with
  | error cause =>
      have same : outcome = (.error cause, reservation, queue,
          { storage with fds := fdsNow }) :=
        reserving.commit_refused complete ensured
      rw [same]
      exact ⟨fun broken => reachable (congrArg _ broken), rfl, rfl,
        { reserving with descriptors := fdStores },
        ⟨.refl wellFormed.blocks _, fdStep⟩⟩
  | ok _ =>
      obtain ⟨reservationNow, next, after, fdChainNow, committed, spec, _⟩ :=
        reserving.commit_granted wellFormed complete ensured
      have same : outcome = (.ok (), reservationNow, next, after) := committed
      rw [same]
      exact ⟨fdChainNow, complete, spec.finished, spec.newHead, spec.stores,
        spec.step, spec.byteBudget, spec.descriptorBudget, spec.active,
        spec.headOffset⟩

/-- An abandoned message leaves the queue as it was. -/
theorem Reserving.abort
    (reserving : Reserving queue storage reservation bytes written fds chain
      newChain fdChain)
    (wellFormed : storage.WellFormed) :
    ∃ blocksNow,
      reservation.abort queue storage.blocks =
        (.ok (), { reservation with finished := true, newHead := none },
          { queue with reservationActive := false }, blocksNow) ∧
      Stores { queue with reservationActive := false }
        { storage with blocks := blocksNow } bytes fds chain fdChain ∧
      Step storage { storage with blocks := blocksNow } (chain ++ newChain)
        chain fdChain fdChain := by
  obtain ⟨contents, newContents, writes⟩ := reserving.writes
  obtain ⟨blocksNow, aborted, text, step, _⟩ :=
    writes.abort_spec wellFormed.blocks
  have budget := reserving.within
  refine ⟨blocksNow, aborted,
    { text := ⟨contents, text⟩
      filled := ?_
      count := reserving.count
      within := by
        simp only
        omega
      descriptors := reserving.descriptors
      flight := reserving.flight
      settled := rfl }, ⟨step, .refl wellFormed.fds _⟩⟩
  change Filled _ blocksNow.blockSize chain
  rw [step.blockSize]
  exact reserving.filled.same ⟨rfl, rfl, rfl, rfl⟩

/-! ## Failures

A call that fails changes no entry in use. -/

/-- The entries in use are the same. -/
def Unchanged (storage after : Storage) : Prop :=
  after.blocks.pool.cell = storage.blocks.pool.cell ∧
    after.fds.pool.cell = storage.fds.pool.cell

/-- Growth changes no queue. -/
theorem ensureCapacity_unchanged
    (queue : Queue)
    (byteCount descriptorCount : Nat) (room : Room)
    (wellFormed : storage.WellFormed) :
    Unchanged storage
      (queue.ensureCapacity storage byteCount descriptorCount room).2 := by
  have fdCells := FdQueue.ensureCapacity_cells queue.descriptors
    descriptorCount room.fds wellFormed.fds
  have cells := (@SharedBlocks.ensureAvailable_spec storage.blocks
    (queue.blocksNeeded storage.blocks.blockSize byteCount) room.blocks
    wellFormed.blocks).2.2.1
  rw [ensureCapacity]
  split_ifs
  · exact ⟨rfl, rfl⟩
  · exact ⟨rfl, rfl⟩
  · generalize queue.descriptors.ensureCapacity storage.fds descriptorCount
      room.fds = ensured at fdCells
    obtain ⟨result, fdsNow⟩ := ensured
    cases result with
    | error cause => exact ⟨rfl, fdCells⟩
    | ok _ => exact ⟨cells, fdCells⟩

/-- A refused message changes no queue. -/
theorem enqueue_failed
    {new : List UInt8} {added : List Fd} {room : Room} {cause : Error}
    (stores : Stores queue storage bytes fds chain fdChain)
    (wellFormed : storage.WellFormed)
    (failed : (queue.enqueue storage new added room).1 = .error cause) :
    Unchanged storage (queue.enqueue storage new added room).2.2 := by
  by_cases none : new = []
  · rw [enqueue, if_pos none]
    exact ⟨rfl, rfl⟩
  have kept := ensureCapacity_unchanged queue new.length added.length room
    wellFormed
  obtain ⟨step, storesNow, _, enough⟩ :=
    @ensureCapacity_spec queue storage bytes fds chain fdChain new.length
      added.length room stores wellFormed
  cases ensured : queue.ensureCapacity storage new.length added.length room with
  | mk result grown =>
      rw [ensured] at kept step storesNow enough
      cases result with
      | error cause =>
          rw [enqueue, if_neg none, ensured]
          exact kept
      | ok _ =>
          obtain ⟨budget, fdBudget, needed, fdNeeded⟩ := enough rfl
          obtain ⟨next, after, more, fdChainNow, enqueued, _⟩ :=
            enqueue_granted ensured storesNow step.wellFormed none budget
              fdBudget needed fdNeeded
          rw [enqueued] at failed
          cases failed

/-- A refused reservation changes no queue. -/
theorem reserve_failed
    {byteCount room : Nat} {cause : Error}
    (stores : Stores queue storage bytes fds chain fdChain)
    (wellFormed : storage.WellFormed)
    (failed : (queue.reserve storage.blocks byteCount room).1 =
      .error cause) :
    (queue.reserve storage.blocks byteCount room).2.2.pool.cell =
      storage.blocks.pool.cell := by
  obtain ⟨contents, text⟩ := stores.text
  have spec := @reserve_spec queue storage.blocks chain contents bytes
    byteCount room text wellFormed.blocks
  simp only [failed] at spec
  exact spec.2.2.2

/-- A refused commit leaves the reservation. -/
theorem Reserving.commit_failed
    {added : List Fd} {room : Nat} {cause : Error}
    (reserving : Reserving queue storage reservation bytes written fds chain
      newChain fdChain)
    (wellFormed : storage.WellFormed)
    (failed : (reservation.commit queue storage added room).1 =
      .error cause) :
    Unchanged storage (reservation.commit queue storage added room).2.2.2 := by
  obtain ⟨contents, newContents, writes⟩ := reserving.writes
  by_cases early : reservation.finished = true ∨
      reservation.written ≠ reservation.byteCount
  · rw [Reservation.commit, if_pos early]
    exact ⟨rfl, rfl⟩
  obtain ⟨result, fdsNow, ensured, _, _, cells, _⟩ :=
    reserving.descriptorRoom added room wellFormed
  cases result with
  | error cause =>
      rw [Reservation.commit, if_neg early, ensured]
      exact ⟨rfl, cells⟩
  | ok _ =>
      have complete : written.length = reservation.byteCount := by
        rw [← writes.count]
        exact not_not.mp (not_or.mp early).2
      obtain ⟨_, _, _, _, committed, _⟩ :=
        reserving.commit_granted wellFormed complete ensured
      rw [committed] at failed
      cases failed

end Queue
end Tx
end Wayring
