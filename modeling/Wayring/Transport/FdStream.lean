import Wayring.Foundation.LeaseChain
import Wayring.Transport.Ancillary

/-!
# Descriptor streams

A descriptor queue holds a list of descriptors on a chain of pool entries.
Operations change its own chain only.
-/

namespace Wayring

open LeasePool (Moves)

/-- The entries of the pool are well formed. -/
def SharedFds.WellFormed (fds : SharedFds) : Prop :=
  fds.pool.WellFormed freeSentinel fun _ => True

/-- A new pool is one that grew. -/
theorem SharedFds.init_grown
    {capacity room : Nat} {fds : SharedFds}
    (ready : SharedFds.init capacity room = .ok fds) :
    LeasePool.Grown freeSentinel (fun _ => True) {} fds.pool := by
  unfold SharedFds.init SharedFds.ensureAvailable at ready
  have grown := (@LeasePool.ensureAvailable_spec Fd {} freeSentinel
    (fun _ => True) SharedFds.noFd capacity room LeasePool.wellFormed_empty trivial).1
  generalize LeasePool.ensureAvailable _ freeSentinel SharedFds.noFd capacity
    room = outcome at grown ready
  obtain ⟨result, pool⟩ := outcome
  split_ifs at ready
  cases result with
  | error failure => simp [Except.mapError] at ready
  | ok _ =>
      cases ready
      exact grown

/-- A new pool is well formed. -/
theorem SharedFds.init_spec
    {capacity room : Nat} {fds : SharedFds}
    (ready : SharedFds.init capacity room = .ok fds) : fds.WellFormed :=
  (init_grown ready).wellFormed

/-- A new pool has free entries alone. -/
theorem SharedFds.init_unused
    {capacity room : Nat} {fds : SharedFds}
    (ready : SharedFds.init capacity room = .ok fds)
    (index : Nat) : fds.pool.cell index = none := by
  rw [(init_grown ready).cell]
  rfl

namespace FdQueue

/-- A queue holds some descriptors on a chain of entries. -/
structure Stores
    (queue : FdQueue)
    (fds : SharedFds)
    (items : List Fd)
    (chain : List Nat) : Prop where
  holds : LeasePool.Holds id fds.pool.cell queue.head queue.tail chain items
  count : queue.count = items.length
  within : queue.count ≤ queue.budget

/-- What an operation of one queue does to the pool. -/
structure Step
    (before after : SharedFds)
    (owned ownedNow : List Nat) : Prop where
  wellFormed : after.WellFormed
  moves : Moves before.pool.cell after.pool.cell owned ownedNow

variable {queue : FdQueue} {fds middle : SharedFds} {items : List Fd}
  {chain : List Nat}

/-- A new queue has no descriptors. -/
theorem Stores.init
    (fds : SharedFds) (budget : Nat) : (FdQueue.init budget).Stores fds [] [] where
  holds := LeasePool.Holds.empty
  count := rfl
  within := Nat.zero_le _

theorem Step.refl
    (wellFormed : fds.WellFormed)
    (owned : List Nat) : Step fds fds owned owned :=
  ⟨wellFormed, Moves.refl _ _⟩

theorem Step.trans
    {last : SharedFds} {owned ownedNow ownedLast : List Nat}
    (early : Step fds middle owned ownedNow)
    (late : Step middle last ownedNow ownedLast) : Step fds last owned ownedLast :=
  ⟨late.wellFormed, early.moves.trans late.moves⟩

/-- Someone else's step leaves a queue alone. -/
theorem Stores.frame
    {owned ownedNow : List Nat}
    (stores : Stores queue fds items chain)
    (step : Step fds middle owned ownedNow)
    (apart : ∀ index ∈ chain, index ∉ owned) :
    Stores queue middle items chain :=
  ⟨stores.holds.frame step.moves apart, stores.count, stores.within⟩

/-- The budget leaves room for what is not queued. -/
theorem Stores.budget_sub
    (stores : Stores queue fds items chain) :
    queue.available = queue.budget - items.length := by
  rw [FdQueue.available, stores.count]

/-! ## Capacity -/

/-- Growth adds free entries alone. -/
theorem ensureCapacity_spec
    {count room : Nat}
    (stores : Stores queue fds items chain)
    (wellFormed : fds.WellFormed) :
    let outcome := queue.ensureCapacity fds count room
    Step fds outcome.2 chain chain ∧ Stores queue outcome.2 items chain ∧
      fds.available ≤ outcome.2.available ∧
      (outcome.1 ≠ .error .unreachable) ∧
      (outcome.1 = .ok () →
        items.length + count ≤ queue.budget ∧
          count ≤ outcome.2.available) := by
  have bound := stores.within
  rw [stores.count] at bound
  unfold FdQueue.ensureCapacity
  rw [stores.budget_sub]
  split_ifs with exceeded
  · exact ⟨Step.refl wellFormed _, stores, le_rfl, by simp, by simp⟩
  · obtain ⟨grown, result⟩ := @LeasePool.ensureAvailable_spec Fd fds.pool
      freeSentinel _ SharedFds.noFd count room wellFormed trivial
    unfold SharedFds.ensureAvailable
    generalize fds.pool.ensureAvailable freeSentinel SharedFds.noFd count room =
      outcome at grown result ⊢
    obtain ⟨answer, pool⟩ := outcome
    have same : pool.cell = fds.pool.cell := grown.cell
    refine ⟨⟨grown.wellFormed, ?_⟩, ⟨?_, stores.count, stores.within⟩,
      grown.available, ?_, fun ok => ?_⟩
    · simp only [same]
      exact Moves.refl _ _
    · simp only [same]
      exact stores.holds
    · cases answer with
      | error failure =>
          rcases result with rfl | rfl
          · simp [Except.mapError, poolError]
          · simp [Except.mapError, poolError]
      | ok _ => simp [Except.mapError]
    · cases answer with
      | error failure => simp [Except.mapError] at ok
      | ok _ => exact ⟨by omega, result⟩

/-- Room for descriptors changes no entry in use. -/
theorem ensureCapacity_cells
    (queue : FdQueue)
    (count room : Nat)
    (wellFormed : fds.WellFormed) :
    (queue.ensureCapacity fds count room).2.pool.cell = fds.pool.cell := by
  unfold FdQueue.ensureCapacity
  split_ifs
  · rfl
  · exact (@LeasePool.ensureAvailable_spec Fd fds.pool freeSentinel _
      SharedFds.noFd count room wellFormed trivial).1.cell

/-- Nothing is asked of the allocator while there is room. -/
theorem ensureCapacity_enough
    {count room : Nat}
    (stores : Stores queue fds items chain)
    (wellFormed : fds.WellFormed)
    (fits : items.length + count ≤ queue.budget)
    (enough : count ≤ fds.available) :
    queue.ensureCapacity fds count room = (.ok (), fds) := by
  have same := @LeasePool.ensureAvailable_enough Fd fds.pool freeSentinel _
    SharedFds.noFd count room wellFormed enough
  rw [FdQueue.ensureCapacity, stores.budget_sub, if_neg (by omega),
    SharedFds.ensureAvailable, same]
  rfl

/-! ## Appending -/

/-- A descriptor is queued last. -/
theorem append_spec
    {fd : Fd} {room : Nat}
    (stores : Stores queue fds items chain)
    (wellFormed : fds.WellFormed)
    (fits : items.length + 1 ≤ queue.budget)
    (enough : 0 < fds.available) :
    ∃ next after index,
      queue.append fds fd room = (.ok (), next, after) ∧
      Stores next after (items ++ [fd]) (chain ++ [index]) ∧
      Step fds after chain (chain ++ [index]) ∧
      next.budget = queue.budget ∧
      after.available + 1 = fds.available := by
  have capacity := @ensureCapacity_enough queue fds items chain 1 room stores
    wellFormed fits enough
  obtain ⟨lease, acquired, acquire, spec, available⟩ :=
    @LeasePool.acquire_free Fd Fd fds.pool freeSentinel (2 ^ 32) _
      SharedFds.noFd id (fun _ => fd) room wellFormed (fun _ _ => trivial)
      enough
  obtain ⟨_, _, key, cells⟩ := spec.cell
  simp only [id] at key
  have outside : lease.index ∉ chain := by
    intro member
    obtain ⟨cell, found, _⟩ := stores.holds.used member
    rw [spec.fresh] at found
    cases found
  have here : acquired.cell lease.index =
      some { content := fd, next := none, generation := lease.generation } := by
    rw [cells, Function.update_self]
  have single : LeasePool.Holds id acquired.cell (some lease) (some lease)
      [lease.index] [fd] := LeasePool.Holds.single here key
  have taken : Step fds { pool := acquired } chain (chain ++ [lease.index]) := by
    refine ⟨spec.wellFormed, ?_⟩
    simp only [cells]
    exact Moves.acquire _ spec.fresh (by simp)
  have kept : LeasePool.Holds id acquired.cell queue.head queue.tail chain items :=
    stores.holds.congr fun index member => by
      rw [cells, Function.update_of_ne (ne_of_mem_of_not_mem member outside)]
  have acquireEq : fds.acquire fd room = (.ok lease, { pool := acquired }) := by
    rw [SharedFds.acquire, acquire]
    rfl
  cases last : queue.tail with
  | none =>
      have empty : chain = [] := stores.holds.tail_eq_none.mp last
      subst empty
      have noItems : items = [] :=
        List.length_eq_zero_iff.mp stores.holds.length_eq.symm
      subst noItems
      refine ⟨{ queue with
          head := some lease
          tail := some lease
          count := queue.count + 1 }, { pool := acquired }, lease.index,
        by simp only [FdQueue.append, capacity, acquireEq, last],
        ⟨single, by simp [stores.count], ?_⟩, taken, rfl, available⟩
      rw [stores.count]
      exact fits
  | some tail =>
      rw [last] at kept
      obtain ⟨cell, found, unlinked⟩ := kept.last rfl
      obtain ⟨linked, link, wellFormedNow, linkedCells, same⟩ :=
        LeasePool.link_spec spec.wellFormed (kept.tailLeased tail rfl)
          (single.headLeased lease rfl) found unlinked
      have linkEq : ({ pool := acquired } : SharedFds).link tail lease =
          (.ok (), { pool := linked }) := by
        rw [SharedFds.link, link]
        rfl
      refine ⟨{ queue with tail := some lease, count := queue.count + 1 },
        { pool := linked }, lease.index,
        by simp only [FdQueue.append, capacity, acquireEq, last, linkEq],
        ⟨?_, by simp [stores.count], ?_⟩, taken.trans ⟨wellFormedNow, ?_⟩, rfl,
        ?_⟩
      · simp only [linkedCells]
        exact kept.concat single (by simpa using outside) found
      · rw [stores.count]
        exact fits
      · simp only [linkedCells]
        refine Moves.write _ ?_
        obtain ⟨front, rfl⟩ := kept.tail_concat rfl
        simp
      · rw [SharedFds.available, same]
        exact available

/-- Descriptors that fit are all appended, in order. -/
theorem appendAll_spec
    {added : List Fd}
    (stores : Stores queue fds items chain)
    (wellFormed : fds.WellFormed)
    (fits : items.length + added.length ≤ queue.budget)
    (enough : added.length ≤ fds.available) :
    ∃ next after chainNow,
      FdQueue.appendAll added queue fds = (.ok (), next, after) ∧
      Stores next after (items ++ added) chainNow ∧
      Step fds after chain chainNow ∧
      next.budget = queue.budget ∧
      after.available + added.length = fds.available := by
  induction added generalizing queue fds items chain with
  | nil =>
      exact ⟨queue, fds, chain, rfl, by simpa using stores,
        Step.refl wellFormed _, rfl, rfl⟩
  | cons fd added append_ih =>
      rw [List.length_cons] at fits enough
      obtain ⟨next, after, index, appended, storesNow, step, budget,
        available⟩ :=
        @append_spec queue fds items chain fd 0 stores wellFormed (by omega)
          (by omega)
      obtain ⟨last, final, chainNow, rest, storesLast, more, budgetLast,
        availableLast⟩ :=
        append_ih storesNow step.wellFormed
          (by rw [List.length_append, List.length_singleton, budget]; omega)
          (by omega)
      refine ⟨last, final, chainNow, ?_, by simpa using storesLast,
        step.trans more, budgetLast.trans budget, ?_⟩
      · simp only [FdQueue.appendAll, appended, rest]
      · rw [List.length_cons]
        omega

/-! ## Removing -/

/-- An empty queue has nothing to pop. -/
theorem pop_empty
    (stores : Stores queue fds [] chain) :
    queue.pop fds = (.error .empty, queue, fds) := by
  have none : queue.count = 0 := stores.count
  rw [FdQueue.pop, if_pos none]

/-- The oldest descriptor leaves the queue. -/
theorem pop_spec
    {fd : Fd}
    (stores : Stores queue fds (fd :: items) chain)
    (wellFormed : fds.WellFormed) :
    ∃ next after,
      queue.pop fds = (.ok fd, next, after) ∧
      Stores next after items chain.tail ∧
      Step fds after chain chain.tail ∧
      next.budget = queue.budget ∧
      after.available = fds.available + 1 := by
  obtain ⟨holds, count, within⟩ := stores
  cases chain with
  | nil => simpa using holds.length_eq
  | cons index rest =>
      cases first : queue.head with
      | none =>
          have empty := holds.head_eq_none.mp first
          cases empty
      | some lease =>
          rw [first] at holds
          obtain ⟨rfl, cell, next, found, nextEq, nextIndex, _, nextLeased⟩ :=
            holds.nextLease
          have key : lease.key = fd := by
            obtain ⟨other, there, _, key⟩ := holds.headLeased lease rfl
            have all := holds.content_eq
            simp only [List.map_cons, there, Option.map_some, List.cons.injEq,
              Option.some.injEq] at all
            exact key.symm.trans all.1
          obtain ⟨released, release, wellFormedNow, cells, available⟩ :=
            LeasePool.release_spec wellFormed (holds.headLeased lease rfl)
          have takeEq : fds.take lease = (.ok fd, { pool := released }) := by
            rw [SharedFds.take, release]
            simp only [key, Except.map, Except.mapError]
          have nextEq : fds.nextLease lease = .ok next := by
            rw [SharedFds.nextLease, nextEq]
            rfl
          have popped := holds.pop found nextIndex nextLeased
          have some : queue.count ≠ 0 := by simp [count]
          refine ⟨{ queue with
              head := next
              tail := if next = none then none else queue.tail
              count := queue.count - 1 }, { pool := released },
            by simp only [FdQueue.pop, if_neg some, first, nextEq, takeEq],
            ⟨?_, by simp [count], ?_⟩, ⟨wellFormedNow, ?_⟩, rfl, available⟩
          · simp only [cells]
            exact popped
          · exact (Nat.sub_le _ _).trans within
          · simp only [cells]
            have outside := (List.nodup_cons.mp holds.distinct).1
            refine Moves.release (by simp) fun other => ?_
            simp only [List.tail_cons, List.mem_cons]
            constructor
            · intro member
              exact ⟨Or.inr member, ne_of_mem_of_not_mem member outside⟩
            · rintro ⟨rfl | member, apart⟩
              · exact absurd rfl apart
              · exact member

/-- Descriptors leave the queue from the front. -/
theorem popAndClose_spec
    {count : Nat}
    (stores : Stores queue fds items chain)
    (wellFormed : fds.WellFormed)
    (fits : count ≤ items.length) :
    ∃ next after,
      FdQueue.popAndClose count queue fds =
        (.ok (items.take count), next, after) ∧
      Stores next after (items.drop count) (chain.drop count) ∧
      Step fds after chain (chain.drop count) ∧
      next.budget = queue.budget ∧
      after.available = fds.available + count := by
  induction count generalizing queue fds items chain with
  | zero => exact ⟨queue, fds, rfl, stores, Step.refl wellFormed _, rfl, rfl⟩
  | succ count pop_ih =>
      cases items with
      | nil => simp at fits
      | cons fd items =>
          rw [List.length_cons] at fits
          obtain ⟨next, after, popped, storesNow, step, budget, available⟩ :=
            pop_spec stores wellFormed
          obtain ⟨last, final, rest, storesLast, more, budgetLast,
            availableLast⟩ :=
            pop_ih storesNow step.wellFormed (by omega)
          rw [List.drop_tail] at storesLast more
          refine ⟨last, final, ?_, storesLast, step.trans more,
            budgetLast.trans budget, by omega⟩
          simp only [FdQueue.popAndClose, popped, rest, Except.map,
            List.take_succ_cons]

/-! ## Copying -/

/-- Following the chain collects the descriptors. -/
theorem collect_spec
    {head : Option FdLease} {tail : Option FdLease}
    (holds : LeasePool.Holds id fds.pool.cell head tail chain items) :
    FdQueue.collect fds items.length head = .ok items := by
  induction items generalizing head tail chain with
  | nil =>
      have empty : chain = [] := List.length_eq_zero_iff.mp holds.length_eq
      rw [holds.head_eq_none.mpr empty]
      rfl
  | cons fd items collect_ih =>
      cases chain with
      | nil => simpa using holds.length_eq
      | cons index rest =>
          cases first : head with
          | none => cases holds.head_eq_none.mp first
          | some lease =>
              subst first
              obtain ⟨rfl, cell, next, found, nextEq, nextIndex, _,
                nextLeased⟩ := holds.nextLease
              have key : lease.key = fd := by
                obtain ⟨other, there, _, key⟩ := holds.headLeased lease rfl
                have all := holds.content_eq
                simp only [List.map_cons, there, Option.map_some,
                  List.cons.injEq, Option.some.injEq] at all
                exact key.symm.trans all.1
              have nextEq : fds.nextLease lease = .ok next := by
                rw [SharedFds.nextLease, nextEq]
                rfl
              rw [List.length_cons, FdQueue.collect, nextEq]
              simp only [collect_ih (holds.rest found nextIndex nextLeased),
                key, Except.map]

/-- Copying yields all descriptors. -/
theorem copyTo_spec
    {destinationLength : Nat}
    (stores : Stores queue fds items chain)
    (fits : items.length ≤ destinationLength) :
    queue.copyTo fds destinationLength = .ok items := by
  rw [FdQueue.copyTo, stores.count, if_neg (by omega)]
  exact collect_spec stores.holds

end FdQueue
end Wayring
