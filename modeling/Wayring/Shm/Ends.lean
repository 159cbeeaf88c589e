import Wayring.Shm.Operations

/-!
# Ends

A buffer, a pin, or a pool that is given up is gone: its token resolves to
nothing any more.  The last reference takes its pool along.
-/

namespace Wayring
namespace Shm
namespace Store

variable {store : Store} {token : Arena.Token} {old : Pool}

/-- A pool is released exactly when nothing refers to it. -/
theorem releasePoolIfUnused_resolve
    (wellFormed : store.pools.WellFormed generations)
    (resolved : store.pools.resolve token = some old) :
    (old.Referenced →
      (store.releasePoolIfUnused token.index).pools.resolve token =
        some old) ∧
    (¬ old.Referenced →
      (store.releasePoolIfUnused token.index).pools.resolve token = none) := by
  obtain ⟨slot, found, active, generation, same⟩ :=
    Arena.resolve_eq_some_iff.mp resolved
  by_cases used : old.resourceAlive ∨ old.bufferCount ≠ 0 ∨ old.pinCount ≠ 0
  · have unchanged : store.releasePoolIfUnused token.index = store := by
      simp only [releasePoolIfUnused, found, same, if_pos used]
    rw [unchanged]
    exact ⟨fun _ => resolved, fun unused => absurd used unused⟩
  · have released := Arena.release_spec wellFormed (by decide) resolved
    have next : (store.releasePoolIfUnused token.index).pools =
        store.pools.release generations token.index := by
      simp only [releasePoolIfUnused, found, same, if_neg used, record]
    rw [next, released.resolve, if_pos rfl]
    exact ⟨fun referenced => absurd referenced used, fun _ => rfl⟩

@[simp] theorem releasePoolIfUnused_buffers (store : Store) (index : Nat) :
    (store.releasePoolIfUnused index).buffers = store.buffers := by
  unfold releasePoolIfUnused
  split
  · rfl
  · dsimp only
    split_ifs <;> rfl

@[simp] theorem releasePoolIfUnused_pins (store : Store) (index : Nat) :
    (store.releasePoolIfUnused index).pins = store.pins := by
  unfold releasePoolIfUnused
  split
  · rfl
  · dsimp only
    split_ifs <;> rfl

/-- A change of a pool keeps the arena well formed. -/
theorem modified_wellFormed
    (wellFormed : store.pools.WellFormed generations)
    (resolved : store.pools.resolve token = some old)
    (change : Pool → Pool) (event : PoolEvent) :
    ((store.modifyPool token.index change).record token.index
      event).pools.WellFormed generations :=
  (Arena.modify_spec wellFormed resolved change).wellFormed

/-- A pool that changes and is then left without references is gone. -/
theorem released_of_modified
    (wellFormed : store.pools.WellFormed generations)
    (resolved : store.pools.resolve token = some old)
    (change : Pool → Pool) (event : PoolEvent) :
    let next := ((store.modifyPool token.index change).record token.index
      event).releasePoolIfUnused token.index
    ((change old).Referenced →
      next.pools.resolve token = some (change old)) ∧
    (¬ (change old).Referenced → next.pools.resolve token = none) :=
  releasePoolIfUnused_resolve
    (modified_wellFormed wellFormed resolved change event)
    (modified_resolve wellFormed resolved change event)

/-- A buffer that is destroyed is gone, and so is its pool if nothing else
refers to it. -/
theorem destroyBuffer_ends
    {record : BufferRecord}
    (consistent : Consistent store)
    (found : store.buffers.resolve token = some record) :
    (store.destroyBuffer token).1 = .ok () ∧
      (store.destroyBuffer token).2.buffers.resolve token = none ∧
      ∀ pool, store.pools.resolve record.pool = some pool →
        pool.resourceAlive = false → pool.bufferCount = 1 →
        pool.pinCount = 0 →
        (store.destroyBuffer token).2.pools.resolve record.pool = none := by
  obtain ⟨pool, resolved, -⟩ := consistent.buffer found
  have released := Arena.release_spec consistent.buffers (by decide) found
  unfold destroyBuffer
  simp only [found, resolved]
  refine ⟨trivial, ?_, ?_⟩
  · rw [releasePoolIfUnused_buffers]
    exact (released.resolve token).trans (if_pos rfl)
  · intro _ same dead last unpinned
    cases same
    apply (@released_of_modified
      { store with
        buffers := store.buffers.release generations token.index }
      record.pool pool consistent.pools resolved
      (fun pool => { pool with bufferCount := pool.bufferCount - 1 }) _).2
    simp [Pool.Referenced, dead, last, unpinned]

/-- Growth that waited leaves the references of a pool as they were. -/
theorem applyPendingResize_resolve
    {pool : Pool}
    (wellFormed : store.pools.WellFormed generations)
    (resolved : store.pools.resolve token = some old)
    (answers : Answers) :
    let outcome := store.applyPendingResize token.index pool answers
    outcome.2.pools.WellFormed generations ∧
      outcome.2.pins = store.pins ∧
      ∃ now, outcome.2.pools.resolve token = some now ∧
        (now.Referenced ↔ old.Referenced) := by
  intro outcome
  by_cases settled : pool.pendingSize = 0
  · have same : outcome = (.ok (), store) := if_pos settled
    rw [same]
    exact ⟨wellFormed, rfl, old, resolved, Iff.rfl⟩
  · cases mapped : answers.mapping with
    | error code =>
        have same : outcome = (.error (.system code), store) := by
          simp only [outcome, applyPendingResize, if_neg settled, mapped]
        rw [same]
        exact ⟨wellFormed, rfl, old, resolved, Iff.rfl⟩
    | ok address =>
        simp only [outcome, applyPendingResize, if_neg settled, mapped]
        exact ⟨modified_wellFormed wellFormed resolved _ _, rfl, _,
          modified_resolve wellFormed resolved _ _, Iff.rfl⟩

/-- A pin without accesses is gone once it is dropped, whether or not the
growth that waited for it succeeds, and its pool is too if nothing else refers
to it. -/
theorem unpin_ends
    {record : PinRecord}
    (consistent : Consistent store)
    (found : store.pins.resolve token = some record)
    (unaccessed : record.accessCount = 0)
    (answers : Answers) :
    (store.unpin token answers).2.pins.resolve token = none ∧
      ∀ pool, store.pools.resolve record.pool = some pool →
        pool.resourceAlive = false → pool.bufferCount = 0 →
        pool.pinCount = 1 →
        (store.unpin token answers).2.pools.resolve record.pool = none := by
  obtain ⟨pool, resolved, -⟩ := consistent.pin found
  have released := Arena.release_spec consistent.pins (by decide) found
  have gone : (store.pins.release generations token.index).resolve token =
      none := (released.resolve token).trans (if_pos rfl)
  let drop : Pool → Pool := fun pool =>
    { pool with pinCount := pool.pinCount - 1 }
  let dropped : Store := ({ store with
    pins := store.pins.release generations token.index }.modifyPool
      record.pool.index drop).record record.pool.index (.unpin token.index)
  have now : dropped.pools.resolve record.pool = some (drop pool) :=
    @modified_resolve
      { store with pins := store.pins.release generations token.index }
      record.pool pool consistent.pools resolved drop (.unpin token.index)
  have wellFormed : dropped.pools.WellFormed generations :=
    (Arena.modify_spec consistent.pools resolved drop).wellFormed
  obtain ⟨resizedFormed, resizedPins, last, resized, references⟩ :=
    @applyPendingResize_resolve dropped record.pool (drop pool) (drop pool)
      wellFormed now answers
  have unreferenced : pool.resourceAlive = false → pool.bufferCount = 0 →
      pool.pinCount = 1 → ¬ (drop pool).Referenced := by
    intro dead unused single
    simp [drop, Pool.Referenced, dead, unused, single]
  unfold unpin
  simp only [found, resolved, if_neg (not_not.mpr unaccessed)]
  split_ifs with waiting
  · refine ⟨?_, ?_⟩
    · rw [releasePoolIfUnused_pins]
      change (dropped.applyPendingResize _ _ _).2.pins.resolve token = none
      rw [resizedPins]
      exact gone
    · intro _ same dead unused single
      cases same
      exact (releasePoolIfUnused_resolve resizedFormed resized).2
        (references.not.mpr (unreferenced dead unused single))
  · refine ⟨?_, ?_⟩
    · rw [releasePoolIfUnused_pins]
      exact gone
    · intro _ same dead unused single
      cases same
      exact (releasePoolIfUnused_resolve wellFormed now).2
        (unreferenced dead unused single)

/-- Every call on a pool's token fails and changes nothing, whether the pool
is gone or only its resource is. -/
def RefusesPool (store : Store) (token : Arena.Token) : Prop :=
  (∃ cause, store.destroyPoolResource token = (.error cause, store)) ∧
  (∀ requestedSize answers, ∃ cause,
    store.resize token requestedSize answers = (.error cause, store)) ∧
  ∀ format offset width height stride answers, ∃ cause,
    store.addBuffer token format offset width height stride answers =
      (.error cause, store)

/-- A pool whose resource is gone is refused. -/
theorem refusesPool
    (dead : ∀ pool, store.pools.resolve token = some pool →
      pool.resourceAlive = false) : store.RefusesPool token := by
  cases resolved : store.pools.resolve token with
  | none =>
      refine ⟨⟨.stalePool, ?_⟩, fun _ _ => ⟨.stalePool, ?_⟩,
        fun _ _ _ _ _ _ => ⟨.stalePool, ?_⟩⟩
      · rw [destroyPoolResource, resolved]
      · rw [resize, resolved]
      · rw [addBuffer, resolved]
  | some pool =>
      have isDead := dead pool resolved
      refine ⟨⟨.resourceDestroyed, ?_⟩, fun _ _ => ⟨.resourceDestroyed, ?_⟩,
        fun _ _ _ _ _ _ => ⟨.resourceDestroyed, ?_⟩⟩
      · simp [destroyPoolResource, resolved, isDead]
      · simp [resize, resolved, isDead]
      · simp [addBuffer, resolved, isDead]

/-- A pool whose resource is destroyed takes no call any more, and is gone if
nothing else refers to it. -/
theorem destroyPoolResource_ends
    (consistent : Consistent store)
    (resolved : store.pools.resolve token = some old)
    (alive : old.resourceAlive = true) :
    (store.destroyPoolResource token).1 = .ok () ∧
      (store.destroyPoolResource token).2.RefusesPool token ∧
      (old.bufferCount = 0 → old.pinCount = 0 →
        (store.destroyPoolResource token).2.pools.resolve token = none) := by
  obtain ⟨kept, gone⟩ := released_of_modified consistent.pools resolved
    (fun node => { node with resourceAlive := false }) .destroyResource
  have answers : store.destroyPoolResource token = (.ok (),
      ((store.modifyPool token.index fun node =>
        { node with resourceAlive := false }).record token.index
          .destroyResource).releasePoolIfUnused token.index) := by
    simp [destroyPoolResource, resolved, alive]
  rw [answers]
  refine ⟨rfl, refusesPool fun pool now => ?_, fun unused unpinned => ?_⟩
  · by_cases referenced :
        Pool.Referenced { old with resourceAlive := false }
    · cases (kept referenced).symm.trans now
      rfl
    · cases (gone referenced).symm.trans now
  · apply gone
    simp [Pool.Referenced, unused, unpinned]

end Store
end Shm
end Wayring
