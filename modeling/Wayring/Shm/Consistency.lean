import Wayring.Shm.Lifetime

/-!
# Consistency of the store

The counts of a pool are the numbers of its buffers and pins, its sizes agree,
its pins lie inside its mapping, and the log of its mapping is a lifetime that
has arrived at the present references.
-/

namespace Wayring
namespace Shm

/-- The lifetime a pool in use has arrived at. -/
def lifetimeOf : Option Pool → Lifetime
  | none => .closed
  | some pool =>
      .mapped pool.mapping pool.fd
        { resource := pool.resourceAlive
          buffers := pool.bufferCount
          pins := pool.pinCount }

/-- A pool waits for growth, or its whole declared size is mapped. -/
def Pool.Sized (pool : Pool) : Prop :=
  pool.pendingSize = 0 ∧ pool.declaredSize = pool.mapping.length ∨
    pool.pendingSize = pool.declaredSize ∧
      pool.mapping.length < pool.declaredSize

/-- Something refers to the pool. -/
def Pool.Referenced (pool : Pool) : Prop :=
  pool.resourceAlive = true ∨ pool.bufferCount ≠ 0 ∨ pool.pinCount ≠ 0

namespace Store

/-- The invariant of the store, except that a pool may have lost its last
reference. -/
structure Consistent (store : Store) : Prop where
  pools : store.pools.WellFormed generations
  buffers : store.buffers.WellFormed generations
  pins : store.pins.WellFormed generations
  buffer : ∀ {token record}, store.buffers.resolve token = some record →
    ∃ pool, store.pools.resolve record.pool = some pool ∧
      record.metadata.stop ≤ pool.declaredSize
  pin : ∀ {token record}, store.pins.resolve token = some record →
    ∃ pool, store.pools.resolve record.pool = some pool ∧
      record.metadata.stop ≤ pool.mapping.length
  counts : ∀ {token pool}, store.pools.resolve token = some pool →
    pool.bufferCount = store.buffers.count (fun record =>
      record.pool == token) ∧
    pool.pinCount = store.pins.count fun record => record.pool == token
  sized : ∀ {token pool}, store.pools.resolve token = some pool → pool.Sized
  lifetime : ∀ index, Lifetime.closed.replay (eventsOf store.log index) =
    some (lifetimeOf (store.pools.current index))

/-- Something refers to every pool in use. -/
def Referenced (store : Store) : Prop :=
  ∀ {token pool}, store.pools.resolve token = some pool → pool.Referenced

/-- Some events passed from one store to another. -/
structure Elapsed
    (before after : Store)
    (more : List (Nat × PoolEvent)) : Prop where
  limits : after.limits = before.limits
  log : after.log = before.log ++ more
  pools : Arena.Follows generations before.pools after.pools (closes more)
  buffers : Arena.Follows generations before.buffers after.buffers
    (bufferEnds more)
  pins : Arena.Follows generations before.pins after.pins (pinEnds more)

/-- Pins under access are left alone, and no new pin is under access. -/
def PinsKept (before after : Arena PinRecord) : Prop :=
  ∀ token, after.resolve token = before.resolve token ∨
    (∀ record, before.resolve token = some record → record.accessCount = 0) ∧
      ∀ record, after.resolve token = some record → record.accessCount = 0

/-- One store comes after another, with no access in between. -/
structure Follows
    (before after : Store)
    (more : List (Nat × PoolEvent)) : Prop
    extends Elapsed before after more where
  kept : PinsKept before.pins after.pins

variable {store before after last : Store}

theorem Elapsed.trans
    {first second : List (Nat × PoolEvent)}
    (early : Elapsed before after first)
    (late : Elapsed after last second) :
    Elapsed before last (first ++ second) where
  limits := late.limits.trans early.limits
  log := by rw [late.log, early.log, List.append_assoc]
  pools := by
    rw [closes_append]
    exact early.pools.trans late.pools
  buffers := by
    rw [bufferEnds_append]
    exact early.buffers.trans late.buffers
  pins := by
    rw [pinEnds_append]
    exact early.pins.trans late.pins

theorem PinsKept.refl (pins : Arena PinRecord) : PinsKept pins pins :=
  fun _ => Or.inl rfl

/-- Pins are kept through both. -/
theorem PinsKept.trans
    {first second third : Arena PinRecord}
    (early : PinsKept first second)
    (late : PinsKept second third) : PinsKept first third := by
  intro token
  rcases early token with same | ⟨idle, idleNow⟩
  · rw [← same]
    exact late token
  · rcases late token with same | ⟨_, idleLast⟩
    · rw [same]
      exact Or.inr ⟨idle, idleNow⟩
    · exact Or.inr ⟨idle, idleLast⟩

theorem Follows.refl (store : Store) : Follows store store [] where
  limits := rfl
  log := (List.append_nil _).symm
  pools := Arena.Follows.refl _ _
  buffers := Arena.Follows.refl _ _
  pins := Arena.Follows.refl _ _
  kept := PinsKept.refl _

theorem Follows.trans
    {first second : List (Nat × PoolEvent)}
    (early : Follows before after first)
    (late : Follows after last second) :
    Follows before last (first ++ second) :=
  ⟨early.toElapsed.trans late.toElapsed, early.kept.trans late.kept⟩

/-! ## Growth -/

/-- Room for more leaves everything as it is. -/
theorem Consistent.grown
    (consistent : Consistent store)
    {pools : Arena Pool} {buffers : Arena BufferRecord}
    {pins : Arena PinRecord}
    (grownPools : Arena.Grown generations store.pools pools)
    (grownBuffers : Arena.Grown generations store.buffers buffers)
    (grownPins : Arena.Grown generations store.pins pins) :
    Consistent { store with pools, buffers, pins } ∧
      Follows store { store with pools, buffers, pins } [] := by
  refine ⟨?_, ⟨rfl, (List.append_nil _).symm, grownPools.follows,
    grownBuffers.follows, grownPins.follows⟩,
    fun token => Or.inl (grownPins.resolve token)⟩
  refine
    { pools := grownPools.wellFormed
      buffers := grownBuffers.wellFormed
      pins := grownPins.wellFormed
      buffer := fun found => ?_
      pin := fun found => ?_
      counts := fun found => ?_
      sized := fun found => ?_
      lifetime := fun index => ?_ }
  · simp only [grownBuffers.resolve, grownPools.resolve] at found ⊢
    exact consistent.buffer found
  · simp only [grownPins.resolve, grownPools.resolve] at found ⊢
    exact consistent.pin found
  · simp only [grownPools.resolve, grownBuffers.count, grownPins.count]
      at found ⊢
    exact consistent.counts found
  · simp only [grownPools.resolve] at found
    exact consistent.sized found
  · have same : pools.current index = store.pools.current index := by
      apply Option.ext
      intro content
      simp only [Arena.current_eq_some_iff, grownPools.resolve]
    simp only [same]
    exact consistent.lifetime index

/-- Having a free pool slot changes nothing. -/
theorem Consistent.readyPool
    (consistent : Consistent store)
    {granted : Bool} :
    match if store.pools.free = none then store.growPool granted
      else .ok store with
    | .error cause => cause = .outOfMemory
    | .ok next =>
        Consistent next ∧ Follows store next [] ∧ next.pools.free ≠ none ∧
          next.pools.resolve = store.pools.resolve := by
  split_ifs with empty
  · unfold growPool
    cases grown : store.pools.grow maxU32 {} granted with
    | none => rfl
    | some pools =>
        obtain ⟨spec, free⟩ :=
          Arena.grow_spec consistent.pools (by decide) grown
        have next := consistent.grown spec
          (Arena.Grown.refl consistent.buffers)
          (Arena.Grown.refl consistent.pins)
        exact ⟨next.1, next.2, free, funext spec.resolve⟩
  · exact ⟨consistent, Follows.refl _, empty, rfl⟩

/-- Having a free buffer slot changes nothing. -/
theorem Consistent.readyBuffer
    (consistent : Consistent store)
    {granted : Bool} :
    match if store.buffers.free = none then store.growBuffer granted
      else .ok store with
    | .error cause => cause = .outOfMemory
    | .ok next =>
        Consistent next ∧ Follows store next [] ∧ next.buffers.free ≠ none ∧
          next.pools = store.pools := by
  split_ifs with empty
  · unfold growBuffer
    cases grown : store.buffers.grow maxU32 {} granted with
    | none => rfl
    | some buffers =>
        obtain ⟨spec, free⟩ :=
          Arena.grow_spec consistent.buffers (by decide) grown
        have next := consistent.grown (Arena.Grown.refl consistent.pools) spec
          (Arena.Grown.refl consistent.pins)
        exact ⟨next.1, next.2, free, rfl⟩
  · exact ⟨consistent, Follows.refl _, empty, rfl⟩

/-- Having a free pin slot changes nothing. -/
theorem Consistent.readyPin
    (consistent : Consistent store)
    {granted : Bool} :
    match if store.pins.free = none then store.growPin granted
      else .ok store with
    | .error cause => cause = .outOfMemory
    | .ok next =>
        Consistent next ∧ Follows store next [] ∧ next.pins.free ≠ none ∧
          next.pools = store.pools ∧ next.buffers = store.buffers := by
  split_ifs with empty
  · unfold growPin
    cases grown : store.pins.grow maxU32 {} granted with
    | none => rfl
    | some pins =>
        obtain ⟨spec, free⟩ :=
          Arena.grow_spec consistent.pins (by decide) grown
        have next := consistent.grown (Arena.Grown.refl consistent.pools)
          (Arena.Grown.refl consistent.buffers) spec
        exact ⟨next.1, next.2, free, rfl, rfl⟩
  · exact ⟨consistent, Follows.refl _, empty, rfl, rfl⟩

/-! ## Writes to one pool -/

/-- A pool, its buffers, and its pins change together. -/
theorem Consistent.write
    (consistent : Consistent store)
    {token : Arena.Token} {old : Pool} {change : Pool → Pool}
    {buffers : Arena BufferRecord} {pins : Arena PinRecord}
    {more : List (Nat × PoolEvent)}
    (resolved : store.pools.resolve token = some old)
    (buffersWellFormed : buffers.WellFormed generations)
    (pinsWellFormed : pins.WellFormed generations)
    (bufferFrom : ∀ {other record}, buffers.resolve other = some record →
      store.buffers.resolve other = some record ∨
        record.pool = token ∧ record.metadata.stop ≤ old.declaredSize)
    (pinFrom : ∀ {other record}, pins.resolve other = some record →
      (∃ before, store.pins.resolve other = some before ∧
        before.pool = record.pool ∧ before.metadata = record.metadata) ∨
      record.pool = token ∧
        record.metadata.stop ≤ (change old).mapping.length)
    (bufferCounts : ∀ other, buffers.count (fun record =>
        record.pool == other) =
      if other = token then (change old).bufferCount
      else store.buffers.count fun record => record.pool == other)
    (pinCounts : ∀ other, pins.count (fun record => record.pool == other) =
      if other = token then (change old).pinCount
      else store.pins.count fun record => record.pool == other)
    (declared : old.declaredSize ≤ (change old).declaredSize)
    (mapped : old.pinCount = 0 ∨
      old.mapping.length ≤ (change old).mapping.length)
    (sized : (change old).Sized)
    (lifetime : ∀ index, Lifetime.closed.replay
        (eventsOf (store.log ++ more) index) =
      some (lifetimeOf (if index = token.index then some (change old)
        else store.pools.current index))) :
    Consistent
      { store with
        pools := store.pools.modify token.index change
        buffers, pins
        log := store.log ++ more } := by
  have modified := Arena.modify_spec consistent.pools resolved change
  refine
    { pools := modified.wellFormed
      buffers := buffersWellFormed
      pins := pinsWellFormed
      buffer := fun {other record} found => ?_
      pin := fun {other record} found => ?_
      counts := fun {other pool} found => ?_
      sized := fun {other pool} found => ?_
      lifetime := fun index => ?_ }
  · simp only [modified.resolve]
    rcases bufferFrom found with before | ⟨same, inside⟩
    · obtain ⟨pool, poolFound, inside⟩ := consistent.buffer before
      by_cases here : record.pool = token
      · rw [here, resolved, Option.some.injEq] at poolFound
        subst poolFound
        exact ⟨_, if_pos here, inside.trans declared⟩
      · exact ⟨pool, by rw [if_neg here, poolFound], inside⟩
    · exact ⟨_, if_pos same, inside.trans declared⟩
  · simp only [modified.resolve]
    rcases pinFrom found with ⟨before, beforeFound, samePool, sameMetadata⟩ |
      ⟨same, inside⟩
    · obtain ⟨pool, poolFound, inside⟩ := consistent.pin beforeFound
      rw [samePool] at poolFound
      rw [sameMetadata] at inside
      by_cases here : record.pool = token
      · rw [here, resolved, Option.some.injEq] at poolFound
        subst poolFound
        refine ⟨_, if_pos here, ?_⟩
        rcases mapped with none | grows
        · have zero := (consistent.counts resolved).2
          rw [none] at zero
          have absent := Arena.kind_of_count_eq_zero zero.symm beforeFound
          rw [samePool, here] at absent
          simp at absent
        · exact inside.trans grows
      · exact ⟨pool, by rw [if_neg here, poolFound], inside⟩
    · exact ⟨_, if_pos same, inside⟩
  · simp only [modified.resolve] at found
    rw [bufferCounts, pinCounts]
    split_ifs at found ⊢ with here
    · cases found
      exact ⟨rfl, rfl⟩
    · exact consistent.counts found
  · simp only [modified.resolve] at found
    split_ifs at found
    · cases found
      exact sized
    · exact consistent.sized found
  · simp only [modified.current resolved]
    exact lifetime index

/-- A pool changes, and its buffers and pins do not. -/
theorem Consistent.writePool
    (consistent : Consistent store)
    {token : Arena.Token} {old : Pool} {more : List (Nat × PoolEvent)}
    (resolved : store.pools.resolve token = some old)
    (change : Pool → Pool)
    (bufferCount : (change old).bufferCount = old.bufferCount)
    (pinCount : (change old).pinCount = old.pinCount)
    (declared : old.declaredSize ≤ (change old).declaredSize)
    (mapped : old.pinCount = 0 ∨
      old.mapping.length ≤ (change old).mapping.length)
    (sized : (change old).Sized)
    (lifetime : ∀ index, Lifetime.closed.replay
        (eventsOf (store.log ++ more) index) =
      some (lifetimeOf (if index = token.index then some (change old)
        else store.pools.current index))) :
    Consistent
      { store with
        pools := store.pools.modify token.index change
        log := store.log ++ more } := by
  have counts := consistent.counts resolved
  refine consistent.write resolved consistent.buffers consistent.pins Or.inl
    (fun found => Or.inl ⟨_, found, rfl, rfl⟩) (fun other => ?_)
    (fun other => ?_) declared mapped sized lifetime
  · split_ifs with here
    · rw [here, bufferCount, counts.1]
    · rfl
  · split_ifs with here
    · rw [here, pinCount, counts.2]
    · rfl

/-- A new pool. -/
theorem Consistent.taken
    (consistent : Consistent store)
    {token : Arena.Token} {pool : Pool} {pools : Arena Pool}
    {mapping : Mapping} {fd : Nat}
    (taken : Arena.Taken generations store.pools pools token pool)
    (sized : pool.Sized)
    (fresh : lifetimeOf (some pool) = .mapped mapping fd
      { resource := true, buffers := 0, pins := 0 })
    (lifetime : ∀ index, Lifetime.closed.replay
        (eventsOf (store.log ++ [(token.index, .map mapping fd)]) index) =
      some (lifetimeOf (if index = token.index then some pool
        else store.pools.current index))) :
    Consistent
      { store with
        pools
        log := store.log ++ [(token.index, .map mapping fd)] } := by
  simp only [lifetimeOf, Lifetime.mapped.injEq, References.mk.injEq] at fresh
  obtain ⟨_, _, _, noBuffers, noPins⟩ := fresh
  have absent : store.pools.resolve token = none := by
    rw [Option.eq_none_iff_forall_ne_some]
    intro content found
    have vacant := taken.fresh
    rw [Arena.current_of_resolve found] at vacant
    cases vacant
  refine
    { pools := taken.wellFormed
      buffers := consistent.buffers
      pins := consistent.pins
      buffer := fun {other record} found => ?_
      pin := fun {other record} found => ?_
      counts := fun {other content} found => ?_
      sized := fun {other content} found => ?_
      lifetime := fun index => ?_ }
  · obtain ⟨content, poolFound, inside⟩ := consistent.buffer found
    refine ⟨content, ?_, inside⟩
    rw [taken.resolve, if_neg, poolFound]
    intro same
    rw [same, absent] at poolFound
    cases poolFound
  · obtain ⟨content, poolFound, inside⟩ := consistent.pin found
    refine ⟨content, ?_, inside⟩
    rw [taken.resolve, if_neg, poolFound]
    intro same
    rw [same, absent] at poolFound
    cases poolFound
  · rw [taken.resolve] at found
    split_ifs at found with here
    · cases found
      rw [noBuffers, noPins, here]
      refine ⟨(Arena.count_eq_zero fun other record there => ?_).symm,
        (Arena.count_eq_zero fun other record there => ?_).symm⟩
      · obtain ⟨content, poolFound, _⟩ := consistent.buffer there
        rw [beq_eq_false_iff_ne]
        intro same
        rw [same, absent] at poolFound
        cases poolFound
      · obtain ⟨content, poolFound, _⟩ := consistent.pin there
        rw [beq_eq_false_iff_ne]
        intro same
        rw [same, absent] at poolFound
        cases poolFound
    · exact consistent.counts found
  · rw [taken.resolve] at found
    split_ifs at found
    · cases found
      exact sized
    · exact consistent.sized found
  · simp only [taken.current]
    exact lifetime index

/-- The lifetime after one event on one pool. -/
theorem Consistent.lifetime_step
    (consistent : Consistent store)
    {pool : Nat} {content : Option Pool}
    (event : PoolEvent)
    (allowed : (lifetimeOf (store.pools.current pool)).step event =
      some (lifetimeOf content))
    (index : Nat) :
    Lifetime.closed.replay (eventsOf (store.log ++ [(pool, event)]) index) =
      some (lifetimeOf (if index = pool then content
        else store.pools.current index)) := by
  rw [eventsOf_append]
  by_cases here : index = pool
  · subst here
    rw [if_pos rfl, ← allowed]
    have one : eventsOf [(index, event)] index = [event] := by simp [eventsOf]
    rw [one, Lifetime.replay_concat (consistent.lifetime index)]
  · have none : eventsOf [(pool, event)] index = [] := by
      simp [eventsOf, Ne.symm here]
    rw [if_neg here, none, List.append_nil]
    exact consistent.lifetime index

end Store
end Shm
end Wayring
