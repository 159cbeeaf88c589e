import Wayring.Shm.Accesses
import Wayring.Shm.Ends

/-!
# Runs of the store

Any calls, in any order, with any answers of the allocator and the kernel,
keep every mapping in place for its pins and end it exactly when nothing
refers to it.
-/

namespace Wayring
namespace Shm

/-- A call on the store, or a fault while bytes are exposed. -/
inductive Call
  | addPool (fd : Nat) (requestedSize : Int) (answers : Answers)
  | destroyPoolResource (token : Arena.Token)
  | resize (token : Arena.Token) (requestedSize : Int) (answers : Answers)
  | addBuffer
    (pool : Arena.Token)
    (format : Format)
    (offset width height stride : Int)
    (answers : Answers)
  | destroyBuffer (token : Arena.Token)
  | pin (token : Arena.Token) (answers : Answers)
  | unpin (token : Arena.Token) (answers : Answers)
  | prepareCopy
    (token : Arena.Token)
    (destinationLength userData : Nat)
    (queued : Bool)
    (answers later : Answers)
  | completeCopy
    (copy : Store.Copy)
    (userData : Nat)
    (result : Int)
    (answers : Answers)
  | beginAccess (thread : Nat) (token : Arena.Token) (handlerReady : Bool)
  | endAccess (index : Nat)
  | fault (thread : Nat)
  deriving DecidableEq, Repr

namespace World

/-- A call that touches the store only. -/
def onStore
    {α : Type}
    (world : World)
    (operation : Store → Except Error α × Store) : Except Error Unit × World :=
  let (result, store) := operation world.store
  (result.map fun _ => (), { world with store })

/-- One call.  Only an access that was handed out can be ended. -/
def step (world : World) : Call → Except Error Unit × World
  | .addPool fd requestedSize answers =>
      world.onStore fun store => store.addPool fd requestedSize answers
  | .destroyPoolResource token =>
      world.onStore fun store => store.destroyPoolResource token
  | .resize token requestedSize answers =>
      world.onStore fun store => store.resize token requestedSize answers
  | .addBuffer pool format offset width height stride answers =>
      world.onStore fun store =>
        store.addBuffer pool format offset width height stride answers
  | .destroyBuffer token => world.onStore fun store => store.destroyBuffer token
  | .pin token answers => world.onStore fun store => store.pin token answers
  | .unpin token answers => world.onStore fun store => store.unpin token answers
  | .prepareCopy token destinationLength userData queued answers later =>
      world.onStore fun store =>
        store.prepareCopy token destinationLength userData queued answers later
  | .completeCopy copy userData result answers =>
      world.onStore fun store =>
        store.completeCopy copy userData result answers
  | .beginAccess thread token handlerReady =>
      world.beginAccess thread token handlerReady
  | .endAccess index =>
      match world.accesses[index]? with
      | none => (.ok (), world)
      | some access => world.endAccess index access
  | .fault thread => (.ok (), world.fault thread)

/-- Calls one after another. -/
def run (world : World) (calls : List Call) : World :=
  calls.foldl (fun world call => (world.step call).2) world

variable {world : World}

/-- A sound operation of the store keeps the world safe. -/
theorem Safe.onStore
    {α : Type} {operation : Store → Except Error α × Store}
    (safe : Safe world)
    (sound : Store.Sound world.store (operation world.store)) :
    let outcome := world.onStore operation
    outcome.1 ≠ .error .unreachable ∧ Safe outcome.2 ∧
      ∃ more, Store.Elapsed world.store outcome.2.store more := by
  have safeNow := safe.of_sound sound
  obtain ⟨more, follows⟩ := sound.follows
  have reachable := sound.reachable
  simp only [World.onStore]
  generalize operation world.store = outcome at safeNow follows reachable ⊢
  obtain ⟨result, store⟩ := outcome
  refine ⟨?_, safeNow, more, follows.toElapsed⟩
  cases result with
  | error cause => simpa [Except.map] using reachable
  | ok value => simp [Except.map]

/-- One call fails no assertion and keeps the invariant. -/
theorem Safe.step
    (safe : Safe world)
    (call : Call) :
    (world.step call).1 ≠ .error .unreachable ∧ Safe (world.step call).2 ∧
      ∃ more, Store.Elapsed world.store (world.step call).2.store more := by
  have consistent := safe.consistent
  have referenced : world.store.Referenced := safe.referenced
  cases call with
  | addPool fd requestedSize answers =>
      exact safe.onStore
        (Store.addPool_sound consistent referenced fd requestedSize answers)
  | destroyPoolResource token =>
      exact safe.onStore
        (Store.destroyPoolResource_sound consistent referenced token)
  | resize token requestedSize answers =>
      exact safe.onStore
        (Store.resize_sound consistent referenced token requestedSize answers)
  | addBuffer pool format offset width height stride answers =>
      exact safe.onStore
        (Store.addBuffer_sound consistent referenced pool format offset width
          height stride answers)
  | destroyBuffer token =>
      exact safe.onStore (Store.destroyBuffer_sound consistent referenced token)
  | pin token answers =>
      exact safe.onStore
        (Store.pin_sound consistent referenced token answers).1
  | unpin token answers =>
      exact safe.onStore
        (Store.unpin_sound consistent referenced token answers)
  | prepareCopy token destinationLength userData queued answers later =>
      exact safe.onStore
        (Store.prepareCopy_sound consistent referenced token destinationLength
          userData queued answers later)
  | completeCopy copy userData result answers =>
      exact safe.onStore
        (Store.completeCopy_sound consistent referenced copy userData result
          answers)
  | beginAccess thread token handlerReady =>
      obtain ⟨reachable, safeNow, elapsed⟩ :=
        safe.beginAccess thread token handlerReady
      exact ⟨reachable, safeNow, [], elapsed⟩
  | endAccess index =>
      simp only [World.step]
      cases there : world.accesses[index]? with
      | none => exact ⟨by simp, safe, [], (Store.Follows.refl _).toElapsed⟩
      | some access =>
          obtain ⟨reachable, safeNow, elapsed⟩ := safe.endAccess there
          exact ⟨reachable, safeNow, [], elapsed⟩
  | fault thread =>
      obtain ⟨safeNow, elapsed⟩ := safe.fault thread
      exact ⟨by simp [World.step], safeNow, [], elapsed⟩

/-- A whole run keeps the invariant. -/
theorem Safe.run
    (safe : Safe world)
    (calls : List Call) :
    Safe (world.run calls) ∧
      ∃ more, Store.Elapsed world.store (world.run calls).store more := by
  induction calls generalizing world with
  | nil => exact ⟨safe, [], (Store.Follows.refl _).toElapsed⟩
  | cons call calls run_ih =>
      obtain ⟨_, safeNow, more, elapsed⟩ := safe.step call
      obtain ⟨safeLast, later, elapsedLast⟩ := run_ih safeNow
      exact ⟨safeLast, more ++ later, elapsed.trans elapsedLast⟩

end World

/-! ## The initial store -/

namespace Store

/-- A store in which nothing is in use. -/
structure Unused (store : Store) : Prop where
  consistent : store.Consistent
  pools : ∀ token, store.pools.resolve token = none
  pins : ∀ token, store.pins.resolve token = none

/-- A store without room. -/
theorem unused_empty (limits : Limits) : Unused { limits } where
  consistent :=
    { pools := Arena.wellFormed_empty
      buffers := Arena.wellFormed_empty
      pins := Arena.wellFormed_empty
      buffer := fun found => nomatch found
      pin := fun found => nomatch found
      counts := fun found => nomatch found
      sized := fun found => nomatch found
      lifetime := fun _ => rfl }
  pools := fun _ => rfl
  pins := fun _ => rfl

/-- Growth keeps a store unused. -/
theorem repeatGrowth_unused
    {grow : Store → Except Error Store}
    (step : ∀ {store next}, Unused store → grow store = .ok next → Unused next)
    {count : Nat} {store next : Store}
    (unused : Unused store)
    (grown : repeatGrowth grow count store = .ok next) : Unused next := by
  induction count generalizing store with
  | zero =>
      cases grown
      exact unused
  | succ count growth_ih =>
      rw [repeatGrowth] at grown
      cases first : grow store with
      | error cause =>
          rw [first] at grown
          cases grown
      | ok middle =>
          rw [first] at grown
          exact growth_ih (step unused first) grown

theorem growPool_unused
    {store next : Store} {granted : Bool}
    (unused : Unused store)
    (grown : store.growPool granted = .ok next) : Unused next := by
  unfold growPool at grown
  cases pools : store.pools.grow maxU32 {} granted with
  | none =>
      rw [pools] at grown
      cases grown
  | some pools' =>
      rw [pools] at grown
      cases grown
      have spec := (Arena.grow_spec unused.consistent.pools (by decide) pools).1
      exact
        { consistent := (unused.consistent.grown spec
            (Arena.Grown.refl unused.consistent.buffers)
            (Arena.Grown.refl unused.consistent.pins)).1
          pools := fun token => (spec.resolve token).trans (unused.pools token)
          pins := unused.pins }

theorem growBuffer_unused
    {store next : Store} {granted : Bool}
    (unused : Unused store)
    (grown : store.growBuffer granted = .ok next) : Unused next := by
  unfold growBuffer at grown
  cases buffers : store.buffers.grow maxU32 {} granted with
  | none =>
      rw [buffers] at grown
      cases grown
  | some buffers' =>
      rw [buffers] at grown
      cases grown
      have spec :=
        (Arena.grow_spec unused.consistent.buffers (by decide) buffers).1
      exact
        { consistent := (unused.consistent.grown
            (Arena.Grown.refl unused.consistent.pools) spec
            (Arena.Grown.refl unused.consistent.pins)).1
          pools := unused.pools
          pins := unused.pins }

theorem growPin_unused
    {store next : Store} {granted : Bool}
    (unused : Unused store)
    (grown : store.growPin granted = .ok next) : Unused next := by
  unfold growPin at grown
  cases pins : store.pins.grow maxU32 {} granted with
  | none =>
      rw [pins] at grown
      cases grown
  | some pins' =>
      rw [pins] at grown
      cases grown
      have spec := (Arena.grow_spec unused.consistent.pins (by decide) pins).1
      exact
        { consistent := (unused.consistent.grown
            (Arena.Grown.refl unused.consistent.pools)
            (Arena.Grown.refl unused.consistent.buffers) spec).1
          pools := unused.pools
          pins := fun token => (spec.resolve token).trans (unused.pins token) }

/-- A new store has nothing in use. -/
theorem init_unused
    {limits : Limits} {poolCapacity bufferCapacity : Nat} {granted : Bool}
    {store : Store}
    (created : init limits poolCapacity bufferCapacity granted = .ok store) :
    Unused store := by
  unfold init at created
  cases valid : limits.validate with
  | error cause =>
      rw [valid] at created
      cases created
  | ok _ =>
      rw [valid] at created
      simp only [bind, Except.bind] at created
      split_ifs at created
      cases first : repeatGrowth (fun store => store.growPool granted)
          poolCapacity { limits } with
      | error cause =>
          rw [first] at created
          cases created
      | ok pools =>
          rw [first] at created
          simp only at created
          cases second : repeatGrowth (fun store => store.growBuffer granted)
              bufferCapacity pools with
          | error cause =>
              rw [second] at created
              cases created
          | ok buffers =>
              rw [second] at created
              exact repeatGrowth_unused growPin_unused
                (repeatGrowth_unused growBuffer_unused
                  (repeatGrowth_unused growPool_unused (unused_empty limits)
                    first) second) created

/-- An unused store is safe. -/
theorem Unused.safe
    {store : Store}
    (unused : Unused store) : World.Safe { store } where
  consistent := unused.consistent
  referenced := fun {token _} found =>
    absurd ((unused.pools token).symm.trans found) (by simp)
  counted := fun {token _} found =>
    absurd ((unused.pins token).symm.trans found) (by simp)
  held := fun member => absurd member List.not_mem_nil
  depth := fun _ => rfl
  idle := fun _ => by simp
  exclusive := fun member => absurd member List.not_mem_nil

/-! ## Stale tokens -/

/-- Every call on a pool's token fails and changes nothing. -/
def RejectsPool (store : Store) (token : Arena.Token) : Prop :=
  store.destroyPoolResource token = (.error .stalePool, store) ∧
  (∀ requestedSize answers,
    store.resize token requestedSize answers = (.error .stalePool, store)) ∧
  ∀ format offset width height stride answers,
    store.addBuffer token format offset width height stride answers =
      (.error .stalePool, store)

/-- Every call on a buffer's token fails and changes nothing. -/
def RejectsBuffer (store : Store) (token : Arena.Token) : Prop :=
  store.destroyBuffer token = (.error .staleBuffer, store) ∧
  (∀ answers, store.pin token answers = (.error .staleBuffer, store)) ∧
  ∀ destinationLength userData queued answers later,
    store.prepareCopy token destinationLength userData queued answers later =
      (.error .staleBuffer, store)

/-- A stale token of a pool is rejected. -/
theorem rejectsPool_of_stale
    {store : Store} {token : Arena.Token}
    (stale : store.pools.resolve token = none) : store.RejectsPool token := by
  refine ⟨?_, fun _ _ => ?_, fun _ _ _ _ _ _ => ?_⟩
  · rw [destroyPoolResource, stale]
  · rw [resize, stale]
  · rw [addBuffer, stale]

/-- A stale token of a buffer is rejected. -/
theorem rejectsBuffer_of_stale
    {store : Store} {token : Arena.Token}
    (stale : store.buffers.resolve token = none) :
    store.RejectsBuffer token := by
  have unpinned (answers : Answers) :
      store.pin token answers = (.error .staleBuffer, store) := by
    rw [Store.pin, stale]
  refine ⟨?_, unpinned, fun _ _ _ answers _ => ?_⟩
  · rw [destroyBuffer, stale]
  · rw [prepareCopy, unpinned]

end Store

/-- Every call on a pin's token fails and changes nothing. -/
def World.RejectsPin (world : World) (token : Arena.Token) : Prop :=
  (∀ answers,
    world.store.unpin token answers = (.error .stalePin, world.store)) ∧
  (∀ expectedLength userData result answers,
    world.store.completeCopy { pin := token, expectedLength, userData } userData
      result answers = (.error .stalePin, world.store)) ∧
  ∀ thread handlerReady,
    world.beginAccess thread token handlerReady = (.error .stalePin, world)

/-- A stale token of a pin is rejected. -/
theorem World.rejectsPin_of_stale
    {world : World} {token : Arena.Token}
    (stale : world.store.pins.resolve token = none) :
    world.RejectsPin token := by
  have kept (answers : Answers) :
      world.store.unpin token answers = (.error .stalePin, world.store) := by
    rw [Store.unpin, stale]
  refine ⟨kept, fun _ _ _ answers => ?_, fun _ _ => ?_⟩
  · simp only [Store.completeCopy, kept, ne_eq, not_true_eq_false, if_false]
  · rw [World.beginAccess, stale]

/-! ## Ends -/

/-- Nobody accesses the bytes of a pin. -/
def World.Unaccessed (world : World) (token : Arena.Token) : Prop :=
  ∀ access ∈ world.accesses, access.active = true → access.pin ≠ token

/-- What is given up is gone.  A buffer in use can be destroyed, a pin that
nobody accesses dropped, also when the growth that waited for it fails, and
the resource of a pool destroyed; the last reference takes the pool along. -/
structure World.Ends (world : World) : Prop where
  buffer : ∀ token record,
    world.store.buffers.resolve token = some record →
    let outcome := world.step (.destroyBuffer token)
    outcome.1 = .ok () ∧
      outcome.2.store.buffers.resolve token = none ∧
      ∀ pool, world.store.pools.resolve record.pool = some pool →
        pool.resourceAlive = false → pool.bufferCount = 1 →
        pool.pinCount = 0 →
        outcome.2.store.pools.resolve record.pool = none
  pin : ∀ token record answers,
    world.store.pins.resolve token = some record → world.Unaccessed token →
    let outcome := world.step (.unpin token answers)
    outcome.2.store.pins.resolve token = none ∧
      ∀ pool, world.store.pools.resolve record.pool = some pool →
        pool.resourceAlive = false → pool.bufferCount = 0 →
        pool.pinCount = 1 →
        outcome.2.store.pools.resolve record.pool = none
  copy : ∀ (copy : Store.Copy) result answers,
    world.Unaccessed copy.pin →
    let outcome :=
      world.step (.completeCopy copy copy.userData result answers)
    outcome.2.store.pins.resolve copy.pin = none
  resource : ∀ token pool,
    world.store.pools.resolve token = some pool →
    pool.resourceAlive = true →
    let outcome := world.step (.destroyPoolResource token)
    outcome.1 = .ok () ∧ outcome.2.store.RefusesPool token ∧
      (pool.bufferCount = 0 → pool.pinCount = 0 →
        outcome.2.store.pools.resolve token = none)

/-- A pin that no access holds has no accesses. -/
theorem World.Safe.unaccessed
    {world : World} {token : Arena.Token} {record : PinRecord}
    (safe : world.Safe)
    (found : world.store.pins.resolve token = some record)
    (unaccessed : world.Unaccessed token) : record.accessCount = 0 := by
  rw [safe.counted found, List.countP_eq_zero]
  intro access member holds
  simp only [Access.holds, Bool.and_eq_true, beq_iff_eq] at holds
  exact unaccessed access member holds.1 holds.2

/-- What is ended in a safe world is gone. -/
theorem World.Safe.ends
    {world : World}
    (safe : world.Safe) : world.Ends where
  buffer token record found := by
    obtain ⟨answer, gone, last⟩ :=
      Store.destroyBuffer_ends safe.consistent found
    refine ⟨?_, gone, last⟩
    simp only [World.step, World.onStore, answer]
    rfl
  pin token record answers found unaccessed :=
    Store.unpin_ends safe.consistent found (safe.unaccessed found unaccessed)
      answers
  copy copy result answers unaccessed := by
    have unpinned :
        (world.store.unpin copy.pin answers).2.pins.resolve copy.pin =
          none := by
      cases found : world.store.pins.resolve copy.pin with
      | none =>
          rw [Store.unpin, found]
          exact found
      | some record =>
          exact (Store.unpin_ends safe.consistent found
            (safe.unaccessed found unaccessed) answers).1
    simp only [World.step, World.onStore, Store.completeCopy, ne_eq,
      not_true_eq_false, if_false]
    generalize world.store.unpin copy.pin answers = outcome at unpinned ⊢
    obtain ⟨answer, store⟩ := outcome
    cases answer with
    | error cause => exact unpinned
    | ok _ =>
        dsimp only
        split_ifs <;> exact unpinned
  resource token pool resolved alive := by
    obtain ⟨answer, refused, last⟩ :=
      Store.destroyPoolResource_ends safe.consistent resolved alive
    refine ⟨?_, refused, last⟩
    simp only [World.step, World.onStore, answer]
    rfl

/-! ## The lifetime of mappings -/

/-- In every state that calls on a new store can reach: a pool counts its
buffers and pins, has a size, and is referenced; pins lie inside the mapping;
what was done to the mapping at each index is a lifetime that has arrived at
the present references, with one mapping and one open descriptor if the pool
is in use and none otherwise; and no mapping was moved or removed before all
earlier pins were dropped.  No call fails an assertion.  What is given up stops
resolving, and a token that stopped resolving is rejected until its slot has
gone through all generations. -/
theorem mappings_live_with_their_references
    {limits : Limits} {poolCapacity bufferCapacity : Nat} {granted : Bool}
    {store : Store}
    (created : Store.init limits poolCapacity bufferCapacity granted =
      .ok store)
    (calls : List Call) :
    let world := World.run { store } calls
    (∀ token pool, world.store.pools.resolve token = some pool →
      pool.bufferCount =
        world.store.buffers.count (fun record => record.pool == token) ∧
      pool.pinCount =
        world.store.pins.count (fun record => record.pool == token) ∧
      pool.Sized ∧ pool.Referenced) ∧
    (∀ token pin, world.store.pins.resolve token = some pin →
      ∃ pool, world.store.pools.resolve pin.pool = some pool ∧
        pin.metadata.stop ≤ pool.mapping.length) ∧
    (∀ index,
      let events := eventsOf world.store.log index
      let now := lifetimeOf (world.store.pools.current index)
      Lifetime.closed.replay events = some now ∧
      now.pins = (events.map PoolEvent.pins).sum ∧
      now.mappings = (events.map PoolEvent.mappings).sum ∧
      now.descriptors = (events.map PoolEvent.descriptors).sum ∧
      ∀ early event late, events = early ++ event :: late →
        event.moves = true → (early.map PoolEvent.pins).sum = 0) ∧
    (∀ call, (world.step call).1 ≠ .error .unreachable) ∧
    world.Ends ∧
    ∀ more later token,
      let middle := world.run more
      let last := middle.run later
      (world.store.pools.resolve token ≠ none →
        middle.store.pools.resolve token = none →
        closes last.store.log token.index <
          closes world.store.log token.index + maxU32 →
        last.store.RejectsPool token) ∧
      (world.store.buffers.resolve token ≠ none →
        middle.store.buffers.resolve token = none →
        bufferEnds last.store.log token.index <
          bufferEnds world.store.log token.index + maxU32 →
        last.store.RejectsBuffer token) ∧
      (world.store.pins.resolve token ≠ none →
        middle.store.pins.resolve token = none →
        pinEnds last.store.log token.index <
          pinEnds world.store.log token.index + maxU32 →
        last.RejectsPin token) := by
  intro world
  obtain ⟨safe, _⟩ := (Store.init_unused created).safe.run calls
  refine ⟨fun token pool found => ?_, fun token pin found => ?_,
    fun index => ?_, fun call => (safe.step call).1, safe.ends,
    fun more later token => ?_⟩
  · obtain ⟨buffers, pins⟩ := safe.consistent.counts found
    exact ⟨buffers, pins, safe.consistent.sized found, safe.referenced found⟩
  · exact safe.consistent.pin found
  · have replayed := safe.consistent.lifetime index
    obtain ⟨pins, mappings, descriptors⟩ := Lifetime.replay_measures replayed
    refine ⟨replayed, pins, mappings, descriptors,
      fun early event late split moves => ?_⟩
    rw [split] at replayed
    exact Lifetime.unpinned_of_moves replayed moves
  · intro middle last
    obtain ⟨safeMiddle, first, early⟩ := safe.run more
    obtain ⟨_, second, late⟩ := safeMiddle.run later
    have log := (early.trans late).log
    refine ⟨fun resolved stale few => ?_, fun resolved stale few => ?_,
      fun resolved stale few => ?_⟩
    · obtain ⟨pool, found⟩ := Option.ne_none_iff_exists'.mp resolved
      refine Store.rejectsPool_of_stale
        (early.pools.stale safe.consistent.pools late.pools found stale ?_)
      rw [log, closes_append, closes_append] at few
      exact Nat.lt_of_add_lt_add_left few
    · obtain ⟨record, found⟩ := Option.ne_none_iff_exists'.mp resolved
      refine Store.rejectsBuffer_of_stale
        (early.buffers.stale safe.consistent.buffers late.buffers found stale ?_)
      rw [log, bufferEnds_append, bufferEnds_append] at few
      exact Nat.lt_of_add_lt_add_left few
    · obtain ⟨record, found⟩ := Option.ne_none_iff_exists'.mp resolved
      refine World.rejectsPin_of_stale
        (early.pins.stale safe.consistent.pins late.pins found stale ?_)
      rw [log, pinEnds_append, pinEnds_append] at few
      exact Nat.lt_of_add_lt_add_left few

/-! ### A sample run -/

/-- A store for one pool, one buffer, and one pin. -/
def sampleStore : Store where
  limits := { maxPoolBytes := 8192 }
  pools := { slots := [{ content := {} }], free := some 0 }
  buffers := { slots := [{ content := {} }], free := some 0 }
  pins := { slots := [{ content := {} }], free := some 0 }

/-- A pool, its buffer, and its pin, which outlives both while growth waits for
it.  The growth fails when the pin is dropped. -/
def sampleCalls : List Call :=
  let token : Arena.Token := { index := 0, generation := 1 }
  let file : FileState := { shrinkSealed := some false, size := some 8192 }
  [.addPool 7 4096 { granted := true, mapping := .ok 65536, file },
    .addBuffer token { value := 0, bytesPerPixel := 4 } 0 16 16 64
      { granted := true, mapping := .error 12, file },
    .pin token { granted := true, mapping := .error 12, file },
    .resize token 8192 { granted := true, mapping := .error 12, file },
    .destroyBuffer token, .destroyPoolResource token,
    .unpin token { granted := true, mapping := .error 12, file }]

theorem mappings_live_with_their_references_sample :
    let token : Arena.Token := { index := 0, generation := 1 }
    let failing : Answers :=
      { granted := true
        mapping := .error 12
        file := { shrinkSealed := some false, size := some 8192 } }
    let unpinned := (World.run { store := sampleStore }
      (sampleCalls.take 6)).step (.unpin token failing)
    Lifetime.closed.replay
      [.map { address := 65536, length := 4096 } 7, .addBuffer 0, .pin 0,
        .destroyBuffer 0, .destroyResource, .unpin 0,
        .unmap { address := 65536, length := 4096 }, .close 7] =
      some .closed ∧
    unpinned.1 = .error (.system 12) ∧
    unpinned.2.store.pins.resolve token = none ∧
    unpinned.2.store.pools.resolve token = none := by
  intro token failing unpinned
  have ends := (@mappings_live_with_their_references { maxPoolBytes := 8192 }
    1 1 true sampleStore rfl (sampleCalls.take 6)).2.2.2.2.1.pin token _
      failing rfl (fun _ member => absurd member List.not_mem_nil)
  refine ⟨?_, rfl, ends.1, ends.2 _ rfl rfl rfl rfl⟩
  exact ((@mappings_live_with_their_references { maxPoolBytes := 8192 } 1 1
    true sampleStore rfl sampleCalls).2.2.1 0).1

end Shm
end Wayring
