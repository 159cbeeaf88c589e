import Wayring.Shm.Runs

/-!
# Faults

Which pools a run leaves invalid.  A fault counts against the pool of the scope
it happens in, is reported by the end that closes the scope, and from then on
the pool is refused for as long as it is in use.
-/

namespace Wayring
namespace Shm

namespace Store

/-- The exposed bytes of a pin, without a guard. -/
def bytes (store : Store) (token : Arena.Token) : Except Error Mapping :=
  match store.pins.resolve token with
  | none => .error .stalePin
  | some node =>
      match store.pools.resolve node.pool with
      | none => .error .stalePool
      | some pool =>
          if pool.invalidBacking then .error .invalidBacking
          else if !pool.sealedDirect then .error .unsafeAccess
          else
            .ok
              { address := pool.mapping.address + node.metadata.offset
                length := node.metadata.extent }

/-! ## Operations of the store -/

/-- Every pool in use was in use before, and is as valid as it was. -/
def Keeps (before after : Store) : Prop :=
  ∀ token pool, after.pools.resolve token = some pool →
    ∃ old, before.pools.resolve token = some old ∧
      pool.invalidBacking = old.invalidBacking

variable {store middle after : Store}

/-- Where pools stay, so does what is known of their files. -/
theorem Keeps.of_pools
    (same : after.pools = store.pools) : Keeps store after := by
  intro token pool found
  rw [same] at found
  exact ⟨pool, found, rfl⟩

theorem Keeps.refl (store : Store) : Keeps store store := .of_pools rfl

theorem Keeps.trans
    (early : Keeps store middle)
    (late : Keeps middle after) : Keeps store after := by
  intro token pool found
  obtain ⟨between, foundBetween, lateSame⟩ := late token pool found
  obtain ⟨old, foundOld, earlySame⟩ := early token between foundBetween
  exact ⟨old, foundOld, lateSame.trans earlySame⟩

/-- A change that keeps the mark of a pool. -/
theorem Keeps.modifyPool
    (store : Store) (index : Nat) {change : Pool → Pool}
    (keeps : ∀ pool, (change pool).invalidBacking = pool.invalidBacking) :
    Keeps store (store.modifyPool index change) := by
  intro token pool found
  rw [Store.modifyPool, Arena.resolve_modify] at found
  split at found
  · obtain ⟨old, foundOld, rfl⟩ := Option.map_eq_some_iff.mp found
    exact ⟨old, foundOld, keeps old⟩
  · exact ⟨pool, found, rfl⟩

/-- Releasing a pool marks no other. -/
theorem Keeps.releasePoolIfUnused
    (store : Store) (index : Nat) :
    Keeps store (store.releasePoolIfUnused index) := by
  unfold Store.releasePoolIfUnused
  cases store.pools.slots[index]? with
  | none => exact .refl store
  | some slot =>
      dsimp only
      split
      · exact .refl store
      · intro token pool found
        exact ⟨pool, Arena.resolve_of_release found, rfl⟩

theorem Keeps.applyPendingResize
    (store : Store) (index : Nat) (node : Pool) (answers : Answers) :
    Keeps store (store.applyPendingResize index node answers).2 := by
  unfold Store.applyPendingResize
  split
  · exact .refl store
  · cases answers.mapping with
    | error code => exact .refl store
    | ok address => exact .modifyPool store index fun _ => rfl

theorem Keeps.destroyPoolResource
    (store : Store) (token : Arena.Token) :
    Keeps store (store.destroyPoolResource token).2 := by
  unfold Store.destroyPoolResource
  cases store.pools.resolve token with
  | none => exact .refl store
  | some node =>
      dsimp only
      split
      · exact .refl store
      · refine Keeps.trans ?_ (.releasePoolIfUnused _ _)
        exact .modifyPool store token.index fun _ => rfl

theorem Keeps.resize
    (store : Store) (token : Arena.Token) (requestedSize : Int) (answers : Answers) :
    Keeps store (store.resize token requestedSize answers).2 := by
  unfold Store.resize
  cases store.pools.resolve token with
  | none => exact .refl store
  | some node =>
      dsimp only
      split
      · exact .refl store
      cases resizePool store.limits node.declaredSize requestedSize with
      | error cause => exact .refl store
      | ok size =>
          dsimp only
          split
          · split
            · exact .applyPendingResize store token.index node answers
            · exact .refl store
          split
          · exact .modifyPool store token.index fun _ => rfl
          cases answers.mapping with
          | error code => exact .refl store
          | ok address => exact .modifyPool store token.index fun _ => rfl

/-- Making room for a buffer leaves the pools alone. -/
theorem pools_of_bufferRoom
    {store next : Store} {granted : Bool}
    (ready : (if store.buffers.free = none then store.growBuffer granted
      else .ok store) = .ok next) : next.pools = store.pools := by
  split_ifs at ready
  · unfold growBuffer at ready
    split at ready
    · cases ready
    · cases ready
      rfl
  · cases ready
    rfl

/-- Making room for a pin leaves the pools alone. -/
theorem pools_of_pinRoom
    {store next : Store} {granted : Bool}
    (ready : (if store.pins.free = none then store.growPin granted
      else .ok store) = .ok next) : next.pools = store.pools := by
  split_ifs at ready
  · unfold growPin at ready
    split at ready
    · cases ready
    · cases ready
      rfl
  · cases ready
    rfl

theorem Keeps.addBuffer
    (store : Store) (token : Arena.Token) (format : Format)
    (offset width height stride : Int) (answers : Answers) :
    Keeps store
      (store.addBuffer token format offset width height stride answers).2 := by
  unfold Store.addBuffer
  cases store.pools.resolve token with
  | none => exact .refl store
  | some pool =>
      dsimp only
      split
      · exact .refl store
      have readied := fun next =>
        @pools_of_bufferRoom store next answers.granted
      generalize (if store.buffers.free = none then
          store.growBuffer answers.granted
        else Except.ok store) = ready at readied ⊢
      cases ready with
      | error cause => exact .refl store
      | ok next =>
          replace readied := readied next rfl
          dsimp only
          cases createBuffer pool.declaredSize format offset width height stride with
          | error cause => exact .of_pools readied
          | ok metadata =>
              dsimp only
              cases next.buffers.take { pool := token, metadata } with
              | none => exact .of_pools readied
              | some taken =>
                  exact (@Keeps.of_pools store { next with buffers := taken.2 }
                    readied).trans (.modifyPool _ token.index fun _ => rfl)

theorem Keeps.destroyBuffer
    (store : Store) (token : Arena.Token) :
    Keeps store (store.destroyBuffer token).2 := by
  unfold Store.destroyBuffer
  cases store.buffers.resolve token with
  | none => exact .refl store
  | some node =>
      dsimp only
      cases store.pools.resolve node.pool with
      | none => exact .refl store
      | some pool =>
          refine Keeps.trans ?_ (.releasePoolIfUnused _ _)
          exact .modifyPool store node.pool.index fun _ => rfl

theorem Keeps.pin
    (store : Store) (token : Arena.Token) (answers : Answers) :
    Keeps store (store.pin token answers).2 := by
  unfold Store.pin
  cases store.buffers.resolve token with
  | none => exact .refl store
  | some buffer =>
      dsimp only
      cases store.pools.resolve buffer.pool with
      | none => exact .refl store
      | some pool =>
          dsimp only
          split
          · exact .refl store
          have resized :=
            Keeps.applyPendingResize store buffer.pool.index pool answers
          generalize store.applyPendingResize buffer.pool.index pool answers =
            outcome at resized ⊢
          obtain ⟨result, resizedStore⟩ := outcome
          cases result with
          | error cause => exact resized
          | ok _ =>
              dsimp only at resized ⊢
              have readied := fun next =>
                @pools_of_pinRoom resizedStore next answers.granted
              generalize (if resizedStore.pins.free = none then
                  resizedStore.growPin answers.granted
                else Except.ok resizedStore) = ready at readied ⊢
              cases ready with
              | error cause => exact resized
              | ok next =>
                  replace readied := readied next rfl
                  dsimp only
                  cases next.pins.take
                      { pool := buffer.pool, metadata := buffer.metadata } with
                  | none => exact resized.trans (.of_pools readied)
                  | some taken =>
                      refine (resized.trans ?_).trans
                        (.modifyPool _ buffer.pool.index fun _ => rfl)
                      exact @Keeps.of_pools resizedStore
                        { next with pins := taken.2 } readied

theorem Keeps.unpin
    (store : Store) (token : Arena.Token) (answers : Answers) :
    Keeps store (store.unpin token answers).2 := by
  unfold Store.unpin
  cases store.pins.resolve token with
  | none => exact .refl store
  | some node =>
      dsimp only
      split
      · exact .refl store
      cases store.pools.resolve node.pool with
      | none => exact .refl store
      | some pool =>
          dsimp only
          split
          · refine Keeps.trans ?_ (.releasePoolIfUnused _ _)
            refine Keeps.trans ?_ (.applyPendingResize _ _ _ _)
            exact .modifyPool store node.pool.index fun _ => rfl
          · refine Keeps.trans ?_ (.releasePoolIfUnused _ _)
            exact .modifyPool store node.pool.index fun _ => rfl

theorem Keeps.abandonCopy
    (store : Store) (pin : Arena.Token) (cause : Error) (answers : Answers) :
    Keeps store (store.abandonCopy pin cause answers).2 := by
  unfold Store.abandonCopy
  have unpinned := Keeps.unpin store pin answers
  generalize store.unpin pin answers = outcome at unpinned ⊢
  obtain ⟨result, after⟩ := outcome
  cases result with
  | error cause => exact unpinned
  | ok _ => exact unpinned

theorem Keeps.prepareCopy
    (store : Store) (token : Arena.Token)
    (destinationLength userData : Nat) (queued : Bool)
    (answers later : Answers) :
    Keeps store
      (store.prepareCopy token destinationLength userData queued answers
        later).2 := by
  unfold Store.prepareCopy
  have pinned := Keeps.pin store token answers
  generalize store.pin token answers = outcome at pinned ⊢
  obtain ⟨result, after⟩ := outcome
  cases result with
  | error cause => exact pinned
  | ok pin =>
      dsimp only at pinned ⊢
      cases after.pins.resolve pin with
      | none => exact pinned.trans (.abandonCopy after pin _ later)
      | some node =>
          dsimp only
          split
          · exact pinned.trans (.abandonCopy after pin _ later)
          cases after.pools.resolve node.pool with
          | none => exact pinned.trans (.abandonCopy after pin _ later)
          | some pool =>
              dsimp only
              split
              · exact pinned.trans (.abandonCopy after pin _ later)
              · exact pinned

theorem Keeps.completeCopy
    (store : Store) (copy : Copy) (userData : Nat) (result : Int)
    (answers : Answers) :
    Keeps store (store.completeCopy copy userData result answers).2 := by
  unfold Store.completeCopy
  split
  · exact .refl store
  have unpinned := Keeps.unpin store copy.pin answers
  generalize store.unpin copy.pin answers = outcome at unpinned ⊢
  obtain ⟨ended, after⟩ := outcome
  cases ended with
  | error cause => exact unpinned
  | ok _ =>
      dsimp only
      split
      · exact unpinned
      · split
        · exact unpinned
        · exact unpinned

/-- A new pool is valid, and the others stay as they are. -/
theorem addPool_validity
    (consistent : store.Consistent)
    (fd : Nat) (requestedSize : Int) (answers : Answers)
    {token : Arena.Token} {pool : Pool}
    (found :
      (store.addPool fd requestedSize answers).2.pools.resolve token =
        some pool) :
    pool.invalidBacking =
      (store.pools.resolve token).any Pool.invalidBacking := by
  have ready := @Consistent.readyPool store consistent answers.granted
  unfold addPool at found
  generalize (if store.pools.free = none then store.growPool answers.granted
    else Except.ok store) = readied at ready found
  have still (next : Store)
      (same : next.pools.resolve = store.pools.resolve)
      (there : next.pools.resolve token = some pool) :
      pool.invalidBacking =
        (store.pools.resolve token).any Pool.invalidBacking := by
    rw [← same, there, Option.any_some]
  cases readied with
  | error cause => exact still store rfl found
  | ok next =>
      obtain ⟨consistentNow, _, free, same⟩ := ready
      dsimp only at found
      cases created : createPool next.limits requestedSize with
      | error cause =>
          rw [created] at found
          exact still next same found
      | ok size =>
          simp only [created] at found
          cases mapped : answers.mapping with
          | error code =>
              rw [mapped] at found
              exact still next same found
          | ok address =>
              simp only [mapped] at found
              obtain ⟨new, pools, taken, spec⟩ := Arena.take_spec
                consistentNow.pools free
                { resourceAlive := true
                  fd
                  mapping := { address, length := size }
                  declaredSize := size
                  sealedDirect := fileCannotShrinkBelow answers.file size }
              simp only [taken, record] at found
              rw [spec.resolve] at found
              split_ifs at found with here
              · cases found
                rw [here, ← same]
                cases before : next.pools.resolve new with
                | none => rfl
                | some old =>
                    exact absurd (Arena.current_of_resolve before)
                      (by rw [spec.fresh]; exact Option.some_ne_none old ∘ Eq.symm)
              · exact still next same found

/-- A pool that is kept has the mark it had. -/
theorem Keeps.validity
    (keeps : Keeps store after)
    {token : Arena.Token} {pool : Pool}
    (found : after.pools.resolve token = some pool) :
    pool.invalidBacking =
      (store.pools.resolve token).any Pool.invalidBacking := by
  obtain ⟨old, foundOld, same⟩ := keeps token pool found
  rw [foundOld, Option.any_some, same]

end Store

namespace World

/-! ## Scopes -/

/-- The guarded accesses that are open on a thread. -/
def scope (world : World) (thread : Nat) : List Access :=
  world.accesses.filter fun access => access.guards thread

/-- The thread and the pool whose scope a call closes: the call ends the only
guarded access that is open on the thread. -/
def closes (world : World) : Call → Option (Nat × Arena.Token)
  | .endAccess index => do
      let access ← world.accesses[index]?
      let node ← world.store.pins.resolve access.pin
      if access.guards access.thread ∧
          (world.scope access.thread).length = 1 then
        some (access.thread, node.pool)
      else none
  | _ => none

/-- A fault inside a scope of a thread. -/
def strikes (world : World) (thread : Nat) : Call → Bool
  | .fault other => other == thread && !(world.scope thread).isEmpty
  | _ => false

variable {world : World}

/-- A thread is as deep as it has accesses. -/
theorem Safe.scope_length
    (safe : Safe world)
    (thread : Nat) :
    (world.guards thread).depth = (world.scope thread).length := by
  rw [safe.depth, List.countP_eq_length_filter]
  rfl

/-- A thread has no accesses exactly when it guards no pool. -/
theorem Safe.scope_eq_nil_iff
    (safe : Safe world)
    (thread : Nat) :
    world.scope thread = [] ↔ (world.guards thread).activePool = none := by
  rw [safe.idle, safe.scope_length, List.length_eq_zero_iff]

/-- The scope of a thread has its guarded accesses that did not end. -/
theorem mem_scope_iff
    {access : Access} {thread : Nat} :
    access ∈ world.scope thread ↔
      access ∈ world.accesses ∧ access.active = true ∧
        access.guarded = true ∧ access.thread = thread := by
  simp [scope, Access.guards, and_assoc]

/-- The access closes its thread's scope, and a fault came in that scope. -/
def replaced (world : World) (access : Access) : Bool :=
  access.guarded && (world.guards access.thread).depth == 1 &&
    (world.guards access.thread).backingFaulted

/-- The end of an open access, and what it leaves. -/
theorem Safe.endAccess_eq
    (safe : Safe world)
    {index : Nat} {access : Access} {node : PinRecord}
    (there : world.accesses[index]? = some access)
    (active : access.active = true)
    (found : world.store.pins.resolve access.pin = some node) :
    let outcome := world.endAccess index access
    outcome.1 =
      (if world.replaced access then .error .invalidBacking else .ok ()) ∧
    outcome.2.guards =
      (if access.guarded then world.lift access.thread else world.guards) ∧
    ∀ token, outcome.2.store.pools.resolve token =
      if world.replaced access ∧ token = node.pool then
        (world.store.pools.resolve token).map fun pool =>
          { pool with invalidBacking := true }
      else world.store.pools.resolve token := by
  have member : access ∈ world.accesses := List.mem_of_getElem? there
  obtain ⟨_, again, samePool, accessed⟩ := safe.accessed member active
  cases found.symm.trans again
  intro outcome
  cases guarded : access.guarded with
  | false =>
      have unreplaced : world.replaced access = false := by
        rw [replaced, guarded]
        rfl
      simp only [outcome, World.endAccess, active, found, accessed, guarded,
        unreplaced, Bool.not_true, Bool.not_false, Bool.false_eq_true,
        if_true, if_false, false_and]
      exact ⟨trivial, rfl, fun _ => rfl⟩
  | true =>
      have here := safe.exclusive member active guarded
      have deep : (world.guards access.thread).depth ≠ 0 := by
        intro none
        rw [(safe.idle access.thread).mpr none] at here
        cases here
      have holds : ¬ ((world.guards access.thread).activePool ≠
          some access.pool ∨ (world.guards access.thread).depth = 0) := by
        simp [here, deep]
      have last : ((world.guards access.thread).depth - 1 = 0 ∧
          (world.guards access.thread).backingFaulted = true) ↔
          world.replaced access = true := by
        have one : (world.guards access.thread).depth - 1 = 0 ↔
            (world.guards access.thread).depth = 1 := by omega
        simp only [replaced, guarded, Bool.true_and, Bool.and_eq_true,
          beq_iff_eq, one]
      simp only [outcome, World.endAccess, active, found, accessed, guarded,
        Bool.not_true, Bool.false_eq_true, if_false, modifyPin]
      simp only [eq_false holds, if_false, last, if_true]
      cases gone : world.replaced access with
      | false =>
          simp only [Bool.false_eq_true, if_false, false_and]
          exact ⟨trivial, rfl, fun _ => rfl⟩
      | true =>
          simp only [if_true, true_and]
          refine ⟨rfl, fun token => ?_⟩
          obtain ⟨pool, resolved, _⟩ := safe.consistent.pin found
          simp only [closeAccess, Store.modifyPool, ← samePool]
          rw [(Arena.modify_spec safe.consistent.pools resolved _).resolve]
          split_ifs with same
          · rw [same, resolved]
            rfl
          · rfl

/-- An access that fails to begin leaves everything as it was, and one that
begins leaves all pools and the faults of all threads as they were. -/
theorem Safe.beginAccess_eq
    (safe : Safe world)
    (quiet : ∀ other, (world.guards other).depth = 0 →
      (world.guards other).backingFaulted = false)
    (thread : Nat) (token : Arena.Token) (handlerReady : Bool) :
    let outcome := world.beginAccess thread token handlerReady
    match outcome.1 with
    | .error _ => outcome.2 = world
    | .ok _ =>
        outcome.2.store.pools = world.store.pools ∧
          ∀ other,
            (outcome.2.guards other).backingFaulted =
              (world.guards other).backingFaulted ∧
            (world.guards other).depth ≤ (outcome.2.guards other).depth := by
  intro outcome
  simp only [outcome, World.beginAccess]
  cases found : world.store.pins.resolve token with
  | none => exact rfl
  | some node =>
      obtain ⟨pool, resolved, fits⟩ := safe.consistent.pin found
      simp only [resolved]
      split_ifs with invalid direct conflict ready fresh
      · exact rfl
      · simp only [World.expose, if_pos fits]
        exact ⟨rfl, fun _ => ⟨rfl, le_rfl⟩⟩
      · exact rfl
      · exact rfl
      · simp only [World.expose, if_pos fits, modifyPin]
        refine ⟨trivial, fun other => ?_⟩
        by_cases here : other = thread
        · rw [here, Function.update_self]
          exact ⟨(quiet thread ((safe.idle thread).mp fresh)).symm,
            Nat.le_succ _⟩
        · rw [Function.update_of_ne here]
          exact ⟨rfl, le_rfl⟩
      · simp only [World.expose, if_pos fits, modifyPin]
        refine ⟨trivial, fun other => ?_⟩
        by_cases here : other = thread
        · rw [here, Function.update_self]
          exact ⟨rfl, Nat.le_succ _⟩
        · rw [Function.update_of_ne here]
          exact ⟨rfl, le_rfl⟩

/-! ## The ledger of faults -/

/-- What the calls so far mean for faults: the threads with a fault in the
scope that is open on them, and the pools whose backing was lost. -/
structure Ledger where
  faulted : Nat → Bool := fun _ => false
  invalid : Arena.Token → Bool := fun _ => false

/-- A fault counts against the scope it strikes.  Closing the scope settles
it: the pool of the scope is lost if the scope was struck, and the next scope
starts without faults.  A lost pool stays lost for as long as its token
resolves. -/
def Ledger.after (ledger : Ledger) (world : World) (call : Call) : Ledger where
  faulted thread :=
    (ledger.faulted thread || world.strikes thread call) &&
      !(world.closes call).any fun closed => closed.1 == thread
  invalid token :=
    (ledger.invalid token ||
      (world.closes call).any fun closed =>
        closed.2 == token && ledger.faulted closed.1) &&
    ((world.step call).2.store.pools.resolve token).isSome

/-- Calls one after another, with the ledger beside them. -/
def trace (world : World) (ledger : Ledger) : List Call → World × Ledger
  | [] => (world, ledger)
  | call :: calls =>
      trace (world.step call).2 (ledger.after world call) calls

/-- The flags of the source are what the ledger says. -/
structure Ledger.Agrees (ledger : Ledger) (world : World) : Prop where
  safe : Safe world
  quiet : ∀ thread, (world.guards thread).depth = 0 →
    (world.guards thread).backingFaulted = false
  faulted : ∀ thread,
    (world.guards thread).backingFaulted = ledger.faulted thread
  invalid : ∀ token,
    (world.store.pools.resolve token).any Pool.invalidBacking =
      ledger.invalid token

/-- The ledger only watches. -/
theorem trace_fst
    (world : World) (ledger : Ledger) (calls : List Call) :
    (world.trace ledger calls).1 = world.run calls := by
  induction calls generalizing world ledger with
  | nil => rfl
  | cons call calls trace_ih => exact trace_ih _ _

variable {ledger : Ledger}

/-- A call that closes no scope and strikes none, leaves the guards alone, and
leaves the pools as valid as they were. -/
theorem Ledger.Agrees.of_keeps
    (agrees : ledger.Agrees world)
    {call : Call}
    (closes : world.closes call = none)
    (strikes : ∀ thread, world.strikes thread call = false)
    (depth : ∀ thread, ((world.step call).2.guards thread).depth = 0 →
      ((world.step call).2.guards thread).backingFaulted = false)
    (faulted : ∀ thread,
      ((world.step call).2.guards thread).backingFaulted =
        (world.guards thread).backingFaulted)
    (keeps : ∀ token pool,
      (world.step call).2.store.pools.resolve token = some pool →
        pool.invalidBacking =
          (world.store.pools.resolve token).any Pool.invalidBacking) :
    (ledger.after world call).Agrees (world.step call).2 where
  safe := (agrees.safe.step call).2.1
  quiet := depth
  faulted thread := by
    simp only [Ledger.after, closes, strikes, Option.any_none, Bool.or_false,
      Bool.not_false, Bool.and_true]
    exact (faulted thread).trans (agrees.faulted thread)
  invalid token := by
    simp only [Ledger.after, closes, Option.any_none, Bool.or_false]
    cases found : (world.step call).2.store.pools.resolve token with
    | none => simp
    | some pool =>
        rw [Option.any_some, keeps token pool found, agrees.invalid]
        simp

/-- A call on the store leaves all faults as they were. -/
theorem Ledger.Agrees.onStore
    (agrees : ledger.Agrees world)
    {call : Call}
    (closes : world.closes call = none)
    (strikes : ∀ thread, world.strikes thread call = false)
    (guards : (world.step call).2.guards = world.guards)
    (keeps : Store.Keeps world.store (world.step call).2.store) :
    (ledger.after world call).Agrees (world.step call).2 := by
  refine agrees.of_keeps closes strikes ?_ ?_ ?_
  · rw [guards]
    exact agrees.quiet
  · rw [guards]
    exact fun _ => rfl
  · exact fun _ _ => keeps.validity

/-- A fault counts if a scope is open on the thread. -/
theorem Ledger.Agrees.fault
    (agrees : ledger.Agrees world)
    (thread : Nat) :
    (ledger.after world (.fault thread)).Agrees
      (world.step (.fault thread)).2 := by
  have idle := agrees.safe.scope_eq_nil_iff thread
  by_cases quiet : (world.guards thread).activePool = none
  · have stays : (world.step (.fault thread)).2 = world := by
      rw [World.step, World.fault, if_pos quiet]
    refine agrees.of_keeps rfl (fun other => ?_) ?_ ?_ ?_
    · by_cases here : thread = other
      · subst here
        simp [strikes, idle.mpr quiet]
      · simp [strikes, here]
    · rw [stays]
      exact agrees.quiet
    · rw [stays]
      exact fun _ => rfl
    · rw [stays]
      intro token pool found
      rw [found, Option.any_some]
  · have strikes (other : Nat) :
        world.strikes other (.fault thread) = (other == thread) := by
      by_cases here : thread = other
      · subst here
        simp [World.strikes, mt idle.mp quiet]
      · rw [World.strikes, beq_eq_false_iff_ne.mpr here, Bool.false_and,
          beq_eq_false_iff_ne.mpr (Ne.symm here)]
    have struck : (world.step (.fault thread)).2 =
        { world with
          guards := Function.update world.guards thread
            { world.guards thread with backingFaulted := true } } := by
      rw [World.step, World.fault, if_neg quiet]
    refine
      { safe := (agrees.safe.step _).2.1
        quiet := fun other => ?_
        faulted := fun other => ?_
        invalid := fun token => ?_ }
    · rw [struck]
      by_cases here : other = thread
      · simp only [here, Function.update_self]
        exact fun none => absurd ((agrees.safe.idle thread).mpr none) quiet
      · simp only [Function.update_of_ne here]
        exact agrees.quiet other
    · rw [struck]
      simp only [Ledger.after, strikes, closes, Option.any_none,
        Bool.not_false, Bool.and_true]
      by_cases here : other = thread
      · simp [here]
      · simp [here, agrees.faulted other]
    · simp only [Ledger.after, closes, Option.any_none, Bool.or_false]
      rw [struck, ← agrees.invalid]
      cases world.store.pools.resolve token with
      | none => rfl
      | some pool => simp

/-- Beginning an access agrees with the ledger. -/
theorem Ledger.Agrees.beginAccess
    (agrees : ledger.Agrees world)
    (thread : Nat) (token : Arena.Token) (handlerReady : Bool) :
    let call := Call.beginAccess thread token handlerReady
    (ledger.after world call).Agrees (world.step call).2 := by
  intro call
  have begun :
      (world.step call).2 = world ∨
        (world.step call).2.store.pools = world.store.pools ∧
          ∀ other,
            ((world.step call).2.guards other).backingFaulted =
              (world.guards other).backingFaulted ∧
            (world.guards other).depth ≤
              ((world.step call).2.guards other).depth := by
    have spec := agrees.safe.beginAccess_eq agrees.quiet thread token
      handlerReady
    simp only [call, World.step]
    generalize world.beginAccess thread token handlerReady = outcome at spec ⊢
    obtain ⟨result, next⟩ := outcome
    cases result with
    | error cause => exact Or.inl spec
    | ok _ => exact Or.inr spec
  rcases begun with stays | ⟨pools, guards⟩
  · refine agrees.onStore rfl (fun _ => rfl) ?_ ?_
    · rw [stays]
    · rw [stays]
      exact .refl world.store
  · refine agrees.of_keeps rfl (fun _ => rfl) (fun other none => ?_)
      (fun other => (guards other).1) fun _ _ => ?_
    · rw [(guards other).1]
      exact agrees.quiet other
        (Nat.eq_zero_of_le_zero (none ▸ (guards other).2))
    · exact (Store.Keeps.of_pools pools).validity

/-- A fault is forgotten when the last access of its thread ends. -/
theorem lift_faulted
    (world : World) (thread other : Nat) :
    (world.lift thread other).backingFaulted =
      if other = thread ∧ (world.guards thread).depth - 1 = 0 then false
      else (world.guards other).backingFaulted := by
  unfold lift
  by_cases here : other = thread
  · simp only [here, Function.update_self, true_and]
    split_ifs
    · rfl
    · rfl
  · simp only [Function.update_of_ne here, here, false_and, if_false]

/-- Ending an access closes the scope of its thread if no other guarded access
is open there. -/
theorem Safe.closes_endAccess
    (safe : Safe world)
    {index : Nat} {access : Access} {node : PinRecord}
    (there : world.accesses[index]? = some access)
    (active : access.active = true)
    (found : world.store.pins.resolve access.pin = some node) :
    world.closes (.endAccess index) =
      if access.guarded = true ∧ (world.guards access.thread).depth = 1 then
        some (access.thread, node.pool)
      else none := by
  simp only [closes, there, found, Option.bind_eq_bind, Option.bind_some,
    Access.guards, active, Bool.true_and, beq_self_eq_true, Bool.and_true,
    safe.scope_length]

/-- Closing a struck scope loses its pool. -/
theorem Ledger.Agrees.endAccess
    (agrees : ledger.Agrees world)
    (index : Nat) :
    (ledger.after world (.endAccess index)).Agrees
      (world.step (.endAccess index)).2 := by
  have idle (stays : (world.step (.endAccess index)).2 = world)
      (unclosed : world.closes (.endAccess index) = none) :
      (ledger.after world (.endAccess index)).Agrees
        (world.step (.endAccess index)).2 := by
    refine agrees.onStore unclosed (fun _ => rfl) ?_ ?_
    · rw [stays]
    · rw [stays]
      exact .refl world.store
  cases there : world.accesses[index]? with
  | none =>
      refine idle ?_ ?_
      · simp only [World.step, there]
      · simp only [World.closes, there, Option.bind_eq_bind, Option.bind_none]
  | some access =>
      cases active : access.active with
      | false =>
          refine idle ?_ ?_
          · simp [World.step, there, World.endAccess, active]
          · simp only [World.closes, there, Option.bind_eq_bind,
              Option.bind_some, Access.guards, active, Bool.false_and,
              Bool.false_eq_true, false_and, if_false]
            cases world.store.pins.resolve access.pin with
            | none => rfl
            | some node => rfl
      | true =>
          obtain ⟨node, found, _⟩ :=
            agrees.safe.accessed (List.mem_of_getElem? there) active
          have closes := agrees.safe.closes_endAccess there active found
          obtain ⟨_, guards, pools⟩ :=
            agrees.safe.endAccess_eq there active found
          have ended : (world.step (.endAccess index)).2 =
              (world.endAccess index access).2 := by
            simp only [World.step, there]
          refine
            { safe := (agrees.safe.step _).2.1
              quiet := fun thread => ?_
              faulted := fun thread => ?_
              invalid := fun token => ?_ }
          · rw [ended, guards]
            split_ifs with guarded
            · intro none
              rw [lift_faulted]
              rw [lift_depth world thread active guarded] at none
              split_ifs with closing
              · rfl
              · refine agrees.quiet thread ?_
                by_cases here : thread = access.thread
                · subst here
                  simp only [Access.guards, active, guarded, Bool.true_and,
                    beq_self_eq_true, if_true] at none
                  exact absurd ⟨rfl, none⟩ closing
                · simpa [Access.guards, Ne.symm here] using none
            · exact agrees.quiet thread
          · rw [ended, guards]
            simp only [Ledger.after, strikes, Bool.or_false, closes,
              ← agrees.faulted]
            cases guarded : access.guarded with
            | false => simp
            | true =>
                simp only [if_true, true_and, lift_faulted]
                by_cases here : thread = access.thread
                · subst here
                  have quiet := agrees.quiet access.thread
                  by_cases closing : (world.guards access.thread).depth = 1
                  · simp [closing]
                  · by_cases none : (world.guards access.thread).depth = 0
                    · simp [none, quiet none]
                    · have more :
                          ¬ (world.guards access.thread).depth - 1 = 0 := by
                        omega
                      simp [closing, more]
                · simp only [here, false_and, if_false]
                  split_ifs with closing
                  · simp [Ne.symm here]
                  · simp
          · simp only [Ledger.after, ended, pools, closes, ← agrees.invalid,
              replaced, agrees.faulted]
            by_cases closing : access.guarded = true ∧
                (world.guards access.thread).depth = 1
            · by_cases struck : ledger.faulted access.thread = true
              · by_cases here : token = node.pool
                · cases world.store.pools.resolve token with
                  | none => simp
                  | some pool => simp [closing.1, closing.2, struck, here]
                · cases world.store.pools.resolve token with
                  | none => simp
                    | some pool => simp [closing.1, closing.2, here, Ne.symm here]
              · cases world.store.pools.resolve token with
                | none => simp
                | some pool => simp [closing.1, closing.2, struck]
            · have unsettled : ¬ (access.guarded &&
                  (world.guards access.thread).depth == 1 &&
                  ledger.faulted access.thread) = true := by
                simp only [Bool.and_eq_true, beq_iff_eq]
                exact fun all => closing all.1
              simp only [closing, unsettled, if_false, Option.any_none,
                Bool.or_false]
              cases world.store.pools.resolve token with
              | none => rfl
              | some pool => simp

/-- Every call keeps the ledger true. -/
theorem Ledger.Agrees.step
    (agrees : ledger.Agrees world)
    (call : Call) :
    (ledger.after world call).Agrees (world.step call).2 := by
  cases call with
  | addPool fd requestedSize answers =>
      exact agrees.of_keeps rfl (fun _ => rfl) agrees.quiet (fun _ => rfl)
        fun _ _ => Store.addPool_validity agrees.safe.consistent fd
          requestedSize answers
  | destroyPoolResource token =>
      exact agrees.onStore rfl (fun _ => rfl) rfl (.destroyPoolResource _ token)
  | resize token requestedSize answers =>
      exact agrees.onStore rfl (fun _ => rfl) rfl
        (.resize _ token requestedSize answers)
  | addBuffer pool format offset width height stride answers =>
      exact agrees.onStore rfl (fun _ => rfl) rfl
        (.addBuffer _ pool format offset width height stride answers)
  | destroyBuffer token =>
      exact agrees.onStore rfl (fun _ => rfl) rfl (.destroyBuffer _ token)
  | pin token answers =>
      exact agrees.onStore rfl (fun _ => rfl) rfl (.pin _ token answers)
  | unpin token answers =>
      exact agrees.onStore rfl (fun _ => rfl) rfl (.unpin _ token answers)
  | prepareCopy token destinationLength userData queued answers later =>
      exact agrees.onStore rfl (fun _ => rfl) rfl
        (.prepareCopy _ token destinationLength userData queued answers later)
  | completeCopy copy userData result answers =>
      exact agrees.onStore rfl (fun _ => rfl) rfl
        (.completeCopy _ copy userData result answers)
  | beginAccess thread token handlerReady =>
      exact agrees.beginAccess thread token handlerReady
  | endAccess index => exact agrees.endAccess index
  | fault thread => exact agrees.fault thread

/-- A whole run keeps the ledger true. -/
theorem Ledger.Agrees.trace
    (agrees : ledger.Agrees world)
    (calls : List Call) :
    (world.trace ledger calls).2.Agrees (world.trace ledger calls).1 := by
  induction calls generalizing world ledger with
  | nil => exact agrees
  | cons call calls trace_ih => exact trace_ih (agrees.step call)

/-! ## Attribution -/

/-- An access to a lost pool is refused, as are its bytes, and no other pool
is refused for that reason. -/
theorem Ledger.Agrees.refuses_iff
    (agrees : ledger.Agrees world)
    {token : Arena.Token} {node : PinRecord}
    (found : world.store.pins.resolve token = some node) :
    (∀ thread handlerReady,
      (world.beginAccess thread token handlerReady).1 =
          .error .invalidBacking ↔
        ledger.invalid node.pool = true) ∧
    (world.store.bytes token = .error .invalidBacking ↔
      ledger.invalid node.pool = true) := by
  obtain ⟨pool, resolved, fits⟩ := agrees.safe.consistent.pin found
  have flag := agrees.invalid node.pool
  rw [resolved, Option.any_some] at flag
  rw [← flag]
  refine ⟨fun thread handlerReady => ?_, ?_⟩
  · simp only [World.beginAccess, found, resolved]
    split_ifs with invalid direct conflict ready fresh
    · simp [invalid]
    · simp [World.expose, fits, invalid]
    · simp [invalid]
    · simp [invalid]
    · simp [World.expose, fits, invalid]
    · simp [World.expose, fits, invalid]
  · simp only [Store.bytes, found, resolved]
    split_ifs with invalid unsafeNow
    · simp [invalid]
    · simp [invalid]
    · simp [invalid]

/-- In every state that calls on a new store can reach, on every thread: the
depth is the number of open guarded accesses; all of these are accesses to the
registered pool, a guarded access to another pool conflicts, and an access that
fails to begin changes nothing.  No pin under an open access can be dropped.  An
open access ends with an invalid backing if it closes a struck scope, and well
otherwise.  Exactly the pools lost in this way refuse accesses and bytes, for as
long as their tokens resolve. -/
theorem faults_are_attributed
    {limits : Limits} {poolCapacity bufferCapacity : Nat} {granted : Bool}
    {store : Store}
    (created : Store.init limits poolCapacity bufferCapacity granted =
      .ok store)
    (calls : List Call) :
    let reached := World.trace { store } {} calls
    let world := reached.1
    let ledger := reached.2
    world = World.run { store } calls ∧
    (∀ thread, (world.guards thread).depth = (world.scope thread).length) ∧
    (∀ thread access, access ∈ world.scope thread →
      (world.guards thread).activePool = some access.pool ∧
      ∃ node, world.store.pins.resolve access.pin = some node ∧
        node.pool.index = access.pool) ∧
    (∀ thread token node pool handlerReady access,
      world.store.pins.resolve token = some node →
      world.store.pools.resolve node.pool = some pool →
      pool.invalidBacking = false →
      pool.sealedDirect = false →
      access ∈ world.scope thread →
      access.pool ≠ node.pool.index →
      world.beginAccess thread token handlerReady =
        (.error .accessConflict, world)) ∧
    (∀ thread token handlerReady cause,
      (world.beginAccess thread token handlerReady).1 = .error cause →
      (world.beginAccess thread token handlerReady).2 = world) ∧
    (∀ access answers, access ∈ world.accesses → access.active = true →
      world.store.unpin access.pin answers =
        (.error .accessActive, world.store)) ∧
    (∀ index access, world.accesses[index]? = some access →
      access.active = true →
      (world.endAccess index access).1 =
        if access.guarded = true ∧ (world.scope access.thread).length = 1 ∧
            ledger.faulted access.thread = true then
          .error .invalidBacking
        else .ok ()) ∧
    (∀ token node, world.store.pins.resolve token = some node →
      (∀ thread handlerReady,
        (world.beginAccess thread token handlerReady).1 =
            .error .invalidBacking ↔
          ledger.invalid node.pool = true) ∧
      (world.store.bytes token = .error .invalidBacking ↔
        ledger.invalid node.pool = true)) ∧
    ∀ call token, ledger.invalid token = true →
      (world.step call).2.store.pools.resolve token ≠ none →
      (ledger.after world call).invalid token = true := by
  intro reached world ledger
  have start : Ledger.Agrees {} { store } :=
    { safe := (Store.init_unused created).safe
      quiet := fun _ _ => rfl
      faulted := fun _ => rfl
      invalid := fun token => by
        rw [(Store.init_unused created).pools]
        rfl }
  have agrees : ledger.Agrees world := start.trace calls
  have safe := agrees.safe
  refine ⟨trace_fst _ _ _, safe.scope_length, fun thread access inside => ?_,
    fun thread token node pool handlerReady access found resolved valid
      unsealed inside other => ?_,
    fun thread token handlerReady cause failed => ?_,
    fun access answers member active => ?_,
    fun index access there active => ?_,
    fun token node found => agrees.refuses_iff found,
    fun call token lost alive => ?_⟩
  · obtain ⟨member, active, guarded, rfl⟩ := mem_scope_iff.mp inside
    exact ⟨safe.exclusive member active guarded, safe.held member active⟩
  · obtain ⟨member, active, guarded, rfl⟩ := mem_scope_iff.mp inside
    have registered := safe.exclusive member active guarded
    simp [World.beginAccess, found, resolved, valid, unsealed, registered,
      other]
  · have begun := safe.beginAccess_eq agrees.quiet thread token handlerReady
    simp only [failed] at begun
    exact begun
  · obtain ⟨node, found, _, accessed⟩ := safe.accessed member active
    simp only [Store.unpin, found, accessed, ne_eq, not_false_eq_true, if_true]
  · obtain ⟨node, found, _⟩ :=
      safe.accessed (List.mem_of_getElem? there) active
    rw [(safe.endAccess_eq there active found).1]
    simp only [replaced, agrees.faulted, safe.scope_length, Bool.and_eq_true,
      beq_iff_eq, and_assoc]
  · simp only [Ledger.after, lost, Bool.true_or, Bool.true_and]
    exact Option.isSome_iff_ne_none.mpr alive

/-! ### A sample run -/

/-- A store for two pools, two buffers, and two pins. -/
def guardedStore : Store where
  limits := { maxPoolBytes := 8192 }
  pools :=
    { slots := [{ content := {}, nextFree := none },
        { content := {}, nextFree := some 0 }]
      free := some 1 }
  buffers :=
    { slots := [{ content := {}, nextFree := none },
        { content := {}, nextFree := some 0 }]
      free := some 1 }
  pins :=
    { slots := [{ content := {}, nextFree := none },
        { content := {}, nextFree := some 0 }]
      free := some 1 }

/-- Two pools with one pinned buffer each.  A fault comes in a scope with two
accesses to the first, which end in the order they began in. -/
def guardedCalls : List Call :=
  let answers : Answers :=
    { granted := true
      mapping := .ok 65536
      file := { shrinkSealed := some false, size := some 8192 } }
  let format : Format := { value := 0, bytesPerPixel := 4 }
  let first : Arena.Token := { index := 1, generation := 1 }
  let second : Arena.Token := { index := 0, generation := 1 }
  [.addPool 7 4096 answers,
    .addPool 8 4096 { answers with mapping := .ok 131072 },
    .addBuffer first format 0 16 16 64 answers,
    .addBuffer second format 0 16 16 64 answers,
    .pin first answers, .pin second answers,
    .beginAccess 0 first true, .beginAccess 0 first true,
    .beginAccess 0 second true, .fault 0, .endAccess 0, .endAccess 1]

theorem faults_are_attributed_sample :
    let world := World.run { store := guardedStore } guardedCalls
    (∀ thread handlerReady,
      (world.beginAccess thread { index := 1, generation := 1 }
        handlerReady).1 = .error .invalidBacking) ∧
    ∀ thread handlerReady,
      (world.beginAccess thread { index := 0, generation := 1 }
        handlerReady).1 ≠ .error .invalidBacking := by
  intro world
  obtain ⟨same, _, _, _, _, _, _, refuses, _⟩ :=
    @faults_are_attributed { maxPoolBytes := 8192 } 2 2 true guardedStore rfl
      guardedCalls
  rw [same] at refuses
  refine ⟨fun thread handlerReady => ?_, fun thread handlerReady => ?_⟩
  · exact ((refuses { index := 1, generation := 1 } _ rfl).1 thread
      handlerReady).mpr (by decide +kernel)
  · exact mt ((refuses { index := 0, generation := 1 } _ rfl).1 thread
      handlerReady).mp (by decide +kernel)

end World
end Shm
end Wayring
