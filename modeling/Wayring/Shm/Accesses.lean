import Wayring.Shm.Operations

/-!
# Scoped access

Every active access holds its pin, and every guarded access holds the fault
guard of its thread, so that ending an access fails no assertion.
-/

namespace Wayring
namespace Shm

/-- An active access to a pin. -/
def Access.holds (access : Access) (pin : Arena.Token) : Bool :=
  access.active && access.pin == pin

/-- An active access under a thread's guard. -/
def Access.guards (access : Access) (thread : Nat) : Bool :=
  access.active && access.guarded && access.thread == thread

namespace World

/-- The invariant of the store and of the accesses to it. -/
structure Safe (world : World) : Prop where
  consistent : world.store.Consistent
  referenced : world.store.Referenced
  counted : ∀ {token record}, world.store.pins.resolve token = some record →
    record.accessCount = world.accesses.countP fun access =>
      access.holds token
  held : ∀ {access}, access ∈ world.accesses → access.active = true →
    ∃ record, world.store.pins.resolve access.pin = some record ∧
      record.pool.index = access.pool
  depth : ∀ thread, (world.guards thread).depth =
    world.accesses.countP fun access => access.guards thread
  idle : ∀ thread, (world.guards thread).activePool = none ↔
    (world.guards thread).depth = 0
  exclusive : ∀ {access}, access ∈ world.accesses → access.active = true →
    access.guarded = true →
    (world.guards access.thread).activePool = some access.pool

variable {world : World}

/-- A pin under active access has an access count. -/
theorem Safe.accessed
    (safe : Safe world)
    {access : Access}
    (member : access ∈ world.accesses)
    (active : access.active = true) :
    ∃ record, world.store.pins.resolve access.pin = some record ∧
      record.pool.index = access.pool ∧ record.accessCount ≠ 0 := by
  obtain ⟨record, found, pool⟩ := safe.held member active
  refine ⟨record, found, pool, ?_⟩
  rw [safe.counted found]
  exact (List.countP_pos_iff.mpr
    ⟨access, member, by simp [Access.holds, active]⟩).ne'

/-- Operations of the store leave accesses alone. -/
theorem Safe.of_sound
    {α : Type} {outcome : Except Error α × Store}
    (safe : Safe world)
    (sound : Store.Sound world.store outcome) :
    Safe { world with store := outcome.2 } := by
  obtain ⟨more, follows⟩ := sound.follows
  have kept {access : Access} (member : access ∈ world.accesses)
      (active : access.active = true) :
      outcome.2.pins.resolve access.pin =
        world.store.pins.resolve access.pin := by
    obtain ⟨record, found, _, accessed⟩ := safe.accessed member active
    rcases follows.kept access.pin with same | ⟨idle, _⟩
    · exact same
    · exact absurd (idle record found) accessed
  refine
    { consistent := sound.consistent
      referenced := sound.referenced
      counted := fun {token record} found => ?_
      held := fun {access} member active => ?_
      depth := safe.depth
      idle := safe.idle
      exclusive := safe.exclusive }
  · rcases follows.kept token with same | ⟨idle, idleNow⟩
    · exact safe.counted (same.symm.trans found)
    · rw [idleNow record found]
      refine (List.countP_eq_zero.mpr fun access member holds => ?_).symm
      rw [Access.holds, Bool.and_eq_true, beq_iff_eq] at holds
      obtain ⟨before, beforeFound, _, accessed⟩ :=
        safe.accessed member holds.1
      rw [holds.2] at beforeFound
      exact accessed (idle before beforeFound)
  · rw [kept member active]
    exact safe.held member active

/-! ## Access counts -/

/-- Counting an access changes nothing else in the store. -/
theorem modifyPin_spec
    {store : Store} {token : Arena.Token} {record : PinRecord}
    {change : PinRecord → PinRecord}
    (consistent : store.Consistent)
    (found : store.pins.resolve token = some record)
    (samePool : (change record).pool = record.pool)
    (sameMetadata : (change record).metadata = record.metadata) :
    let next := { store with pins := store.pins.modify token.index change }
    next.Consistent ∧ Store.Elapsed store next [] ∧
      ∀ other, next.pins.resolve other =
        if other = token then some (change record)
        else store.pins.resolve other := by
  intro next
  have modified := Arena.modify_spec consistent.pins found change
  refine ⟨?_, ⟨rfl, (List.append_nil _).symm, Arena.Follows.refl _ _,
    Arena.Follows.refl _ _, modified.follows⟩, modified.resolve⟩
  refine
    { pools := consistent.pools
      buffers := consistent.buffers
      pins := modified.wellFormed
      buffer := consistent.buffer
      pin := fun {other content} there => ?_
      counts := fun {other pool} there => ?_
      sized := consistent.sized
      lifetime := consistent.lifetime }
  · rw [modified.resolve] at there
    split_ifs at there
    · cases there
      rw [samePool, sameMetadata]
      exact consistent.pin found
    · exact consistent.pin there
  · refine ⟨(consistent.counts there).1, ?_⟩
    have count := modified.count fun content => content.pool == other
    rw [samePool] at count
    rw [(consistent.counts there).2]
    exact (Nat.add_right_cancel count).symm

/-! ## Beginning an access -/

/-- An access that begins counts on its pin, and on its guard if it has one. -/
theorem Safe.expose
    (safe : Safe world)
    {token : Arena.Token} {record : PinRecord} {pool : Pool} {thread : Nat}
    {guarded : Bool} {guards : Nat → Guard}
    (found : world.store.pins.resolve token = some record)
    (resolved : world.store.pools.resolve record.pool = some pool)
    (depth : ∀ other, (guards other).depth = (world.guards other).depth +
      if guarded && thread == other then 1 else 0)
    (idle : ∀ other, (guards other).activePool = none ↔
      (guards other).depth = 0)
    (kept : ∀ other pool, (world.guards other).activePool = some pool →
      (guards other).activePool = some pool)
    (here : guarded = true →
      (guards thread).activePool = some record.pool.index) :
    let outcome :=
      { world with guards }.expose thread token record pool guarded
    outcome.1 = .ok () ∧ Safe outcome.2 ∧
      Store.Elapsed world.store outcome.2.store [] := by
  obtain ⟨fitting, fittingFound, fits⟩ := safe.consistent.pin found
  rw [resolved, Option.some.injEq] at fittingFound
  subst fittingFound
  obtain ⟨consistent, elapsed, resolve⟩ := @modifyPin_spec world.store token
    record (fun record => { record with accessCount := record.accessCount + 1 })
    safe.consistent found rfl rfl
  intro outcome
  simp only [outcome, World.expose, if_pos fits, modifyPin]
  refine ⟨trivial,
    { consistent
      referenced := safe.referenced
      counted := fun {other content} there => ?_
      held := fun {access} member active => ?_
      depth := fun other => ?_
      idle
      exclusive := fun {access} member active isGuarded => ?_ }, elapsed⟩
  · rw [resolve] at there
    rw [List.countP_append]
    split_ifs at there with same
    · cases there
      simp only [same, safe.counted found, List.countP_singleton, Access.holds,
        Bool.true_and, beq_self_eq_true, if_true]
    · rw [safe.counted there]
      simp [Access.holds, Ne.symm same]
  · rw [List.mem_append, List.mem_singleton] at member
    simp only [resolve]
    rcases member with member | rfl
    · obtain ⟨content, contentFound, samePool⟩ := safe.held member active
      split_ifs with same
      · rw [same, found, Option.some.injEq] at contentFound
        subst contentFound
        exact ⟨_, rfl, samePool⟩
      · exact ⟨content, contentFound, samePool⟩
    · exact ⟨_, if_pos rfl, rfl⟩
  · simp only [depth, safe.depth, List.countP_append, List.countP_singleton,
      Access.guards, Bool.true_and]
  · rw [List.mem_append, List.mem_singleton] at member
    rcases member with member | rfl
    · exact kept _ _ (safe.exclusive member active isGuarded)
    · exact here isGuarded

/-- The guards after one more access to a pool on a thread. -/
def deepen (world : World) (thread pool : Nat) : Nat → Guard :=
  let guard := world.guards thread
  let guard :=
    if guard.activePool = none then
      { guard with activePool := some pool, backingFaulted := false }
    else guard
  Function.update world.guards thread { guard with depth := guard.depth + 1 }

/-- Beginning an access deepens the scope of its thread alone. -/
theorem deepen_depth
    (world : World) (thread pool other : Nat) :
    (world.deepen thread pool other).depth = (world.guards other).depth +
      if true && thread == other then 1 else 0 := by
  unfold deepen
  by_cases here : other = thread
  · subst here
    simp only [Function.update_self, Bool.true_and, beq_self_eq_true, if_true]
    split_ifs
    · rfl
    · rfl
  · simp [Function.update_of_ne here, Ne.symm here]

/-- A thread without accesses guards no pool. -/
theorem Safe.deepen_idle
    (safe : Safe world)
    (thread pool other : Nat) :
    (world.deepen thread pool other).activePool = none ↔
      (world.deepen thread pool other).depth = 0 := by
  unfold deepen
  by_cases here : other = thread
  · subst here
    simp only [Function.update_self]
    split_ifs with none
    · simp
    · simp [none]
  · simp only [Function.update_of_ne here]
    exact safe.idle other

/-- A thread that guards a pool goes on guarding it. -/
theorem deepen_kept
    (thread pool other : Nat)
    {active : Nat}
    (same : (world.guards other).activePool = some active) :
    (world.deepen thread pool other).activePool = some active := by
  unfold deepen
  by_cases here : other = thread
  · subst here
    simp [same]
  · simp [Function.update_of_ne here, same]

/-- A thread that begins an access guards its pool. -/
theorem deepen_here
    {thread pool : Nat}
    (agrees : ¬ (world.guards thread).activePool.any
      fun active => active ≠ pool) :
    (world.deepen thread pool thread).activePool = some pool := by
  unfold deepen
  simp only [Function.update_self]
  cases active : (world.guards thread).activePool with
  | none => simp
  | some current =>
      rw [active] at agrees
      simpa [active] using agrees

/-- Beginning an access fails no assertion. -/
theorem Safe.beginAccess
    (safe : Safe world)
    (thread : Nat) (token : Arena.Token) (handlerReady : Bool) :
    let outcome := world.beginAccess thread token handlerReady
    outcome.1 ≠ .error .unreachable ∧ Safe outcome.2 ∧
      Store.Elapsed world.store outcome.2.store [] := by
  have still : Store.Elapsed world.store world.store [] :=
    (Store.Follows.refl _).toElapsed
  intro outcome
  simp only [outcome, World.beginAccess]
  cases found : world.store.pins.resolve token with
  | none => exact ⟨by simp, safe, still⟩
  | some record =>
      obtain ⟨pool, resolved, _⟩ := safe.consistent.pin found
      simp only [resolved]
      by_cases invalid : pool.invalidBacking = true
      · rw [if_pos invalid]
        exact ⟨by simp, safe, still⟩
      rw [if_neg invalid]
      by_cases direct : pool.sealedDirect = true
      · rw [if_pos direct]
        obtain ⟨opened, safeNow, elapsed⟩ := @Safe.expose world safe token
          record pool thread false world.guards found resolved (by simp)
          safe.idle (fun _ _ same => same) (by simp)
        exact ⟨fun failed => absurd (opened.symm.trans failed) (by simp),
          safeNow, elapsed⟩
      rw [if_neg direct]
      by_cases conflict : (world.guards thread).activePool.any
          fun active => active ≠ record.pool.index
      · rw [if_pos conflict]
        exact ⟨by simp, safe, still⟩
      rw [if_neg conflict]
      by_cases ready : handlerReady = true
      · simp only [ready, Bool.not_true, Bool.false_eq_true, if_false]
        obtain ⟨opened, safeNow, elapsed⟩ := safe.expose found resolved
          (deepen_depth world thread record.pool.index)
          (safe.deepen_idle thread record.pool.index)
          (fun other active same =>
            deepen_kept thread record.pool.index other same)
          (fun _ => deepen_here conflict)
        exact ⟨fun failed => absurd (opened.symm.trans failed) (by simp),
          safeNow, elapsed⟩
      · simp only [Bool.not_eq_true] at ready
        simp only [ready, Bool.not_false, if_true]
        exact ⟨by simp, safe, still⟩

/-! ## Ending an access -/

/-- One access of the kind ended. -/
theorem countP_ended
    {accesses : List Access} {index : Nat} {old : Access}
    (found : accesses[index]? = some old)
    (new : Access) (kind : Access → Bool)
    (ended : kind new = false) :
    (accesses.set index new).countP kind =
      accesses.countP kind - if kind old then 1 else 0 := by
  have count := ListWrites.countP_set found new kind
  rw [ended, if_neg Bool.false_ne_true] at count
  exact Nat.eq_sub_of_add_eq count

/-- An access ends: its pin and its guard count one less. -/
theorem Safe.close
    (safe : Safe world)
    {index : Nat} {access : Access} {record : PinRecord}
    {guards : Nat → Guard}
    (there : world.accesses[index]? = some access)
    (active : access.active = true)
    (found : world.store.pins.resolve access.pin = some record)
    (depth : ∀ thread, (guards thread).depth = (world.guards thread).depth -
      if access.guards thread then 1 else 0)
    (idle : ∀ thread, (guards thread).activePool = none ↔
      (guards thread).depth = 0)
    (kept : ∀ thread, (guards thread).depth ≠ 0 →
      (guards thread).activePool = (world.guards thread).activePool) :
    let next :=
      ({ world with guards }.modifyPin access.pin.index fun record =>
        { record with accessCount := record.accessCount - 1 }).closeAccess
        index access
    Safe next ∧ Store.Elapsed world.store next.store [] := by
  have member : access ∈ world.accesses := List.mem_of_getElem? there
  obtain ⟨consistent, elapsed, resolve⟩ := @modifyPin_spec world.store
    access.pin record
    (fun record => { record with accessCount := record.accessCount - 1 })
    safe.consistent found rfl rfl
  have depthNow (thread : Nat) : (guards thread).depth =
      (world.accesses.set index
        { access with active := false, bytes := {} }).countP
        fun access => access.guards thread := by
    rw [depth, safe.depth, countP_ended there _ _ (by simp [Access.guards])]
  have memberOf {other : Access}
      (inside : other ∈ world.accesses.set index
        { access with active := false, bytes := {} })
      (otherActive : other.active = true) : other ∈ world.accesses := by
    rcases List.mem_or_eq_of_mem_set inside with before | rfl
    · exact before
    · cases otherActive
  refine ⟨
    { consistent
      referenced := safe.referenced
      counted := fun {other content} contentFound => ?_
      held := fun {other} inside otherActive => ?_
      depth := depthNow
      idle
      exclusive := fun {other} inside otherActive isGuarded => ?_ }, elapsed⟩
  · simp only [closeAccess, modifyPin, resolve] at contentFound ⊢
    rw [countP_ended there _ _ (by simp [Access.holds])]
    split_ifs at contentFound with same
    · cases contentFound
      simp only [safe.counted found, same, Access.holds, active, Bool.true_and,
        beq_self_eq_true, if_true]
    · rw [safe.counted contentFound]
      simp [Access.holds, Ne.symm same]
  · obtain ⟨content, contentFound, samePool⟩ :=
      safe.held (memberOf inside otherActive) otherActive
    simp only [closeAccess, modifyPin, resolve]
    split_ifs with same
    · rw [same, found, Option.some.injEq] at contentFound
      subst contentFound
      exact ⟨_, rfl, samePool⟩
    · exact ⟨content, contentFound, samePool⟩
  · have deep : (guards other.thread).depth ≠ 0 := by
      rw [depthNow]
      exact (List.countP_pos_iff.mpr
        ⟨other, inside, by simp [Access.guards, otherActive, isGuarded]⟩).ne'
    exact (kept _ deep).trans
      (safe.exclusive (memberOf inside otherActive) otherActive isGuarded)

/-- Marking the backing of a pool invalid leaves its mapping alone. -/
theorem Safe.invalidate
    (safe : Safe world)
    {token : Arena.Token} {pool : Pool}
    (resolved : world.store.pools.resolve token = some pool) :
    let store := world.store.modifyPool token.index fun pool =>
      { pool with invalidBacking := true }
    Safe { world with store } ∧ Store.Elapsed world.store store [] := by
  have modified := Arena.modify_spec safe.consistent.pools resolved
    fun pool => { pool with invalidBacking := true }
  have sized : pool.Sized := safe.consistent.sized resolved
  have written := @Store.Consistent.writePool world.store safe.consistent token
    pool [] resolved (fun pool => { pool with invalidBacking := true }) rfl rfl
    le_rfl (Or.inr le_rfl) sized
    (fun index => by
      rw [List.append_nil, safe.consistent.lifetime]
      split_ifs with here
      · rw [here, Arena.current_of_resolve resolved]
        rfl
      · rfl)
  simp only [List.append_nil] at written
  refine ⟨
    { consistent := written
      referenced := fun {other content} found => ?_
      counted := safe.counted
      held := safe.held
      depth := safe.depth
      idle := safe.idle
      exclusive := safe.exclusive },
    ⟨rfl, (List.append_nil _).symm, modified.follows, Arena.Follows.refl _ _,
      Arena.Follows.refl _ _⟩⟩
  have before := modified.resolve other
  split_ifs at before
  · cases before.symm.trans found
    have referenced : pool.Referenced := safe.referenced resolved
    exact referenced
  · exact safe.referenced (before.symm.trans found)

/-- The guards after one access less on a thread. -/
def lift (world : World) (thread : Nat) : Nat → Guard :=
  let guard := world.guards thread
  let guard := { guard with depth := guard.depth - 1 }
  Function.update world.guards thread
    (if guard.depth = 0 then
      { guard with activePool := none, backingFaulted := false }
    else guard)

/-- Ending an access lifts the scope of its thread alone. -/
theorem lift_depth
    (world : World) {access : Access} (thread : Nat)
    (active : access.active = true)
    (guarded : access.guarded = true) :
    (world.lift access.thread thread).depth = (world.guards thread).depth -
      if access.guards thread then 1 else 0 := by
  unfold lift
  by_cases here : thread = access.thread
  · subst here
    simp only [Function.update_self, Access.guards, active, guarded,
      Bool.true_and, beq_self_eq_true, if_true]
    split_ifs
    · rfl
    · rfl
  · simp [Function.update_of_ne here, Access.guards, Ne.symm here]

/-- A thread whose last access ended guards no pool. -/
theorem Safe.lift_idle
    (safe : Safe world)
    (from_ thread : Nat) :
    (world.lift from_ thread).activePool = none ↔
      (world.lift from_ thread).depth = 0 := by
  unfold lift
  by_cases here : thread = from_
  · subst here
    simp only [Function.update_self]
    split_ifs with last
    · simp [last]
    · simp only [safe.idle, last, iff_false]
      omega
  · simp only [Function.update_of_ne here]
    exact safe.idle thread

/-- A thread with accesses left goes on guarding its pool. -/
theorem lift_kept
    (world : World) (from_ thread : Nat)
    (deep : (world.lift from_ thread).depth ≠ 0) :
    (world.lift from_ thread).activePool = (world.guards thread).activePool := by
  unfold lift at deep ⊢
  by_cases here : thread = from_
  · subst here
    simp only [Function.update_self] at deep ⊢
    split_ifs at deep ⊢ with last
    · exact absurd last deep
    · rfl
  · simp only [Function.update_of_ne here]

/-- Ending an access fails no assertion. -/
theorem Safe.endAccess
    (safe : Safe world)
    {index : Nat} {access : Access}
    (there : world.accesses[index]? = some access) :
    let outcome := world.endAccess index access
    outcome.1 ≠ .error .unreachable ∧ Safe outcome.2 ∧
      Store.Elapsed world.store outcome.2.store [] := by
  have still : Store.Elapsed world.store world.store [] :=
    (Store.Follows.refl _).toElapsed
  have member : access ∈ world.accesses := List.mem_of_getElem? there
  intro outcome
  cases active : access.active with
  | false =>
      simp only [outcome, World.endAccess, active, Bool.not_false, if_true]
      exact ⟨by simp, safe, still⟩
  | true =>
      obtain ⟨record, found, pool, accessed⟩ := safe.accessed member active
      cases guarded : access.guarded with
      | false =>
          have closed := @Safe.close world safe index access record world.guards
            there active found (by simp [Access.guards, guarded]) safe.idle
            (fun _ _ => rfl)
          simp only [outcome, World.endAccess, active, found, accessed, guarded,
            Bool.not_true, Bool.not_false, Bool.false_eq_true, if_true,
            if_false]
          exact ⟨by simp, closed⟩
      | true =>
          have here := safe.exclusive member active guarded
          have deep : (world.guards access.thread).depth ≠ 0 := by
            intro none
            rw [(safe.idle access.thread).mpr none] at here
            cases here
          have closed := @Safe.close world safe index access record
            (world.lift access.thread) there active found
            (fun thread => lift_depth world thread active guarded)
            (safe.lift_idle access.thread) (lift_kept world access.thread)
          have holds : ¬ ((world.guards access.thread).activePool ≠
              some access.pool ∨ (world.guards access.thread).depth = 0) := by
            simp [here, deep]
          obtain ⟨poolRecord, resolved, _⟩ := safe.consistent.pin found
          have invalid := @Safe.invalidate _ closed.1 record.pool poolRecord
            resolved
          rw [pool] at invalid
          simp only [outcome, World.endAccess, active, found, accessed, guarded,
            Bool.not_true, Bool.false_eq_true, if_false, modifyPin]
          simp only [eq_false holds, if_false]
          by_cases lost : (world.guards access.thread).depth - 1 = 0 ∧
              (world.guards access.thread).backingFaulted = true
          · simp only [eq_true lost, if_true]
            exact ⟨by simp, invalid.1, closed.2.trans invalid.2⟩
          · simp only [eq_false lost, if_false]
            exact ⟨by simp, closed⟩

/-- A fault leaves the store alone. -/
theorem Safe.fault
    (safe : Safe world)
    (thread : Nat) :
    Safe (world.fault thread) ∧
      Store.Elapsed world.store (world.fault thread).store [] := by
  have still : Store.Elapsed world.store world.store [] :=
    (Store.Follows.refl _).toElapsed
  unfold World.fault
  split_ifs with quiet
  · exact ⟨safe, still⟩
  have same (other : Nat) :
      (Function.update world.guards thread
        { world.guards thread with backingFaulted := true } other).activePool =
        (world.guards other).activePool ∧
      (Function.update world.guards thread
        { world.guards thread with backingFaulted := true } other).depth =
        (world.guards other).depth := by
    by_cases here : other = thread
    · subst here
      simp
    · simp [Function.update_of_ne here]
  refine ⟨
    { consistent := safe.consistent
      referenced := safe.referenced
      counted := safe.counted
      held := safe.held
      depth := fun other => (same other).2.trans (safe.depth other)
      idle := fun other => ?_
      exclusive := fun member active guarded =>
        (same _).1.trans (safe.exclusive member active guarded) }, still⟩
  rw [(same other).1, (same other).2]
  exact safe.idle other

end World
end Shm
end Wayring
