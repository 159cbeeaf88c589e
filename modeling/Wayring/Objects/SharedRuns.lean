import Wayring.Objects.SharedSteps

/-!
# Runs of the shared pool

A run of calls on the pool has the results of the same run on the maps.  From
what one call does to the maps follow the isolation of namespaces, that failed
calls change nothing, and that a handle never denotes a later object.
-/

namespace Wayring

/-! ## What one call does to the maps -/

namespace MapWorld

variable {world next : MapWorld} {result : SharedResult}
  {operation : SharedOperation}

/-- A call leaves the maps alone, drops entries of its slot's map, or adds one
entry to it under the next generation. -/
inductive Effect
    (world : MapWorld)
    (slot : Option Nat) : SharedResult → MapWorld → Prop
  | unchanged {result : SharedResult}
      (plain : insertions [result] = 0) : Effect world slot result world
  | counted {reply : SharedReply} {next : MapWorld}
      (plain : insertions [.ok reply] = 0)
      (maps : next.maps = world.maps)
      (issued : next.issued = world.issued) :
      Effect world slot (.ok reply) next
  | shrunk {reply : SharedReply} {next : MapWorld} {here : Nat}
      {content : Option ObjectMap}
      (plain : insertions [.ok reply] = 0)
      (target : slot = some here)
      (maps : next.maps = Function.update world.maps here content)
      (issued : next.issued = world.issued)
      (kept : ∀ map, content = some map → ∀ entry, entry ∈ map.entries →
        ∃ before, world.maps here = some before ∧ entry ∈ before.entries) :
      Effect world slot (.ok reply) next
  | added {next : MapWorld} {here id : Nat} {object : Object}
      {before : ObjectMap}
      (target : slot = some here)
      (live : world.maps here = some before)
      (maps : next.maps = Function.update world.maps here
        (some (before.add
          { handle := { id, generation := nextGeneration^[world.issued] 1 }
            object })))
      (issued : next.issued = world.issued + 1) :
      Effect world slot
        (.ok (.inserted
          { id, generation := nextGeneration^[world.issued] 1 })) next

theorem addWith_effect
    {slot : Nat} {object : Object}
    {accepted : ObjectMap → Except Error Nat} {taken : Except Error MapWorld}
    (counts : ∀ after, taken = .ok after →
      after.maps = world.maps ∧ after.issued = world.issued)
    (stepped : world.addWith slot object accepted taken =
      some (result, next)) :
    Effect world (some slot) result next := by
  unfold addWith at stepped
  cases live : world.maps slot with
  | none =>
      rw [live] at stepped
      cases stepped
  | some map =>
      rw [live] at stepped
      simp only [Option.map_some, Option.some.injEq] at stepped
      cases choice : accepted map with
      | error cause =>
          rw [choice] at stepped
          cases stepped
          exact .unchanged rfl
      | ok id =>
          rw [choice] at stepped
          cases taken with
          | error cause =>
              cases stepped
              exact .unchanged rfl
          | ok after =>
              obtain ⟨maps, issued⟩ := counts after rfl
              cases stepped
              rw [issued]
              refine @Effect.added _ _ _ slot id object map rfl live ?_ rfl
              simp only [maps]

/-- Taking an entry adds no object. -/
theorem take_counts
    {granted : Bool} {after : MapWorld}
    (taken : world.take granted = .ok after) :
    after.maps = world.maps ∧ after.issued = world.issued := by
  unfold take at taken
  split_ifs at taken <;> cases taken <;> exact ⟨rfl, rfl⟩

/-- Taking a reserved entry adds no object. -/
theorem takeReserved_counts
    {after : MapWorld}
    (taken : world.takeReserved = .ok after) :
    after.maps = world.maps ∧ after.issued = world.issued := by
  unfold takeReserved at taken
  split_ifs at taken
  cases taken
  exact ⟨rfl, rfl⟩

theorem read_effect
    {slot : Nat} {answer : ObjectMap → SharedResult}
    (plain : ∀ map, insertions [answer map] = 0)
    (stepped : world.read slot answer = some (result, next)) :
    Effect world (some slot) result next := by
  unfold read at stepped
  obtain ⟨map, _, same⟩ := Option.map_eq_some_iff.mp stepped
  cases same
  exact .unchanged (plain map)

theorem insertions_dispatch
    (outcome : Except Error Dispatch) :
    insertions [outcome.map .dispatch] = 0 := by
  cases outcome <;> rfl

/-- What any call does to the maps. -/
theorem step_effect
    (stepped : world.step operation = some (result, next)) :
    Effect world operation.slot result next := by
  cases operation with
  | init slot connectionGeneration quota =>
      simp only [step] at stepped
      split_ifs at stepped
      · cases stepped
        exact .unchanged rfl
      · cases stepped
        refine .shrunk rfl rfl rfl rfl fun map same entry member => ?_
        cases same
        cases member
  | deinit slot =>
      obtain ⟨map, _, same⟩ := Option.map_eq_some_iff.mp stepped
      cases same
      refine .shrunk rfl rfl rfl rfl fun map none => ?_
      cases none
  | insert slot id interface version context granted =>
      exact addWith_effect (fun _ => take_counts) stepped
  | insertReserved slot id interface version context =>
      exact addWith_effect (fun _ => takeReserved_counts) stepped
  | insertServer slot interface version context granted =>
      exact addWith_effect (fun _ => take_counts) stepped
  | get slot id => exact read_effect (fun _ => rfl) stepped
  | resolve slot handle => exact read_effect (fun _ => rfl) stepped
  | lookupHandle slot id => exact read_effect (fun _ => rfl) stepped
  | request slot id opcode =>
      exact read_effect (fun _ => insertions_dispatch _) stepped
  | event slot id opcode =>
      exact read_effect (fun _ => insertions_dispatch _) stepped
  | remove slot handle =>
      obtain ⟨map, live, same⟩ := Option.map_eq_some_iff.mp stepped
      cases found : map.resolve handle with
      | none =>
          simp only [found] at same
          cases same
          exact .unchanged rfl
      | some entry =>
          simp only [found] at same
          cases same
          refine .shrunk rfl rfl rfl rfl fun dropped same entry member => ?_
          cases same
          exact ⟨map, live, List.mem_of_mem_filter member⟩
  | reserve count =>
      simp only [step] at stepped
      split_ifs at stepped
      · cases stepped
        exact .unchanged rfl
      · cases stepped
        exact .counted rfl rfl rfl
  | restoreReservation =>
      simp only [step] at stepped
      split_ifs at stepped
      cases stepped
      exact .counted rfl rfl rfl

/-- A call on one slot does not change the map of another. -/
theorem Effect.other
    {slot : Option Nat} {other : Nat}
    (effect : Effect world slot result next)
    (apart : slot ≠ some other) : next.maps other = world.maps other := by
  cases effect with
  | unchanged => rfl
  | counted _ maps _ => rw [maps]
  | shrunk _ target maps _ _ =>
      subst target
      rw [maps, Function.update_of_ne]
      rintro rfl
      exact apart rfl
  | added target _ maps _ =>
      subst target
      rw [maps, Function.update_of_ne]
      rintro rfl
      exact apart rfl

/-- The count of insertions. -/
theorem Effect.issued_eq
    {slot : Option Nat}
    (effect : Effect world slot result next) :
    next.issued = world.issued + insertions [result] := by
  cases effect with
  | unchanged plain => rw [plain, Nat.add_zero]
  | counted plain _ issued => rw [plain, issued, Nat.add_zero]
  | shrunk plain _ _ issued _ => rw [plain, issued, Nat.add_zero]
  | added _ _ _ issued => exact issued

/-- The generation of an inserted handle. -/
theorem Effect.inserted
    {slot : Option Nat} {handle : Handle}
    (effect : Effect world slot (.ok (.inserted handle)) next) :
    handle.generation = nextGeneration^[world.issued] 1 := by
  cases effect with
  | unchanged plain => cases plain
  | counted plain => cases plain
  | shrunk plain => cases plain
  | added => rfl

/-- The entries of a map after a call. -/
theorem Effect.entries
    {slot : Option Nat} {other : Nat} {map : ObjectMap}
    {entry : ObjectEntry}
    (effect : Effect world slot result next)
    (live : next.maps other = some map)
    (member : entry ∈ map.entries) :
    (∃ before, world.maps other = some before ∧ entry ∈ before.entries) ∨
      insertions [result] = 1 ∧
        entry.handle.generation = nextGeneration^[world.issued] 1 := by
  by_cases here : slot = some other
  · subst here
    cases effect with
    | unchanged => exact Or.inl ⟨map, live, member⟩
    | counted _ maps _ => exact Or.inl ⟨map, maps ▸ live, member⟩
    | shrunk _ target maps _ kept =>
        cases target
        rw [maps, Function.update_self] at live
        exact Or.inl (kept map live entry member)
    | added target before maps _ =>
        cases target
        rw [maps, Function.update_self, Option.some.injEq] at live
        subst live
        rcases List.mem_append.mp member with old | new
        · exact Or.inl ⟨_, before, old⟩
        · rw [List.mem_singleton.mp new]
          exact Or.inr ⟨rfl, rfl⟩
  · rw [effect.other here] at live
    exact Or.inl ⟨map, live, member⟩

/-- Lookups and removals answer from the map of their slot alone. -/
theorem step_congr
    {left right : MapWorld} {slot : Nat}
    (sameMap : left.maps slot = right.maps slot)
    (isLocal : operation.isLocal)
    (target : operation.slot = some slot) :
    (left.step operation).map Prod.fst =
      (right.step operation).map Prod.fst := by
  cases operation with
  | get | resolve | lookupHandle | request | event =>
      cases target
      simp only [step, read, sameMap, Option.map_map]
      rfl
  | remove =>
      cases target
      simp only [step, sameMap, Option.map_map]
      refine Option.map_congr fun map _ => ?_
      simp only [Function.comp]
      cases map.resolve _ <;> rfl
  | init | deinit | insert | insertReserved | insertServer | reserve |
    restoreReservation => cases isLocal

/-! ## Handles -/

/-- The handle was issued by one of the insertions so far. -/
def Issued (world : MapWorld) (handle : Handle) : Prop :=
  ∃ index, index < world.issued ∧
    handle.generation = nextGeneration^[index] 1

/-- A slot holds no entry with a handle. -/
def Gone (world : MapWorld) (slot : Nat) (handle : Handle) : Prop :=
  ∀ map, world.maps slot = some map → ∀ entry, entry ∈ map.entries →
    entry.handle ≠ handle

/-- Generations of one cycle are distinct. -/
theorem generation_inj
    {left right : Nat}
    (leftBound : left < maxU32)
    (rightBound : right < maxU32)
    (same : nextGeneration^[left] 1 = nextGeneration^[right] 1) :
    left = right := by
  have cycle : maxU32 = 2 ^ 32 - 1 := by decide
  simp only [show nextGeneration = Generation.next (2 ^ 32) from rfl] at same
  rw [Generation.iterate_one (by decide), Generation.iterate_one (by decide),
    ← cycle, Nat.mod_eq_of_lt leftBound, Nat.mod_eq_of_lt rightBound] at same
  omega

/-- A handle that no entry has is not issued again. -/
theorem Effect.gone
    {slot : Option Nat} {other : Nat} {handle : Handle}
    (effect : Effect world slot result next)
    (issued : world.Issued handle)
    (few : next.issued ≤ maxU32)
    (gone : world.Gone other handle) : next.Gone other handle := by
  intro map live entry member same
  rcases effect.entries live member with ⟨before, old, inside⟩ | ⟨one, new⟩
  · exact gone before old entry inside same
  · obtain ⟨index, earlier, generation⟩ := issued
    have count := effect.issued_eq
    rw [same, generation] at new
    have equal := generation_inj (by omega) (by omega) new
    omega

end MapWorld

/-! ## Failed calls -/

namespace SharedObjectPool

variable {pool after : SharedObjectPool} {cause : Error}

theorem acquirePhysical_error
    (failed : pool.acquirePhysical = (.error cause, after)) :
    after = pool := by
  unfold acquirePhysical at failed
  cases head : pool.freeHead with
  | none =>
      simp only [head] at failed
      cases failed
      rfl
  | some index =>
      simp only [head] at failed
      cases failed

/-- A pool that has no entry to give stays as it was. -/
theorem acquire_error
    {granted : Bool}
    (failed : pool.acquire granted = (.error cause, after)) :
    after = pool := by
  unfold acquire at failed
  split_ifs at failed
  · cases failed
    rfl
  · cases failed
  · cases failed
    rfl
  · exact acquirePhysical_error failed

theorem acquireReserved_error
    (failed : pool.acquireReserved = (.error cause, after)) :
    after = pool := by
  unfold acquireReserved at failed
  split_ifs at failed with none
  · cases failed
    rfl
  · generalize outcome : acquirePhysical { pool with
      reservedCount := pool.reservedCount - 1 } = acquired at failed
    obtain ⟨reason | index, restored⟩ := acquired
    · cases acquirePhysical_error outcome
      cases failed
      simp only [Nat.sub_add_cancel (Nat.pos_of_ne_zero none)]
    · cases failed

end SharedObjectPool

namespace SharedNamespace

variable {pool : SharedObjectPool} {objects : SharedNamespace} {cause : Error}

/-- A namespace without the contents of its cache. -/
def forget (objects : SharedNamespace) : SharedNamespace :=
  { objects with cachedId := 0, cachedIndex := none }

/-- A lookup changes the cache alone. -/
theorem forget_find
    (pool : SharedObjectPool) (objects : SharedNamespace) (id : Nat) :
    (objects.find pool id).2.forget = objects.forget := by
  unfold find
  split_ifs
  · rfl
  · rfl
  · cases objects.findUncached pool id <;> rfl

/-- A failed insertion changes the cache alone. -/
theorem insertWith_error
    {id version : Nat} {interface : Interface} {context : Option Nat}
    {acquired : Except Error Nat × SharedObjectPool}
    (restored : ∀ cause after, acquired = (.error cause, after) →
      after = pool)
    (failed : (objects.insertWith pool id interface version context
      acquired).1 = .error cause) :
    let result := objects.insertWith pool id interface version context acquired
    result.2.1.forget = objects.forget ∧ result.2.2 = pool := by
  have forgotten := forget_find pool objects id
  revert failed
  unfold insertWith
  split_ifs
  · exact fun _ => ⟨rfl, rfl⟩
  · cases interface.validateVersion version with
    | error cause => exact fun _ => ⟨rfl, rfl⟩
    | ok _ =>
        generalize objects.find pool id = outcome at forgotten ⊢
        obtain ⟨found, looked⟩ := outcome
        simp only
        split_ifs
        · exact fun _ => ⟨forgotten, rfl⟩
        · exact fun _ => ⟨forgotten, rfl⟩
        · obtain ⟨reason | index, after⟩ := acquired
          · exact fun _ => ⟨forgotten, restored reason after rfl⟩
          · exact fun failed => nomatch failed

/-- A failed insertion under a server ID changes the cache alone. -/
theorem insertServer_error
    {version : Nat} {interface : Interface} {context : Option Nat}
    {granted : Bool}
    (failed : (objects.insertServer pool interface version context
      granted).1 = .error cause) :
    let result := objects.insertServer pool interface version context granted
    result.2.1 = objects ∧ result.2.2 = pool := by
  revert failed
  unfold insertServer
  cases interface.validateVersion version with
  | error cause => exact fun _ => ⟨rfl, rfl⟩
  | ok _ =>
      simp only
      split_ifs
      · exact fun _ => ⟨rfl, rfl⟩
      · exact fun _ => ⟨rfl, rfl⟩
      · generalize outcome : pool.acquire granted = acquired
        obtain ⟨reason | index, after⟩ := acquired
        · exact fun _ => ⟨rfl, SharedObjectPool.acquire_error outcome⟩
        · exact fun failed => nomatch failed

end SharedNamespace

namespace SharedWorld

variable {world next : SharedWorld} {cause : Error}

theorem map_eq_error
    {α β : Type} {wrap : α → β} {outcome : Except Error α}
    (failed : outcome.map wrap = .error cause) : outcome = .error cause := by
  cases outcome with
  | error reason =>
      cases failed
      rfl
  | ok value => cases failed

/-- A failed call on a namespace changes its cache alone. -/
theorem onNamespace_error
    {slot : Nat}
    {action : SharedNamespace → SharedObjectPool →
      SharedResult × SharedNamespace × SharedObjectPool}
    (restored : ∀ objects, (action objects world.pool).1 = .error cause →
      (action objects world.pool).2.1.forget = objects.forget ∧
        (action objects world.pool).2.2 = world.pool)
    (failed : world.onNamespace slot action = some (.error cause, next)) :
    next.uncached = world.uncached := by
  obtain ⟨objects, live, same⟩ := Option.map_eq_some_iff.mp failed
  obtain ⟨result, nextEq⟩ := Prod.mk.inj same
  obtain ⟨forgotten, pool⟩ := restored objects result
  rw [← nextEq]
  simp only [uncached, put, pool, SharedWorld.mk.injEq, true_and, and_true]
  funext other
  by_cases here : other = slot
  · subst here
    rw [Function.update_self, live, Option.map_some, Option.map_some]
    exact congrArg some forgotten
  · rw [Function.update_of_ne here]

/-- A call that fails changes nothing but a lookup cache. -/
theorem step_error
    {operation : SharedOperation}
    (failed : world.step operation = some (.error cause, next)) :
    next.uncached = world.uncached := by
  cases operation with
  | init slot connectionGeneration quota =>
      simp only [step] at failed
      split_ifs at failed
      cases created : SharedNamespace.init (world.arrays slot)
          connectionGeneration quota <;>
        simp only [created] at failed <;> cases failed
      rfl
  | deinit slot =>
      obtain ⟨objects, _, same⟩ := Option.map_eq_some_iff.mp failed
      cases same
  | insert slot id interface version context granted =>
      simp only [step] at failed
      exact onNamespace_error (fun objects result =>
        SharedNamespace.insertWith_error
          (fun _ _ => SharedObjectPool.acquire_error)
          (map_eq_error result)) failed
  | insertReserved slot id interface version context =>
      simp only [step] at failed
      exact onNamespace_error (fun objects result =>
        SharedNamespace.insertWith_error
          (fun _ _ => SharedObjectPool.acquireReserved_error)
          (map_eq_error result)) failed
  | insertServer slot interface version context granted =>
      simp only [step] at failed
      refine onNamespace_error (fun objects result => ?_) failed
      obtain ⟨same, pool⟩ :=
        SharedNamespace.insertServer_error (map_eq_error result)
      exact ⟨congrArg SharedNamespace.forget same, pool⟩
  | get slot id =>
      simp only [step] at failed
      exact onNamespace_error (fun _ result => by cases result) failed
  | resolve slot handle =>
      simp only [step] at failed
      exact onNamespace_error (fun _ result => by cases result) failed
  | lookupHandle slot id =>
      simp only [step] at failed
      exact onNamespace_error (fun _ result => by cases result) failed
  | request slot id opcode =>
      simp only [step] at failed
      refine onNamespace_error (fun objects _ => ⟨?_, rfl⟩) failed
      have dispatched : objects.request world.pool id opcode = _ :=
        SharedNamespace.dispatch_eq id
          fun interface version => interface.request opcode version
      simp only [dispatched]
      exact SharedNamespace.forget_find _ _ _
  | event slot id opcode =>
      simp only [step] at failed
      refine onNamespace_error (fun objects _ => ⟨?_, rfl⟩) failed
      have dispatched : objects.event world.pool id opcode = _ :=
        SharedNamespace.dispatch_eq id
          fun interface version => interface.event opcode version
      simp only [dispatched]
      exact SharedNamespace.forget_find _ _ _
  | remove slot handle =>
      simp only [step] at failed
      exact onNamespace_error (fun _ result => by cases result) failed
  | reserve count =>
      simp only [step, SharedObjectPool.reserve] at failed
      split_ifs at failed <;> cases failed
      rfl
  | restoreReservation =>
      simp only [step] at failed
      split_ifs at failed
      cases failed

end SharedWorld

/-! ## Runs -/

namespace MapWorld

variable {world next : MapWorld} {operations : List SharedOperation}
  {results : List SharedResult}

theorem insertions_cons
    (result : SharedResult) (results : List SharedResult) :
    insertions (result :: results) =
      insertions [result] + insertions results := by
  unfold insertions
  rw [← List.singleton_append, List.countP_append]

/-- The insertions of a run are counted. -/
theorem run_issued
    (ran : world.run operations = some (results, next)) :
    next.issued = world.issued + insertions results := by
  induction operations generalizing world results with
  | nil =>
      cases ran
      rfl
  | cons operation operations inductionHypothesis =>
      obtain ⟨⟨result, middle⟩, stepped, rest⟩ :=
        Option.bind_eq_some_iff.mp ran
      obtain ⟨⟨later, last⟩, continued, same⟩ :=
        Option.bind_eq_some_iff.mp rest
      cases same
      rw [inductionHypothesis continued, (step_effect stepped).issued_eq,
        insertions_cons result later, Nat.add_assoc]

/-- A handle that an insertion of a run returned was issued. -/
theorem run_inserted
    {handle : Handle}
    (ran : world.run operations = some (results, next))
    (inserted : .ok (.inserted handle) ∈ results) : next.Issued handle := by
  induction operations generalizing world results with
  | nil =>
      cases ran
      cases inserted
  | cons operation operations inductionHypothesis =>
      obtain ⟨⟨result, middle⟩, stepped, rest⟩ :=
        Option.bind_eq_some_iff.mp ran
      obtain ⟨⟨later, last⟩, continued, same⟩ :=
        Option.bind_eq_some_iff.mp rest
      cases same
      rcases List.mem_cons.mp inserted with first | member
      · subst first
        have effect := step_effect stepped
        refine ⟨world.issued, ?_, effect.inserted⟩
        have one : insertions [.ok (.inserted handle)] = 1 := rfl
        rw [run_issued continued, effect.issued_eq, one]
        omega
      · exact inductionHypothesis continued member

/-- A handle that no entry of a slot has is not seen there again. -/
theorem run_gone
    {slot : Nat} {handle : Handle}
    (ran : world.run operations = some (results, next))
    (issued : world.Issued handle)
    (few : next.issued ≤ maxU32)
    (gone : world.Gone slot handle) : next.Gone slot handle := by
  induction operations generalizing world results with
  | nil =>
      cases ran
      exact gone
  | cons operation operations inductionHypothesis =>
      obtain ⟨⟨result, middle⟩, stepped, rest⟩ :=
        Option.bind_eq_some_iff.mp ran
      obtain ⟨⟨later, last⟩, continued, same⟩ :=
        Option.bind_eq_some_iff.mp rest
      cases same
      have effect := step_effect stepped
      have first := effect.issued_eq
      have all := run_issued continued
      obtain ⟨index, earlier, generation⟩ := issued
      exact inductionHypothesis continued ⟨index, by omega, generation⟩
        (effect.gone ⟨index, earlier, generation⟩ (by omega) gone)

end MapWorld

/-- A run on the pool has the results of the same run on the maps. -/
theorem run_corresponds
    {world next : SharedWorld} {maps : MapWorld} {owned : Nat → List Nat}
    {free : List Nat} {operations : List SharedOperation}
    {results : List SharedResult}
    (refines : Refines world maps owned free)
    (ran : world.run operations = some (results, next)) :
    ∃ mapsNow owned free, maps.run operations = some (results, mapsNow) ∧
      Refines next mapsNow owned free := by
  induction operations generalizing world maps owned free results with
  | nil =>
      cases ran
      exact ⟨maps, owned, free, rfl, refines⟩
  | cons operation operations inductionHypothesis =>
      obtain ⟨⟨result, middle⟩, stepped, rest⟩ :=
        Option.bind_eq_some_iff.mp ran
      obtain ⟨⟨later, last⟩, continued, same⟩ :=
        Option.bind_eq_some_iff.mp rest
      cases same
      have matched := step_corresponds refines operation
      rw [stepped] at matched
      cases expected : maps.step operation with
      | none =>
          rw [expected] at matched
          exact matched.elim
      | some outcome =>
          rw [expected] at matched
          obtain ⟨same, _, _, refinesMiddle⟩ := matched
          obtain ⟨mapsNow, ownedNow, freeNow, mapsRan, refinesNow⟩ :=
            inductionHypothesis refinesMiddle continued
          refine ⟨mapsNow, ownedNow, freeNow, ?_, refinesNow⟩
          simp only [MapWorld.run, expected, Option.bind_some, bind, mapsRan,
            same]

end Wayring
