import Wayring.Objects.SharedIsolation
import Mathlib.Order.Bounds.Basic

/-!
# Server IDs

A shared namespace hands out server IDs from a cursor that only removals move
back.  Whatever calls came before, explicit insertions in the server range
included, the ID it hands out is the least one that no live object has.
-/

namespace Wayring

/-- The server IDs that no entry of a map has. -/
def ObjectMap.freeServerIds (map : ObjectMap) : Set Nat :=
  {id | serverIdStart ≤ id ∧ id ≤ maxU32 ∧ map.lookup id = none}

/-- Whether an insertion finds storage for its entry: an unreserved free
entry, or room and memory for a new one. -/
def SharedObjectPool.Available
    (pool : SharedObjectPool)
    (granted : Bool) : Prop :=
  pool.reservedCount < pool.availableCount ∨
    pool.nodes.length < sharedEnd ∧ granted = true

/-! ## The search -/

namespace ObjectMap

variable {map : ObjectMap}

theorem serverIdStart_le : serverIdStart ≤ maxU32 := by decide

/-- A search that ends in the range has found the least free ID. -/
theorem freeServerId_isLeast
    (inside : map.freeServerId ≤ maxU32) :
    IsLeast map.freeServerIds map.freeServerId := by
  obtain ⟨lower, _, before, stopped⟩ := @firstFree_spec
    (fun id => (map.lookup id).isSome) (maxU32 + 1 - serverIdStart)
    serverIdStart
  have start := serverIdStart_le
  constructor
  · refine ⟨lower, inside, ?_⟩
    have vacant := stopped (lt_of_le_of_lt inside (by omega)) inside
    rwa [Bool.not_eq_true, Option.isSome_eq_false_iff,
      Option.isNone_iff_eq_none] at vacant
  · intro other free
    obtain ⟨from_, _, absent⟩ := free
    apply Nat.le_of_not_lt
    intro earlier
    have taken := before other from_ earlier
    rw [absent] at taken
    cases taken

/-- A search that leaves the range has seen every ID taken. -/
theorem freeServerIds_eq_empty_iff :
    map.freeServerIds = ∅ ↔ maxU32 < map.freeServerId := by
  constructor
  · intro empty
    apply Nat.lt_of_not_le
    intro inside
    have member := (freeServerId_isLeast inside).1
    rw [empty] at member
    exact member
  · intro outside
    obtain ⟨_, _, before, _⟩ := @firstFree_spec
      (fun id => (map.lookup id).isSome) (maxU32 + 1 - serverIdStart)
      serverIdStart
    apply Set.eq_empty_of_forall_notMem
    intro id free
    obtain ⟨lower, upper, absent⟩ := free
    have taken := before id lower (lt_of_le_of_lt upper outside)
    rw [absent] at taken
    cases taken

/-- A map at its quota, or without a free ID, refuses a server object. -/
theorem acceptServer_full
    {interface : Interface} {version : Nat}
    (valid : interface.validateVersion version = .ok ())
    (full : map.entries.length = map.quota ∨ map.freeServerIds = ∅) :
    map.acceptServer interface version = .error .full := by
  unfold acceptServer
  rw [valid]
  rcases full with quota | empty
  · rw [if_pos quota]
    rfl
  · rw [if_pos (freeServerIds_eq_empty_iff.mp empty)]
    split_ifs <;> rfl

/-- Any other map gives it the lowest free ID. -/
theorem acceptServer_ok
    {interface : Interface} {version : Nat}
    (valid : interface.validateVersion version = .ok ())
    (room : map.entries.length ≠ map.quota)
    (some_free : map.freeServerIds ≠ ∅) :
    map.acceptServer interface version = .ok map.freeServerId := by
  unfold acceptServer
  have inside := mt freeServerIds_eq_empty_iff.mpr some_free
  rw [valid, if_neg room, if_neg inside]
  rfl

end ObjectMap

/-! ## Calls -/

section Calls

variable {world later : SharedWorld} {maps : MapWorld}
  {owned : Nat → List Nat} {free : List Nat}

/-- With storage available, the maps can take an entry. -/
theorem Refines.take_ok
    {granted : Bool}
    (refines : Refines world maps owned free)
    (available : world.pool.Available granted) :
    ∃ after, maps.take granted = .ok after := by
  unfold MapWorld.take
  rw [refines.free_eq, refines.reserved_eq, ← refines.available_eq,
    refines.total_eq]
  have reserved := refines.reserved_le
  rw [← refines.available_eq] at reserved
  rcases available with unreserved | ⟨room, memory⟩
  · rw [if_neg (Nat.ne_of_gt unreserved)]
    exact ⟨_, rfl⟩
  · split_ifs with none_free exhausted
    · exact absurd room (Nat.not_lt_of_le exhausted)
    · exact ⟨_, rfl⟩
    · exact ⟨_, rfl⟩

/-- A run on the pool and the same run on the maps return the same. -/
theorem Refines.run_eq
    (refines : Refines world maps owned free)
    (operations : List SharedOperation) :
    (world.run operations).map Prod.fst =
      (maps.run operations).map Prod.fst := by
  induction operations generalizing world maps owned free with
  | nil => rfl
  | cons operation operations inductionHypothesis =>
      have matched := step_corresponds refines operation
      simp only [SharedWorld.run, MapWorld.run]
      generalize world.step operation = outcome at matched ⊢
      generalize maps.step operation = expected at matched ⊢
      cases outcome with
      | none =>
          cases expected with
          | none => rfl
          | some expected => exact matched.elim
      | some outcome =>
          cases expected with
          | none => exact matched.elim
          | some expected =>
              obtain ⟨same, owned, free, refinesNext⟩ := matched
              have continued := inductionHypothesis refinesNext
              simp only [Option.bind_some, bind, same]
              generalize outcome.2.run operations = left at continued ⊢
              generalize expected.2.run operations = right at continued ⊢
              cases left with
              | none =>
                  cases right with
                  | none => rfl
                  | some right => cases continued
              | some left =>
                  cases right with
                  | none => cases continued
                  | some right =>
                      exact congrArg (fun answers => some (expected.1 :: answers))
                        (Option.some.inj continued)

/-- An ID is in the map of a slot exactly when a bucket walk finds it. -/
theorem Refines.walkHandle_eq_none
    {slot : Nat} {map : ObjectMap}
    (refines : Refines world maps owned free)
    (live : maps.maps slot = some map)
    (id : Nat) :
    world.walkHandle slot id = none ↔ map.lookup id = none := by
  rw [refines.maps_eq] at live
  obtain ⟨objects, created, rfl⟩ := Option.map_eq_some_iff.mp live
  have agree := (refines.owns created).isSome_findUncached id
  simp only [SharedWorld.walkHandle, created, Option.bind_some, bind]
  cases found : objects.findUncached world.pool id with
  | none =>
      rw [found, Option.isSome_none, eq_comm, Option.isSome_eq_false_iff,
        Option.isNone_iff_eq_none] at agree
      simp only [agree, Option.bind_none]
  | some location =>
      rw [found, Option.isSome_some, eq_comm, Option.isSome_iff_ne_none]
        at agree
      simp only [agree, Option.bind_some, reduceCtorEq]

/-- A failed call leaves a world that stands for the same maps. -/
theorem Refines.failed
    {operation : SharedOperation} {cause : Error}
    (refines : Refines world maps owned free)
    (stepped : world.step operation = some (.error cause, later)) :
    ∃ owned free, Refines later maps owned free := by
  have matched := step_corresponds refines operation
  rw [stepped] at matched
  cases expected : maps.step operation with
  | none =>
      rw [expected] at matched
      exact matched.elim
  | some outcome =>
      obtain ⟨result, after⟩ := outcome
      rw [expected] at matched
      obtain ⟨same, refinesLater⟩ := matched
      subst same
      cases MapWorld.step_effect expected with
      | unchanged plain => exact refinesLater

end Calls

/-- After any run of calls on any number of namespaces over one pool, with any
answers of the allocator: given a valid version and storage for an entry,
`insertServer` fails with `Full` when the namespace is at its quota or has
every server ID live, and otherwise returns the least server ID not live.  A
call that fails changes no result of later calls, so it changes no ID. -/
theorem server_ids_are_lowest_free
    {capacity : Nat} {granted : Bool} {pool : SharedObjectPool}
    {lengths : Nat → Nat} {operations : List SharedOperation}
    {results : List SharedResult} {world : SharedWorld}
    (created : SharedObjectPool.init capacity granted = .ok pool)
    (fits : ∀ slot, lengths slot < usizeLimit)
    (ran : (SharedWorld.start pool lengths).run operations =
      some (results, world)) :
    ∃ maps, (MapWorld.start capacity lengths).run operations =
        some (results, maps) ∧
      (∀ slot map, maps.maps slot = some map →
        (∀ id, world.walkHandle slot id = none ↔ map.lookup id = none) ∧
        ∀ interface version context memory,
          interface.validateVersion version = .ok () →
          world.pool.Available memory →
          ∃ result next, world.step
              (.insertServer slot interface version context memory) =
                some (result, next) ∧
            (map.entries.length = map.quota ∨ map.freeServerIds = ∅ →
              result = .error .full) ∧
            (map.entries.length ≠ map.quota → map.freeServerIds ≠ ∅ →
              ∃ handle, result = .ok (.inserted handle) ∧
                IsLeast map.freeServerIds handle.id)) ∧
      ∀ attempt cause later,
        world.step attempt = some (.error cause, later) →
        ∀ continuation, (later.run continuation).map Prod.fst =
          (world.run continuation).map Prod.fst := by
  obtain ⟨maps, owned, free, mapsRan, refines⟩ :=
    run_corresponds (Refines.start created fits) ran
  refine ⟨maps, mapsRan, ?_, ?_⟩
  · intro slot map live
    refine ⟨refines.walkHandle_eq_none live, ?_⟩
    intro interface version context memory valid available
    obtain ⟨after, taken⟩ := refines.take_ok available
    have matched := refines.insertServer slot interface version context memory
    simp only [MapWorld.step, MapWorld.addWith, live, Option.map_some, taken]
      at matched
    cases stepped : world.step
        (.insertServer slot interface version context memory) with
    | none =>
        rw [stepped] at matched
        exact matched.elim
    | some outcome =>
        obtain ⟨result, next⟩ := outcome
        rw [stepped] at matched
        obtain ⟨same, _⟩ := matched
        refine ⟨result, next, rfl, fun full => ?_, fun room some_free => ?_⟩
        · rw [same, ObjectMap.acceptServer_full valid full]
        · have inside := mt ObjectMap.freeServerIds_eq_empty_iff.mpr some_free
          rw [ObjectMap.acceptServer_ok valid room some_free] at same
          exact ⟨_, same, ObjectMap.freeServerId_isLeast
            (Nat.le_of_not_lt inside)⟩
  · intro attempt cause later failed continuation
    obtain ⟨_, _, refinesLater⟩ := refines.failed failed
    rw [refinesLater.run_eq, refines.run_eq]

/-- The map of slot 0 in the sample world. -/
def sharedSampleMap : ObjectMap where
  quota := 2
  entries :=
    [{ handle := { id := serverIdStart, generation := 2 }
       object := { interface := sharedSample, version := 1 } }]

/-- In the sample world the first server ID is live, and the next one is
handed out. -/
theorem server_ids_are_lowest_free_sample :
    ∃ result next,
      sharedSampleWorld.step (.insertServer 0 sharedSample 1 none true) =
          some (result, next) ∧
        ∃ handle, result = .ok (.inserted handle) ∧
          IsLeast sharedSampleMap.freeServerIds handle.id := by
  obtain ⟨maps, mapsRan, search, _⟩ :=
    @server_ids_are_lowest_free 1 true (SharedObjectPool.fresh 1)
      (fun _ => 2) sharedSampleCalls sharedSampleResults sharedSampleWorld rfl
      (fun _ => by decide) run_sharedSampleCalls
  have computed : (((MapWorld.start 1 fun _ => 2).run sharedSampleCalls).bind
      fun outcome => outcome.2.maps 0) = some sharedSampleMap := rfl
  rw [mapsRan] at computed
  obtain ⟨_, serve⟩ := search 0 sharedSampleMap computed
  obtain ⟨result, next, stepped, _, lowest⟩ :=
    serve sharedSample 1 none true rfl (Or.inr (by decide))
  have next_free : serverIdStart + 1 ∈ sharedSampleMap.freeServerIds :=
    ⟨by decide, by decide, by decide⟩
  refine ⟨result, next, stepped, lowest (by decide) ?_⟩
  exact Set.nonempty_iff_ne_empty.mp ⟨_, next_free⟩

end Wayring
