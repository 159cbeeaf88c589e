import Wayring.Objects.SharedRuns

/-!
# Isolation of namespaces

The pool and its namespaces, started with free entries and cleared bucket
arrays, behave as one finite map for each namespace over any run of calls.
-/

namespace Wayring

namespace SharedWorld

/-- A handle denotes an object of a slot's namespace. -/
def Resolves (world : SharedWorld) (slot : Nat) (handle : Handle) : Prop :=
  ∃ objects, world.namespaces slot = some objects ∧
    (objects.resolve world.pool handle).1.isSome

/-- A lookup through the cache finds what the bucket walk finds. -/
def CachesAgree (world : SharedWorld) : Prop :=
  ∀ slot objects id, world.namespaces slot = some objects →
    (objects.find world.pool id).1.map SharedNamespace.Location.index =
      (objects.findUncached world.pool id).map SharedNamespace.Location.index

/-- An entry is on the free list. -/
def IsFree (world : SharedWorld) (index : Nat) : Prop :=
  ∃ chain, Chain.Linked (fun index => (world.pool.node index).ownerNext)
    world.pool.freeHead chain ∧ index ∈ chain

/-- An entry is on the owner chain of a slot's namespace. -/
def OwnedBy (world : SharedWorld) (index slot : Nat) : Prop :=
  ∃ objects chain, world.namespaces slot = some objects ∧
    Chain.Linked (fun index => (world.pool.node index).ownerNext)
      objects.ownerHead chain ∧ index ∈ chain

/-- Every entry is free, or owned by exactly one namespace. -/
def Partitioned (world : SharedWorld) : Prop :=
  ∀ index, index < world.pool.nodes.length →
    world.IsFree index ∧ (∀ slot, ¬ world.OwnedBy index slot) ∨
      ¬ world.IsFree index ∧ ∃! slot, world.OwnedBy index slot

end SharedWorld

section Observations

variable {world : SharedWorld} {maps : MapWorld}
  {owned : Nat → List Nat} {free : List Nat}

/-- The entries on the free list are free. -/
theorem Holds.isFree_iff
    (holds : Holds world owned free)
    {index : Nat} : world.IsFree index ↔ index ∈ free := by
  constructor
  · rintro ⟨chain, linked, member⟩
    rwa [holds.freeChain.unique linked]
  · exact fun member => ⟨free, holds.freeChain, member⟩

/-- The entries on an owner chain are owned. -/
theorem Holds.ownedBy_iff
    (holds : Holds world owned free)
    {index slot : Nat} : world.OwnedBy index slot ↔ index ∈ owned slot := by
  constructor
  · rintro ⟨objects, chain, live, linked, member⟩
    rwa [(holds.owns live).forward.unique linked]
  · intro member
    cases live : world.namespaces slot with
    | none =>
        rw [holds.vacant live] at member
        exact absurd member List.not_mem_nil
    | some objects =>
        exact ⟨objects, owned slot, live, (holds.owns live).forward, member⟩

/-- Every entry is free or owned once. -/
theorem Holds.partitioned
    (holds : Holds world owned free) : world.Partitioned := by
  intro index bound
  simp only [holds.isFree_iff, holds.ownedBy_iff]
  rcases holds.cover.mp bound with inFree | ⟨slot, member⟩
  · exact Or.inl ⟨inFree, fun slot member => holds.apart member inFree⟩
  · exact Or.inr ⟨holds.apart member, slot, member,
      fun other shared => holds.exclusive shared member⟩

/-- Caches agree with bucket walks. -/
theorem Holds.cachesAgree
    (holds : Holds world owned free) : world.CachesAgree :=
  fun _ _ id live => (holds.owns live).find_eq_findUncached id

/-- A map finds the entry of a handle when it has one. -/
theorem SharedNamespace.Owns.isSome_resolve
    {pool : SharedObjectPool} {objects : SharedNamespace} {entries : List Nat}
    (owns : SharedNamespace.Owns pool objects entries)
    {handle : Handle} :
    ((objects.objectMap pool entries).resolve handle).isSome ↔
      ∃ entry, entry ∈ (objects.objectMap pool entries).entries ∧
        entry.handle = handle := by
  rw [Option.isSome_iff_exists]
  constructor
  · rintro ⟨entry, resolved⟩
    obtain ⟨looked, same⟩ := Option.filter_eq_some_iff.mp resolved
    exact ⟨entry, List.mem_of_find?_eq_some looked, by simpa using same⟩
  · rintro ⟨entry, member, rfl⟩
    obtain ⟨index, inOwned, rfl⟩ := List.mem_map.mp member
    refine ⟨pool.entry index, Option.filter_eq_some_iff.mpr ⟨?_, by simp⟩⟩
    rw [lookup_objectMap,
      owns.ownedIndex_eq_some_iff.mpr ⟨inOwned, (rfl : _ = (pool.entry index).handle.id)⟩]
    rfl

/-- A handle resolves exactly when its slot's map has it. -/
theorem Refines.resolves_iff
    (refines : Refines world maps owned free)
    {slot : Nat} {handle : Handle} :
    world.Resolves slot handle ↔ ¬ maps.Gone slot handle := by
  have matched := step_corresponds refines (.resolve slot handle)
  simp only [SharedWorld.step, SharedWorld.onNamespace, MapWorld.step,
    MapWorld.read] at matched
  cases live : world.namespaces slot with
  | none =>
      have vacant : maps.maps slot = none := by
        rw [refines.maps_eq, live]
        rfl
      refine iff_of_false ?_ (not_not.mpr ?_)
      · rintro ⟨objects, found, _⟩
        rw [live] at found
        cases found
      · intro map found
        rw [vacant] at found
        cases found
  | some objects =>
      have owns := refines.owns live
      have here : maps.maps slot =
          some (objects.objectMap world.pool (owned slot)) := by
        rw [refines.maps_eq, live]
        rfl
      rw [live, here] at matched
      obtain ⟨same, _⟩ := matched
      simp only [Except.ok.injEq, SharedReply.object.injEq] at same
      have resolves : world.Resolves slot handle ↔
          ((objects.objectMap world.pool (owned slot)).resolve
            handle).isSome := by
        rw [← Option.isSome_map, ← same]
        constructor
        · rintro ⟨current, found, some⟩
          rw [live, Option.some.injEq] at found
          rwa [found]
        · exact fun some => ⟨objects, live, some⟩
      rw [resolves, owns.isSome_resolve]
      constructor
      · rintro ⟨entry, member, same⟩ gone
        exact gone _ here entry member same
      · intro present
        by_contra absent
        refine present fun map found entry member same => absent ?_
        rw [here, Option.some.injEq] at found
        exact ⟨entry, found ▸ member, same⟩

end Observations

/-! ## A new pool -/

namespace SharedObjectPool

/-- The pool that `init` makes. -/
def fresh (capacity : Nat) : SharedObjectPool where
  nodes := (List.range capacity).map fun index =>
    { ownerNext := if index + 1 < capacity then some (index + 1) else none }
  freeHead := some 0
  availableCount := capacity

theorem ownerNext_fresh
    {capacity index : Nat}
    (bound : index < capacity) :
    ((fresh capacity).node index).ownerNext =
      if index + 1 < capacity then some (index + 1) else none := by
  simp [node, fresh, bound]

/-- The entries from an index on are chained in order. -/
theorem linked_fresh
    {capacity count : Nat}
    (bound : count ≤ capacity) :
    Chain.Linked (fun index => ((fresh capacity).node index).ownerNext)
      (if capacity - count < capacity then some (capacity - count) else none)
      (List.range' (capacity - count) count) := by
  induction count with
  | zero => simp
  | succ count inductionHypothesis =>
      have here : capacity - (count + 1) < capacity := by omega
      have following : capacity - (count + 1) + 1 = capacity - count := by
        omega
      rw [if_pos here, List.range'_succ, following]
      refine ⟨rfl, ?_⟩
      simp only [ownerNext_fresh here, following]
      exact inductionHypothesis (by omega)

/-- A new pool is one free list. -/
theorem init_spec
    {capacity : Nat} {granted : Bool} {pool : SharedObjectPool}
    (created : init capacity granted = .ok pool) :
    Chain.Linked (fun index => (pool.node index).ownerNext) pool.freeHead
        (List.range capacity) ∧
      pool.nodes.length = capacity ∧ pool.availableCount = capacity ∧
      pool.reservedCount = 0 ∧ pool.nextGeneration = 1 := by
  unfold init at created
  split_ifs at created with invalid
  have same : pool = fresh capacity := (Except.ok.inj created).symm
  subst same
  have whole := linked_fresh (le_refl capacity)
  rw [Nat.sub_self, if_pos (by omega), ← List.range_eq_range'] at whole
  exact ⟨whole, by simp [fresh], rfl, rfl, rfl⟩

end SharedObjectPool

/-- A new pool stands for empty maps. -/
theorem Refines.start
    {capacity : Nat} {granted : Bool} {pool : SharedObjectPool}
    {lengths : Nat → Nat}
    (created : SharedObjectPool.init capacity granted = .ok pool)
    (fits : ∀ slot, lengths slot < usizeLimit) :
    Refines (SharedWorld.start pool lengths) (MapWorld.start capacity lengths)
      (fun _ => []) (List.range capacity) := by
  obtain ⟨chain, length, available, reserved, generation⟩ :=
    SharedObjectPool.init_spec created
  have stamps {slot : Nat} {bucket : SharedObjectBucket}
      (member : bucket ∈ (SharedWorld.start pool lengths).array slot) :
      bucket = {} :=
    List.eq_of_mem_replicate member
  exact
    { freeChain := chain
      freeDistinct := List.nodup_range
      available_eq := by rw [List.length_range]; exact available
      reserved_le := by
        rw [List.length_range]
        exact reserved.le.trans (Nat.zero_le _)
      owns := fun live => nomatch live
      vacant := fun _ => rfl
      cover := fun {index} => by
        rw [List.mem_range]
        refine Iff.trans (by rw [← length]; rfl) (or_iff_left ?_).symm
        rintro ⟨_, member⟩
        exact absurd member List.not_mem_nil
      apart := fun member => absurd member List.not_mem_nil
      exclusive := fun member => absurd member List.not_mem_nil
      stamps := fun member => Or.inl (by rw [stamps member])
      generation := fun live => nomatch live
      maps_eq := fun _ => rfl
      lengths_eq := fun slot => (List.length_replicate).symm
      lengths_lt := fits
      used_eq := rfl
      total_eq := length.symm
      free_eq := (List.length_range).symm
      reserved_eq := reserved.symm
      issued_eq := generation }

/-! ## Isolated maps -/

/-- For any run of calls by any number of namespaces, with any answers of the
allocator: the results are those of one finite map for each namespace; the
lookup caches agree with the bucket walks; every entry is free or owned by
exactly one namespace; a call that fails changes nothing; a call on one
namespace changes no lookup or removal on another; and an issued handle that
does not resolve never resolves later. -/
theorem shared_namespaces_are_isolated_maps
    {capacity : Nat} {granted : Bool} {pool : SharedObjectPool}
    {lengths : Nat → Nat} {operations : List SharedOperation}
    {results : List SharedResult} {world : SharedWorld}
    (created : SharedObjectPool.init capacity granted = .ok pool)
    (fits : ∀ slot, lengths slot < usizeLimit)
    (ran : (SharedWorld.start pool lengths).run operations =
      some (results, world)) :
    (∃ maps, (MapWorld.start capacity lengths).run operations =
      some (results, maps)) ∧
    world.CachesAgree ∧
    world.Partitioned ∧
    (∀ operation result next, world.step operation = some (result, next) →
      (∀ cause, result = .error cause → next.uncached = world.uncached) ∧
      ∀ query slot, query.isLocal → query.slot = some slot →
        operation.slot ≠ some slot →
        (next.step query).map Prod.fst = (world.step query).map Prod.fst) ∧
    ∀ handle slot, .ok (.inserted handle) ∈ results →
      ¬ world.Resolves slot handle →
      ∀ later more last, world.run later = some (more, last) →
        insertions results + insertions more ≤ maxU32 →
        ¬ last.Resolves slot handle := by
  obtain ⟨maps, owned, free, mapsRan, refines⟩ :=
    run_corresponds (Refines.start created fits) ran
  refine ⟨⟨maps, mapsRan⟩, refines.toHolds.cachesAgree,
    refines.toHolds.partitioned,
    fun operation result next stepped => ⟨fun cause failed => ?_,
      fun query slot isLocal target apart => ?_⟩,
    fun handle slot inserted stale later more last continued few => ?_⟩
  · subst failed
    exact SharedWorld.step_error stepped
  · have matched := step_corresponds refines operation
    rw [stepped] at matched
    cases expected : maps.step operation with
    | none =>
        rw [expected] at matched
        exact matched.elim
    | some outcome =>
        rw [expected] at matched
        obtain ⟨_, _, _, refinesNext⟩ := matched
        rw [(step_corresponds refinesNext query).results_eq,
          (step_corresponds refines query).results_eq]
        have other := (MapWorld.step_effect expected).other apart
        exact MapWorld.step_congr other isLocal target
  · obtain ⟨mapsLast, _, _, mapsContinued, refinesLast⟩ :=
      run_corresponds refines continued
    have issued := MapWorld.run_issued mapsRan
    have issuedLast := MapWorld.run_issued mapsContinued
    have none : (MapWorld.start capacity lengths).issued = 0 := rfl
    rw [refines.resolves_iff, not_not] at stale
    rw [refinesLast.resolves_iff, not_not]
    exact MapWorld.run_gone mapsContinued
      (MapWorld.run_inserted mapsRan inserted) (by omega) stale

/-! ### A sample run -/

/-- A callback interface without messages. -/
def sharedSample : Interface where
  name := "wl_callback"
  version := 1
  requests := []
  events := []

/-- Two namespaces over a pool of one entry.  The second is torn down and its
array handed to a new connection. -/
def sharedSampleCalls : List SharedOperation :=
  [.init 0 1 2, .init 1 1 2, .insert 1 5 sharedSample 1 none true,
    .deinit 1, .init 1 2 2, .insertServer 0 sharedSample 1 none true,
    .insert 1 5 sharedSample 1 none true]

/-- What the sample calls return. -/
def sharedSampleResults : List SharedResult :=
  [.ok .done, .ok .done, .ok (.inserted { id := 5, generation := 1 }),
    .ok .done, .ok .done,
    .ok (.inserted { id := serverIdStart, generation := 2 }),
    .ok (.inserted { id := 5, generation := 3 })]

/-- The world after the sample calls. -/
def sharedSampleWorld : SharedWorld :=
  let start := SharedWorld.start (SharedObjectPool.fresh 1) fun _ => 2
  ((start.run sharedSampleCalls).map Prod.snd).getD start

theorem run_sharedSampleCalls :
    (SharedWorld.start (SharedObjectPool.fresh 1) fun _ => 2).run
      sharedSampleCalls = some (sharedSampleResults, sharedSampleWorld) := rfl

theorem shared_namespaces_are_isolated_maps_sample :
    sharedSampleWorld.Partitioned :=
  (@shared_namespaces_are_isolated_maps 1 true (SharedObjectPool.fresh 1)
    (fun _ => 2) sharedSampleCalls sharedSampleResults sharedSampleWorld rfl
    (fun _ => by decide) run_sharedSampleCalls).2.2.1

/-- Without a reservation, `insertReserved` finds the pool full though the map
is empty and its quota is two. -/
theorem insertReserved_full_below_quota :
    SharedObjectPool.init 1 true = .ok (SharedObjectPool.fresh 1) ∧
    ∃ world,
      (SharedWorld.start (SharedObjectPool.fresh 1) fun _ => 2).run
        [.init 0 1 2, .insertReserved 0 5 sharedSample 1 none] =
        some ([.ok .done, .error .full], world) ∧
      (world.namespaces 0).map
        (fun objects => (objects.count, objects.quota)) = some (0, 2) :=
  ⟨rfl, _, rfl, rfl⟩

end Wayring
