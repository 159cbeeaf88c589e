import Wayring.Objects.SharedRemoval
import Wayring.Objects.SharedWorld

/-!
# The shared pool refines its maps

Every entry of the pool is free or owned by one namespace.  Under that
invariant each call on the pool has the result that the same call has on the
maps, and keeps the two in correspondence.
-/

namespace Wayring

variable {world next : SharedWorld} {maps : MapWorld}
  {owned : Nat → List Nat} {free : List Nat}

/-- The entries of each slot's namespace and the free entries share out the
pool. -/
structure Holds
    (world : SharedWorld)
    (owned : Nat → List Nat)
    (free : List Nat) : Prop where
  freeChain : Chain.Linked (fun index => (world.pool.node index).ownerNext)
    world.pool.freeHead free
  freeDistinct : free.Nodup
  available_eq : world.pool.availableCount = free.length
  reserved_le : world.pool.reservedCount ≤ free.length
  owns : ∀ {slot objects}, world.namespaces slot = some objects →
    SharedNamespace.Owns world.pool objects (owned slot)
  vacant : ∀ {slot}, world.namespaces slot = none → owned slot = []
  cover : ∀ {index}, index < world.pool.nodes.length ↔
    index ∈ free ∨ ∃ slot, index ∈ owned slot
  apart : ∀ {slot index}, index ∈ owned slot → index ∉ free
  exclusive : ∀ {slot other index}, index ∈ owned slot →
    index ∈ owned other → slot = other
  stamps : ∀ {slot bucket}, bucket ∈ world.array slot →
    bucket.connectionGeneration = 0 ∨
      bucket.connectionGeneration ∈ world.used slot
  generation : ∀ {slot objects}, world.namespaces slot = some objects →
    objects.connectionGeneration ∈ world.used slot

/-- A call on one slot keeps the entries shared out when it writes only to
entries of that slot and to free ones. -/
theorem Holds.write
    (holds : Holds world owned free)
    {slot : Nat} {ownedNow freeNow : List Nat}
    (namespaces : ∀ other, other ≠ slot →
      next.namespaces other = world.namespaces other)
    (arrays : ∀ other, other ≠ slot → next.arrays other = world.arrays other)
    (used : ∀ other, other ≠ slot → next.used other = world.used other)
    (freeChain : Chain.Linked (fun index => (next.pool.node index).ownerNext)
      next.pool.freeHead freeNow)
    (freeDistinct : freeNow.Nodup)
    (available : next.pool.availableCount = freeNow.length)
    (reserved : next.pool.reservedCount ≤ freeNow.length)
    (owns : ∀ objects, next.namespaces slot = some objects →
      SharedNamespace.Owns next.pool objects ownedNow)
    (vacant : next.namespaces slot = none → ownedNow = [])
    (length : world.pool.nodes.length ≤ next.pool.nodes.length)
    (frame : ∀ other index, other ≠ slot → index ∈ owned other →
      next.pool.node index = world.pool.node index ∧
        index ∉ ownedNow ∧ index ∉ freeNow)
    (cover : ∀ index, index < next.pool.nodes.length ↔
      index ∈ freeNow ∨ index ∈ ownedNow ∨
        ∃ other, other ≠ slot ∧ index ∈ owned other)
    (apart : ∀ index, index ∈ ownedNow → index ∉ freeNow)
    (stamps : ∀ bucket, bucket ∈ next.array slot →
      bucket.connectionGeneration = 0 ∨
        bucket.connectionGeneration ∈ next.used slot)
    (generation : ∀ objects, next.namespaces slot = some objects →
      objects.connectionGeneration ∈ next.used slot) :
    Holds next (Function.update owned slot ownedNow) freeNow where
  freeChain := freeChain
  freeDistinct := freeDistinct
  available_eq := available
  reserved_le := reserved
  owns {other objects} live := by
    by_cases here : other = slot
    · subst here
      rw [Function.update_self]
      exact owns objects live
    · rw [Function.update_of_ne here]
      rw [namespaces other here] at live
      exact (holds.owns live).frame length
        fun index member => (frame other index here member).1
  vacant {other} empty := by
    by_cases here : other = slot
    · subst here
      rw [Function.update_self]
      exact vacant empty
    · rw [Function.update_of_ne here]
      rw [namespaces other here] at empty
      exact holds.vacant empty
  cover {index} := by
    rw [cover]
    refine or_congr_right ⟨?_, ?_⟩
    · rintro (here | ⟨other, elsewhere, member⟩)
      · exact ⟨slot, by rwa [Function.update_self]⟩
      · exact ⟨other, by rwa [Function.update_of_ne elsewhere]⟩
    · rintro ⟨other, member⟩
      by_cases here : other = slot
      · subst here
        rw [Function.update_self] at member
        exact Or.inl member
      · rw [Function.update_of_ne here] at member
        exact Or.inr ⟨other, here, member⟩
  apart {other index} member := by
    by_cases here : other = slot
    · subst here
      rw [Function.update_self] at member
      exact apart index member
    · rw [Function.update_of_ne here] at member
      exact (frame other index here member).2.2
  exclusive {left right index} leftMember rightMember := by
    by_cases leftHere : left = slot <;> by_cases rightHere : right = slot
    · rw [leftHere, rightHere]
    · subst leftHere
      rw [Function.update_self] at leftMember
      rw [Function.update_of_ne rightHere] at rightMember
      exact absurd leftMember (frame right index rightHere rightMember).2.1
    · subst rightHere
      rw [Function.update_self] at rightMember
      rw [Function.update_of_ne leftHere] at leftMember
      exact absurd rightMember (frame left index leftHere leftMember).2.1
    · rw [Function.update_of_ne leftHere] at leftMember
      rw [Function.update_of_ne rightHere] at rightMember
      exact holds.exclusive leftMember rightMember
  stamps {other bucket} member := by
    by_cases here : other = slot
    · subst here
      exact stamps bucket member
    · rw [used other here]
      refine holds.stamps ?_
      simpa only [SharedWorld.array, namespaces other here, arrays other here]
        using member
  generation {other objects} live := by
    by_cases here : other = slot
    · subst here
      exact generation objects live
    · rw [used other here]
      rw [namespaces other here] at live
      exact holds.generation live

/-! ## Correspondence -/

/-- The map entry a pool entry stands for. -/
def SharedObjectPool.entry
    (pool : SharedObjectPool)
    (index : Nat) : ObjectEntry where
  handle :=
    { id := (pool.node index).id
      generation := (pool.node index).generation }
  object := (pool.node index).object

/-- The map of a namespace that owns a list of entries. -/
def SharedNamespace.objectMap
    (pool : SharedObjectPool)
    (objects : SharedNamespace)
    (owned : List Nat) : ObjectMap where
  quota := objects.quota
  entries := owned.map pool.entry

/-- The pool and its namespaces stand for the maps. -/
structure Refines
    (world : SharedWorld)
    (maps : MapWorld)
    (owned : Nat → List Nat)
    (free : List Nat) : Prop extends Holds world owned free where
  maps_eq : ∀ slot, maps.maps slot = (world.namespaces slot).map
    fun objects => objects.objectMap world.pool (owned slot)
  lengths_eq : ∀ slot, maps.lengths slot = (world.array slot).length
  lengths_lt : ∀ slot, maps.lengths slot < usizeLimit
  used_eq : maps.used = world.used
  total_eq : maps.total = world.pool.nodes.length
  free_eq : maps.free = free.length
  reserved_eq : maps.reserved = world.pool.reservedCount
  issued_eq : world.pool.nextGeneration = nextGeneration^[maps.issued] 1

/-- The map of a namespace finds what its entries have. -/
theorem lookup_objectMap
    (pool : SharedObjectPool) (objects : SharedNamespace) (owned : List Nat)
    (id : Nat) :
    (objects.objectMap pool owned).lookup id =
      (SharedNamespace.ownedIndex pool owned id).map pool.entry := by
  simp only [ObjectMap.lookup, SharedNamespace.objectMap, List.find?_map,
    SharedNamespace.ownedIndex]
  rfl

/-- The map depends on the owned entries alone. -/
theorem objectMap_congr
    {pool other : SharedObjectPool} {objects changed : SharedNamespace}
    {owned : List Nat}
    (quota : changed.quota = objects.quota)
    (same : ∀ index, index ∈ owned →
      (other.node index).id = (pool.node index).id ∧
      (other.node index).generation = (pool.node index).generation ∧
      (other.node index).object = (pool.node index).object) :
    changed.objectMap other owned = objects.objectMap pool owned := by
  simp only [SharedNamespace.objectMap, quota, ObjectMap.mk.injEq, true_and]
  apply List.map_congr_left
  intro index member
  obtain ⟨id, generation, object⟩ := same index member
  simp only [SharedObjectPool.entry, id, generation, object]

/-! ## Entries from the pool -/

/-- An entry was taken out of the pool. -/
structure Acquired
    (pool : SharedObjectPool)
    (free : List Nat)
    (index : Nat)
    (taken : SharedObjectPool)
    (freeNow : List Nat) : Prop where
  bound : index < taken.nodes.length
  fresh : index ∈ free ∨ pool.nodes.length ≤ index
  notFree : index ∉ freeNow
  freeChain : Chain.Linked (fun index => (taken.node index).ownerNext)
    taken.freeHead freeNow
  freeDistinct : freeNow.Nodup
  subset : ∀ position, position ∈ freeNow → position ∈ free
  node_eq : ∀ position, position < pool.nodes.length →
    taken.node position = pool.node position
  length_le : pool.nodes.length ≤ taken.nodes.length
  cover : ∀ position, position < taken.nodes.length ↔
    position = index ∨ position ∈ freeNow ∨
      position < pool.nodes.length ∧ position ∉ free
  available_eq : taken.availableCount = freeNow.length
  reserved_le : taken.reservedCount ≤ freeNow.length
  nextGeneration_eq : taken.nextGeneration = pool.nextGeneration

/-- Taking an entry out of the pool answers as the counts of the maps do. -/
def Takes
    (pool : SharedObjectPool)
    (maps : MapWorld)
    (free : List Nat)
    (acquired : Except Error Nat × SharedObjectPool)
    (taken : Except Error MapWorld) : Prop :=
  match acquired, taken with
  | (.error cause, after), .error expected => cause = expected ∧ after = pool
  | (.ok index, after), .ok expected =>
      ∃ freeNow, Acquired pool free index after freeNow ∧
        expected = { maps with
          total := after.nodes.length
          free := freeNow.length
          reserved := after.reservedCount }
  | _, _ => False

/-- Free entries are in the pool. -/
theorem Holds.lt_length
    (holds : Holds world owned free)
    {index : Nat}
    (member : index ∈ free) : index < world.pool.nodes.length :=
  holds.cover.mpr (Or.inl member)

/-- Popping the free list, with one reservation less or not. -/
theorem Holds.pop
    (holds : Holds world owned free)
    {reserved : Nat}
    (room : reserved < free.length) :
    ∃ index freeNow,
      { world.pool with reservedCount := reserved }.acquirePhysical =
        (.ok index,
          { world.pool with
            freeHead := (world.pool.node index).ownerNext
            availableCount := freeNow.length
            reservedCount := reserved }) ∧
      freeNow.length = free.length - 1 ∧
      Acquired world.pool free index
        { world.pool with
          freeHead := (world.pool.node index).ownerNext
          availableCount := freeNow.length
          reservedCount := reserved } freeNow := by
  cases free with
  | nil => simp at room
  | cons index freeNow =>
      obtain ⟨atHead, rest⟩ := holds.freeChain
      have distinct := List.nodup_cons.mp holds.freeDistinct
      have bound := holds.lt_length (List.mem_cons_self : index ∈ index :: freeNow)
      refine ⟨index, freeNow, ?_, rfl, bound, Or.inl (by simp), distinct.1,
        rest, distinct.2, fun position member => List.mem_cons_of_mem _ member,
        fun _ _ => rfl, le_rfl, fun position => ?_, rfl,
        Nat.le_of_lt_succ room, rfl⟩
      · simp only [SharedObjectPool.acquirePhysical, atHead,
          holds.available_eq]
        rfl
      · have member := @Holds.lt_length _ _ _ holds position
        simp only [List.mem_cons] at member ⊢
        constructor
        · intro inside
          by_cases inFree : position = index ∨ position ∈ freeNow
          · exact inFree.elim Or.inl (Or.inr ∘ Or.inl)
          · exact Or.inr (Or.inr ⟨inside, inFree⟩)
        · rintro (rfl | inFree | outside)
          · exact bound
          · exact member (Or.inr inFree)
          · exact outside.1

/-- Growing the pool by one entry. -/
theorem Holds.grow
    (holds : Holds world owned free) :
    Acquired world.pool free world.pool.nodes.length
      { world.pool with
        nodes := world.pool.nodes ++ [({} : SharedObjectNode)] } free := by
  have inside := @Holds.lt_length _ _ _ holds
  have same (position : Nat) (before : position < world.pool.nodes.length) :
      SharedObjectPool.node { world.pool with
        nodes := world.pool.nodes ++ [({} : SharedObjectNode)] } position =
        world.pool.node position := by
    simp only [SharedObjectPool.node]
    rw [List.getD_append _ _ _ _ before]
  refine ⟨by simp, Or.inr le_rfl,
    fun member => absurd (inside member) (Nat.lt_irrefl _), ?_,
    holds.freeDistinct, fun _ member => member, same, by simp,
    fun position => ?_, holds.available_eq, holds.reserved_le, rfl⟩
  · exact holds.freeChain.congr fun position member => by
      rw [same position (inside member)]
  · have member := @inside position
    simp only [List.length_append, List.length_singleton]
    constructor
    · intro before
      rcases Nat.lt_succ_iff_lt_or_eq.mp before with earlier | last
      · by_cases inFree : position ∈ free
        · exact Or.inr (Or.inl inFree)
        · exact Or.inr (Or.inr ⟨earlier, inFree⟩)
      · exact Or.inl last
    · rintro (rfl | inFree | outside)
      · exact Nat.lt_succ_self _
      · exact Nat.lt_succ_of_lt (member inFree)
      · exact Nat.lt_succ_of_lt outside.1

/-- Taking an entry refines the count of the pool. -/
theorem Refines.acquire
    (refines : Refines world maps owned free)
    (granted : Bool) :
    Takes world.pool maps free (world.pool.acquire granted)
      (maps.take granted) := by
  have reserved := refines.reserved_le
  have available := refines.available_eq
  have freeCount : maps.free = world.pool.availableCount :=
    refines.free_eq.trans available.symm
  simp only [SharedObjectPool.acquire, MapWorld.take, freeCount,
    refines.reserved_eq, refines.total_eq]
  by_cases exhausted :
      world.pool.availableCount = world.pool.reservedCount
  · simp only [if_pos exhausted]
    by_cases largest : world.pool.nodes.length ≥ sharedEnd
    · simp only [if_pos largest]
      exact ⟨rfl, rfl⟩
    · simp only [if_neg largest]
      cases granted with
      | false => exact ⟨rfl, rfl⟩
      | true =>
          refine ⟨free, refines.toHolds.grow, ?_⟩
          rw [← refines.free_eq, freeCount, ← refines.reserved_eq]
          simp
  · simp only [if_neg exhausted]
    obtain ⟨index, freeNow, popped, length, acquired⟩ :=
      refines.toHolds.pop (by omega : world.pool.reservedCount < free.length)
    change Takes _ _ _ ({ world.pool with
      reservedCount := world.pool.reservedCount }.acquirePhysical) _
    rw [popped]
    refine ⟨freeNow, acquired, ?_⟩
    rw [length, available, ← refines.total_eq, ← refines.reserved_eq]

/-- Taking a reserved entry refines the counts of the pool. -/
theorem Refines.acquireReserved
    (refines : Refines world maps owned free) :
    Takes world.pool maps free world.pool.acquireReserved
      maps.takeReserved := by
  have reserved := refines.reserved_le
  simp only [SharedObjectPool.acquireReserved, MapWorld.takeReserved,
    refines.free_eq, refines.reserved_eq]
  by_cases none : world.pool.reservedCount = 0
  · simp only [if_pos none]
    exact ⟨rfl, rfl⟩
  · simp only [if_neg none]
    obtain ⟨index, freeNow, popped, length, acquired⟩ := refines.toHolds.pop
      (by omega : world.pool.reservedCount - 1 < free.length)
    rw [popped]
    refine ⟨freeNow, acquired, ?_⟩
    rw [length, ← refines.total_eq]

/-! ## Calls on one namespace -/

/-- A call that writes only to entries of its slot and to free ones. -/
theorem Refines.put
    (refines : Refines world maps owned free)
    {slot : Nat} {before objects : SharedNamespace} {pool : SharedObjectPool}
    {ownedNow freeNow : List Nat} {mapsNow : MapWorld}
    (live : world.namespaces slot = some before)
    (freeChain : Chain.Linked (fun index => (pool.node index).ownerNext)
      pool.freeHead freeNow)
    (freeDistinct : freeNow.Nodup)
    (available : pool.availableCount = freeNow.length)
    (reserved : pool.reservedCount ≤ freeNow.length)
    (owns : SharedNamespace.Owns pool objects ownedNow)
    (length : world.pool.nodes.length ≤ pool.nodes.length)
    (frame : ∀ other index, other ≠ slot → index ∈ owned other →
      pool.node index = world.pool.node index ∧
        index ∉ ownedNow ∧ index ∉ freeNow)
    (cover : ∀ index, index < pool.nodes.length ↔
      index ∈ freeNow ∨ index ∈ ownedNow ∨
        ∃ other, other ≠ slot ∧ index ∈ owned other)
    (apart : ∀ index, index ∈ ownedNow → index ∉ freeNow)
    (stamps : ∀ bucket, bucket ∈ objects.buckets →
      bucket ∈ before.buckets ∨
        bucket.connectionGeneration = before.connectionGeneration)
    (generation :
      objects.connectionGeneration = before.connectionGeneration)
    (lengthBuckets : objects.buckets.length = before.buckets.length)
    (mapsEq : mapsNow = { maps with
      maps := Function.update maps.maps slot
        (some (objects.objectMap pool ownedNow))
      total := pool.nodes.length
      free := freeNow.length
      reserved := pool.reservedCount
      issued := mapsNow.issued })
    (issued : pool.nextGeneration = nextGeneration^[mapsNow.issued] 1) :
    Refines (world.put slot objects pool) mapsNow
      (Function.update owned slot ownedNow) freeNow := by
  have namespaces (other : Nat) (elsewhere : other ≠ slot) :
      (world.put slot objects pool).namespaces other =
        world.namespaces other :=
    Function.update_of_ne elsewhere _ _
  have here : (world.put slot objects pool).namespaces slot = some objects :=
    Function.update_self _ _ _
  have arrayBefore : world.array slot = before.buckets := by
    simp only [SharedWorld.array, live]
  have arrayHere : (world.put slot objects pool).array slot =
      objects.buckets := by
    simp only [SharedWorld.array, here]
  rw [mapsEq]
  refine
    { toHolds := ?_
      maps_eq := fun other => ?_
      lengths_eq := fun other => ?_
      lengths_lt := refines.lengths_lt
      used_eq := refines.used_eq
      total_eq := rfl
      free_eq := rfl
      reserved_eq := rfl
      issued_eq := issued }
  · refine refines.toHolds.write namespaces (fun _ _ => rfl)
      (fun _ _ => rfl) freeChain freeDistinct available reserved
      (fun current same => ?_) (fun empty => ?_) length frame cover apart
      (fun bucket member => ?_) (fun current same => ?_)
    · rw [here, Option.some.injEq] at same
      rw [← same]
      exact owns
    · rw [here] at empty
      cases empty
    · rw [arrayHere] at member
      rcases stamps bucket member with old | current
      · rw [← arrayBefore] at old
        exact refines.stamps old
      · rw [current]
        exact Or.inr (refines.generation live)
    · rw [here, Option.some.injEq] at same
      rw [← same, generation]
      exact refines.generation live
  · by_cases there : other = slot
    · subst there
      rw [here]
      simp only [Function.update_self, Option.map_some]
      rfl
    · simp only [Function.update_of_ne there, namespaces other there,
        refines.maps_eq]
      refine Option.map_congr fun current _ => ?_
      refine (objectMap_congr rfl fun index member => ?_).symm
      have same : (world.put slot objects pool).pool.node index =
          world.pool.node index := (frame other index there member).1
      simp only [same, and_self]
  · by_cases there : other = slot
    · subst there
      rw [arrayHere, lengthBuckets, ← arrayBefore]
      exact refines.lengths_eq other
    · rw [show (world.put slot objects pool).array other = world.array other by
        simp only [SharedWorld.array, namespaces other there]
        rfl]
      exact refines.lengths_eq other

/-- A call that writes to entries of its slot alone, and takes and gives back
none. -/
theorem Refines.rewrite
    (refines : Refines world maps owned free)
    {slot : Nat} {before objects : SharedNamespace} {pool : SharedObjectPool}
    (live : world.namespaces slot = some before)
    (owns : SharedNamespace.Owns pool objects (owned slot))
    (frame : ∀ index, index ∉ owned slot →
      pool.node index = world.pool.node index)
    (same : pool = { world.pool with nodes := pool.nodes })
    (length : pool.nodes.length = world.pool.nodes.length)
    (buckets : objects.buckets = before.buckets)
    (generation :
      objects.connectionGeneration = before.connectionGeneration) :
    Refines (world.put slot objects pool)
      { maps with
        maps := Function.update maps.maps slot
          (some (objects.objectMap pool (owned slot))) } owned free := by
  have put := @Refines.put _ _ _ _ refines slot before objects pool (owned slot)
    free
    { maps with
      maps := Function.update maps.maps slot
        (some (objects.objectMap pool (owned slot))) } live
    (by
      rw [same]
      refine refines.freeChain.congr fun index inFree => ?_
      rw [← same]
      rw [frame index fun inOwned => refines.apart inOwned inFree])
    refines.freeDistinct (by rw [same]; exact refines.available_eq)
    (by rw [same]; exact refines.reserved_le) owns (le_of_eq length.symm)
    (fun other index elsewhere member =>
      ⟨frame index fun shared => elsewhere (refines.exclusive member shared),
        fun shared => elsewhere (refines.exclusive member shared),
        refines.apart member⟩)
    (fun index => by
      rw [length, refines.cover]
      refine or_congr_right ⟨?_, ?_⟩
      · rintro ⟨other, member⟩
        by_cases here : other = slot
        · exact Or.inl (here ▸ member)
        · exact Or.inr ⟨other, here, member⟩
      · rintro (member | ⟨other, _, member⟩)
        · exact ⟨slot, member⟩
        · exact ⟨other, member⟩)
    (fun index member => refines.apart member)
    (fun bucket member => Or.inl (buckets ▸ member)) generation
    (by rw [buckets])
    (by
      rw [length, ← refines.total_eq, ← refines.free_eq]
      rw [show pool.reservedCount = maps.reserved by
        rw [same]
        exact refines.reserved_eq.symm])
    (by
      rw [same]
      exact refines.issued_eq)
  rwa [Function.update_eq_self] at put

/-- A lookup changes nothing but the cache. -/
theorem Refines.recache
    (refines : Refines world maps owned free)
    {slot cachedId : Nat} {cachedIndex : Option Nat}
    {objects : SharedNamespace}
    (live : world.namespaces slot = some objects)
    (owns : SharedNamespace.Owns world.pool
      { objects with cachedId, cachedIndex } (owned slot)) :
    Refines (world.put slot { objects with cachedId, cachedIndex } world.pool)
      maps owned free := by
  have rewritten := @Refines.rewrite _ _ _ _ refines slot objects
    { objects with cachedId, cachedIndex } world.pool live owns
    (fun _ _ => rfl) rfl rfl rfl rfl
  have same : maps.maps slot = some (SharedNamespace.objectMap world.pool
      { objects with cachedId, cachedIndex } (owned slot)) := by
    rw [refines.maps_eq, live]
    rfl
  rwa [← same, Function.update_eq_self] at rewritten

/-- Where an owned entry of another slot stands after an entry was taken. -/
theorem Acquired.elsewhere
    {index : Nat} {pool : SharedObjectPool} {freeNow : List Nat}
    (acquired : Acquired world.pool free index pool freeNow)
    (holds : Holds world owned free)
    {slot position : Nat}
    (member : position ∈ owned slot) :
    pool.node position = world.pool.node position ∧ position ≠ index ∧
      position ∉ freeNow := by
  have bound := holds.cover.mpr (Or.inr ⟨slot, member⟩)
  have notFree := holds.apart member
  refine ⟨acquired.node_eq position bound, ?_,
    fun inFree => notFree (acquired.subset position inFree)⟩
  rintro rfl
  rcases acquired.fresh with inFree | outside
  · exact notFree inFree
  · exact absurd bound (Nat.not_lt.mpr outside)

/-- An insertion into a taken entry adds it to the map of its slot. -/
theorem Refines.add
    (refines : Refines world maps owned free)
    {slot index id : Nat} {before objects : SharedNamespace}
    {pool : SharedObjectPool} {freeNow : List Nat} {object : Object}
    {result : Handle × SharedNamespace × SharedObjectPool}
    (live : world.namespaces slot = some before)
    (quota : objects.quota = before.quota)
    (generation :
      objects.connectionGeneration = before.connectionGeneration)
    (buckets : objects.buckets = before.buckets)
    (acquired : Acquired world.pool free index pool freeNow)
    (inserted : SharedNamespace.Inserted pool objects (owned slot) index id
      object result) :
    let added := { maps with
      total := pool.nodes.length
      free := freeNow.length
      reserved := pool.reservedCount }.add slot
        (before.objectMap world.pool (owned slot)) id object
    .ok (.inserted result.1) = added.1 ∧
      Refines (world.put slot result.2.1 result.2.2) added.2
        (Function.update owned slot (owned slot ++ [index])) freeNow := by
  intro added
  have issued : result.1 =
      { id, generation := nextGeneration^[maps.issued] 1 } := by
    rw [inserted.handle_eq, acquired.nextGeneration_eq, refines.issued_eq]
  refine ⟨by rw [issued]; rfl, ?_⟩
  have stays {other position : Nat} (member : position ∈ owned other) :=
    acquired.elsewhere refines.toHolds member
  have freeApart {position : Nat} (member : position ∈ freeNow) :
      position ∉ owned slot ∧ position ≠ index :=
    ⟨fun shared => (stays shared).2.2 member,
      fun same => acquired.notFree (same ▸ member)⟩
  have freeNodes : ∀ position, position ∈ freeNow →
      result.2.2.node position = pool.node position := fun position member =>
    inserted.frame position (freeApart member).1 (freeApart member).2
  refine refines.put live ?_ acquired.freeDistinct ?_ ?_ inserted.owns ?_
    (fun other position elsewhere member => ?_) (fun position => ?_)
    (fun position member => ?_) (fun bucket member => ?_) ?_ ?_ ?_ ?_
  · rw [inserted.freeHead_eq]
    exact acquired.freeChain.congr fun position member => by
      rw [freeNodes position member]
  · rw [inserted.availableCount_eq, acquired.available_eq]
  · rw [inserted.reservedCount_eq]
    exact acquired.reserved_le
  · rw [inserted.length_eq]
    exact acquired.length_le
  · have there := stays member
    have notHere : position ∉ owned slot := fun shared =>
      elsewhere (refines.exclusive member shared)
    refine ⟨?_, ?_, there.2.2⟩
    · rw [inserted.frame position notHere there.2.1, there.1]
    · simp [notHere, there.2.1]
  · rw [inserted.length_eq, acquired.cover, List.mem_append,
      List.mem_singleton, refines.cover]
    constructor
    · rintro (new | inFree | ⟨inFree | ⟨other, member⟩, outside⟩)
      · exact Or.inr (Or.inl (Or.inr new))
      · exact Or.inl inFree
      · exact absurd inFree outside
      · by_cases same : other = slot
        · exact Or.inr (Or.inl (Or.inl (same ▸ member)))
        · exact Or.inr (Or.inr ⟨other, same, member⟩)
    · rintro (inFree | (member | new) | ⟨other, _, member⟩)
      · exact Or.inr (Or.inl inFree)
      · exact Or.inr (Or.inr ⟨Or.inr ⟨slot, member⟩, refines.apart member⟩)
      · exact Or.inl new
      · exact Or.inr (Or.inr ⟨Or.inr ⟨other, member⟩, refines.apart member⟩)
  · rcases List.mem_append.mp member with old | new
    · exact (stays old).2.2
    · rw [List.mem_singleton.mp new]
      exact acquired.notFree
  · have stamp := inserted.stamps bucket member
    rwa [buckets, generation] at stamp
  · rw [inserted.connectionGeneration_eq, generation]
  · rw [inserted.length_buckets, buckets]
  · have same : (before.objectMap world.pool (owned slot)).add
        { handle := { id, generation := nextGeneration^[maps.issued] 1 }
          object } =
        result.2.1.objectMap result.2.2 (owned slot ++ [index]) := by
      simp only [ObjectMap.add, SharedNamespace.objectMap,
        inserted.quota_eq, quota, List.map_append, List.map_cons,
        List.map_nil, ObjectMap.mk.injEq, true_and]
      refine congr (congrArg _ (List.map_congr_left fun position member => ?_))
        ?_
      · obtain ⟨sameId, sameGeneration, sameObject⟩ :=
          inserted.kept position member
        simp only [SharedObjectPool.entry, sameId, sameGeneration, sameObject,
          (stays member).1]
      · obtain ⟨sameId, sameGeneration, sameObject⟩ := inserted.fresh
        simp only [SharedObjectPool.entry, sameId, sameGeneration, sameObject,
          acquired.nextGeneration_eq, refines.issued_eq]
    simp only [added, MapWorld.add, same, inserted.length_eq,
      inserted.reservedCount_eq]
  · rw [inserted.nextGeneration_eq, acquired.nextGeneration_eq,
      refines.issued_eq]
    exact (Function.iterate_succ_apply' _ _ _).symm

end Wayring
