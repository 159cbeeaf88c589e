import Wayring.Objects.SharedRefinement

/-!
# Calls on the shared pool

Each call has the result that the same call has on the maps, and leaves a
world that stands for the maps after it.
-/

namespace Wayring

variable {world next : SharedWorld} {maps : MapWorld}
  {owned : Nat → List Nat} {free : List Nat}

/-- The outcomes of one call on the pool and on the maps. -/
def Corresponds
    (outcome : Option (SharedResult × SharedWorld))
    (expected : Option (SharedResult × MapWorld)) : Prop :=
  match outcome, expected with
  | none, none => True
  | some (result, world), some (expected, maps) =>
      result = expected ∧ ∃ owned free, Refines world maps owned free
  | _, _ => False

/-- Corresponding outcomes have one result. -/
theorem Corresponds.results_eq
    {outcome : Option (SharedResult × SharedWorld)}
    {expected : Option (SharedResult × MapWorld)}
    (matched : Corresponds outcome expected) :
    outcome.map Prod.fst = expected.map Prod.fst := by
  cases outcome <;> cases expected
  · rfl
  · exact matched.elim
  · exact matched.elim
  · exact congrArg some matched.1

/-- A call on the namespace of a slot corresponds to one on its map when it
does so for a slot in use. -/
theorem Refines.onNamespace
    (refines : Refines world maps owned free)
    (slot : Nat)
    {action : SharedNamespace → SharedObjectPool →
      SharedResult × SharedNamespace × SharedObjectPool}
    {expected : ObjectMap → SharedResult × MapWorld}
    (matched : ∀ objects, world.namespaces slot = some objects →
      Corresponds
        (some ((action objects world.pool).1,
          world.put slot (action objects world.pool).2.1
            (action objects world.pool).2.2))
        (some (expected (objects.objectMap world.pool (owned slot))))) :
    Corresponds (world.onNamespace slot action)
      ((maps.maps slot).map expected) := by
  rw [SharedWorld.onNamespace, refines.maps_eq]
  cases live : world.namespaces slot with
  | none => exact True.intro
  | some objects => exact matched objects live

/-! ## Lookups -/

/-- A call that looks an ID up and answers from the entry found. -/
theorem Refines.lookup
    (refines : Refines world maps owned free)
    (slot id : Nat)
    (action : SharedNamespace → SharedObjectPool →
      SharedResult × SharedNamespace)
    (answer : Option ObjectEntry → SharedResult)
    (found : ∀ objects,
      SharedNamespace.Owns world.pool objects (owned slot) →
      action objects world.pool =
        (answer ((objects.find world.pool id).1.map
          fun location => world.pool.entry location.index),
          (objects.find world.pool id).2)) :
    Corresponds
      (world.onNamespace slot fun objects pool =>
        ((action objects pool).1, (action objects pool).2, pool))
      (maps.read slot fun map => answer (map.lookup id)) := by
  refine refines.onNamespace slot fun objects live => ?_
  obtain ⟨same, owns, cachedId, cachedIndex, cached⟩ :=
    (refines.owns live).find_spec id
  rw [found objects (refines.owns live)]
  rw [cached] at owns
  refine ⟨?_, owned, free, ?_⟩
  · simp only [lookup_objectMap, ← same, Option.map_map]
    rfl
  · simp only [cached]
    exact refines.recache live owns

/-! ## Insertion -/

namespace SharedNamespace

variable {pool : SharedObjectPool} {objects : SharedNamespace}
  {entries : List Nat}

/-- An insertion, given the outcome of acquiring an entry for it. -/
def insertWith
    (objects : SharedNamespace)
    (pool : SharedObjectPool)
    (id : Nat)
    (interface : Interface)
    (version : Nat)
    (context : Option Nat)
    (acquired : Except Error Nat × SharedObjectPool) :
    Except Error Handle × SharedNamespace × SharedObjectPool :=
  if id = 0 then (.error .invalidId, objects, pool)
  else
    match interface.validateVersion version with
    | .error cause => (.error cause, objects, pool)
    | .ok _ =>
        let (found, objects) := objects.find pool id
        if found.isSome then (.error .duplicateId, objects, pool)
        else if objects.count = objects.quota then
          (.error .full, objects, pool)
        else
          match acquired with
          | (.error cause, pool) => (.error cause, objects, pool)
          | (.ok index, pool) =>
              let (handle, objects, pool) :=
                objects.insertAcquired pool index id interface version context
              (.ok handle, objects, pool)

/-- An ID that the map accepts. -/
theorem accept_ok
    (owns : Owns pool objects entries)
    {id version : Nat} {interface : Interface}
    (accepted : (objects.objectMap pool entries).accept id interface version =
      .ok ()) :
    id ≠ 0 ∧ ownedIndex pool entries id = none ∧
      objects.count < objects.quota := by
  unfold ObjectMap.accept at accepted
  rw [lookup_objectMap, Option.isSome_map] at accepted
  by_cases zero : id = 0
  · rw [if_pos zero] at accepted
    cases accepted
  rw [if_neg zero] at accepted
  cases validated : interface.validateVersion version with
  | error cause =>
      rw [validated] at accepted
      cases accepted
  | ok _ =>
      rw [validated] at accepted
      cases found : ownedIndex pool entries id with
      | some index =>
          rw [found] at accepted
          cases accepted
      | none =>
          refine ⟨zero, rfl, ?_⟩
          by_cases full : entries.length = objects.quota
          · rw [found] at accepted
            simp [objectMap, full, bind, Except.bind] at accepted
          · have bound := owns.count_le
            have count := owns.count_eq
            omega

/-- An insertion takes the entry exactly when the map accepts the ID. -/
theorem insertWith_spec
    (owns : Owns pool objects entries)
    (id : Nat) (interface : Interface) (version : Nat)
    (context : Option Nat)
    (acquired : Except Error Nat × SharedObjectPool) :
    ∃ cachedId cachedIndex,
      Owns pool { objects with cachedId, cachedIndex } entries ∧
      objects.insertWith pool id interface version context acquired =
        match (objects.objectMap pool entries).accept id interface version,
          acquired with
        | .error cause, _ =>
            (.error cause, { objects with cachedId, cachedIndex }, pool)
        | .ok _, (.error cause, pool) =>
            (.error cause, { objects with cachedId, cachedIndex }, pool)
        | .ok _, (.ok index, pool) =>
            let (handle, objects, pool) :=
              insertAcquired { objects with cachedId, cachedIndex } pool index
                id interface version context
            (.ok handle, objects, pool) := by
  obtain ⟨same, found, cachedId, cachedIndex, cached⟩ := owns.find_spec id
  unfold insertWith ObjectMap.accept
  rw [lookup_objectMap, Option.isSome_map, ← same, Option.isSome_map]
  by_cases zero : id = 0
  · exact ⟨_, _, owns, by simp [zero, bind, Except.bind]⟩
  rw [if_neg zero, if_neg zero]
  cases validated : interface.validateVersion version with
  | error cause => exact ⟨_, _, owns, rfl⟩
  | ok _ =>
      refine ⟨cachedId, cachedIndex, cached ▸ found, ?_⟩
      generalize objects.find pool id = outcome at cached ⊢
      obtain ⟨location, recached⟩ := outcome
      subst cached
      cases location with
      | some location => rfl
      | none =>
          simp only [objectMap, List.length_map, ← owns.count_eq]
          by_cases full : objects.count = objects.quota
          · simp only [if_pos full]
            rfl
          · simp only [if_neg full]
            obtain ⟨cause | index, after⟩ := acquired <;> rfl

/-- Inserting into a taken entry appends it to the entries of the
namespace. -/
theorem insertAcquired_of_acquired
    {world : SharedWorld} {owned : Nat → List Nat} {free freeNow : List Nat}
    (holds : Holds world owned free)
    {slot index id version : Nat} {interface : Interface}
    {context : Option Nat} {taken : SharedObjectPool}
    (owns : Owns world.pool objects (owned slot))
    (acquired : Acquired world.pool free index taken freeNow)
    (nonzero : id ≠ 0)
    (absent : ownedIndex world.pool (owned slot) id = none)
    (room : objects.count < objects.quota) :
    Inserted taken objects (owned slot) index id
      { interface, version, context }
      (objects.insertAcquired taken index id interface version context) := by
  have stays (position : Nat) (member : position ∈ owned slot) :=
    acquired.elsewhere holds member
  refine insertAcquired_spec
    (owns.frame acquired.length_le fun position member =>
      (stays position member).1) acquired.bound
    (fun member => (stays index member).2.1 rfl) nonzero ?_ room interface
    version context
  apply ownedIndex_eq_none.mpr
  intro position member
  rw [(stays position member).1]
  exact ownedIndex_eq_none.mp absent position member

end SharedNamespace

/-- An insertion that found room in the map and now takes an entry.  What
`finish` does to the namespace must not show in its map. -/
theorem Refines.addTaken
    (refines : Refines world maps owned free)
    {slot id cachedId : Nat} {cachedIndex : Option Nat}
    (interface : Interface) (version : Nat) (context : Option Nat)
    {before : SharedNamespace}
    (live : world.namespaces slot = some before)
    (owns : SharedNamespace.Owns world.pool
      { before with cachedId, cachedIndex } (owned slot))
    (nonzero : id ≠ 0)
    (absent : SharedNamespace.ownedIndex world.pool (owned slot) id = none)
    (room : before.count < before.quota)
    (finish : SharedNamespace → SharedNamespace)
    (finished : ∀ {index pool freeNow result},
      Acquired world.pool free index pool freeNow →
      SharedNamespace.Inserted pool { before with cachedId, cachedIndex }
        (owned slot) index id { interface, version, context } result →
      SharedNamespace.Inserted pool { before with cachedId, cachedIndex }
        (owned slot) index id { interface, version, context }
        (result.1, finish result.2.1, result.2.2))
    {acquired : Except Error Nat × SharedObjectPool}
    {taken : Except Error MapWorld} :
    Takes world.pool maps free acquired taken → Corresponds
      (some <| match acquired with
        | (.error cause, after) =>
            (.error cause,
              world.put slot { before with cachedId, cachedIndex } after)
        | (.ok index, after) =>
            let (handle, objects, pool) :=
              SharedNamespace.insertAcquired
                { before with cachedId, cachedIndex } after index id interface
                version context
            (.ok (.inserted handle), world.put slot (finish objects) pool))
      (some <| match taken with
        | .error cause => (.error cause, maps)
        | .ok maps =>
            maps.add slot (before.objectMap world.pool (owned slot)) id
              { interface, version, context }) := by
  intro takes
  obtain ⟨cause | index, after⟩ := acquired
  · cases taken with
    | ok expected => exact takes.elim
    | error expected =>
        obtain ⟨rfl, rfl⟩ := takes
        exact ⟨rfl, owned, free, refines.recache live owns⟩
  · cases taken with
    | error expected => exact takes.elim
    | ok expected =>
        obtain ⟨freeNow, acquired, rfl⟩ := takes
        have inserted := finished acquired
          (@SharedNamespace.insertAcquired_of_acquired
            { before with cachedId, cachedIndex } world owned free freeNow
            refines.toHolds slot index id version interface context after owns
            acquired nonzero absent room)
        obtain ⟨result, refinesNow⟩ := @Refines.add _ _ _ _ refines slot index
          id before { before with cachedId, cachedIndex } after freeNow _ _
          live rfl rfl rfl acquired inserted
        exact ⟨result, _, _, refinesNow⟩

/-- An insertion into an acquired entry corresponds to one into the map. -/
theorem Refines.insertWith
    (refines : Refines world maps owned free)
    (slot id : Nat) (interface : Interface) (version : Nat)
    (context : Option Nat)
    {acquire : SharedObjectPool → Except Error Nat × SharedObjectPool}
    {taken : Except Error MapWorld}
    (takes : Takes world.pool maps free (acquire world.pool) taken) :
    Corresponds
      (world.onNamespace slot fun objects pool =>
        let (result, objects, pool) := objects.insertWith pool id interface
          version context (acquire pool)
        (result.map .inserted, objects, pool))
      (maps.addWith slot { interface, version, context }
        (fun map => (map.accept id interface version).map fun _ => id)
        taken) := by
  refine refines.onNamespace slot fun objects live => ?_
  obtain ⟨cachedId, cachedIndex, owns, inserted⟩ :=
    SharedNamespace.insertWith_spec (refines.owns live) id interface version
      context (acquire world.pool)
  simp only [inserted]
  cases accepted : (objects.objectMap world.pool (owned slot)).accept id
      interface version with
  | error cause => exact ⟨rfl, owned, free, refines.recache live owns⟩
  | ok _ =>
      obtain ⟨nonzero, absent, room⟩ :=
        SharedNamespace.accept_ok (refines.owns live) accepted
      have added := refines.addTaken interface version context live owns
        nonzero absent room (fun objects => objects)
        (fun _ inserted => inserted) takes
      generalize acquire world.pool = acquired at takes added ⊢
      obtain ⟨cause | index, after⟩ := acquired <;>
        cases taken <;> exact added

/-! ## Server IDs -/

section FirstFree

variable {occupied : Nat → Bool}

/-- The search stops at the first free ID, or at its end. -/
theorem firstFree_spec
    (fuel start : Nat) :
    let id := SharedNamespace.firstFree occupied fuel start
    start ≤ id ∧ id ≤ start + fuel ∧
      (∀ other, start ≤ other → other < id → occupied other) ∧
      (id < start + fuel → id ≤ maxU32 → ¬ occupied id) := by
  induction fuel generalizing start with
  | zero =>
      exact ⟨le_rfl, le_rfl, fun other lower upper => by
        simp only [SharedNamespace.firstFree] at upper
        omega, fun inside => absurd inside (Nat.lt_irrefl _)⟩
  | succ fuel inductionHypothesis =>
      simp only [SharedNamespace.firstFree]
      by_cases passed : start ≤ maxU32 ∧ occupied start
      · rw [if_pos passed]
        obtain ⟨lower, upper, before, stopped⟩ :=
          inductionHypothesis (start + 1)
        refine ⟨by omega, by omega, fun other from_ until_ => ?_,
          fun inside => stopped (by omega)⟩
        rcases Nat.eq_or_lt_of_le from_ with rfl | later
        · exact passed.2
        · exact before other later until_
      · rw [if_neg passed]
        exact ⟨le_rfl, by omega, fun other lower upper => by omega,
          fun _ inside taken => passed ⟨inside, taken⟩⟩

/-- The search may skip IDs known to be taken. -/
theorem firstFree_skip
    {start cursor : Nat}
    (ordered : start ≤ cursor)
    (bound : cursor ≤ maxU32 + 1)
    (taken : ∀ id, start ≤ id → id < cursor → occupied id) :
    SharedNamespace.firstFree occupied (maxU32 + 1 - start) start =
      SharedNamespace.firstFree occupied (maxU32 + 1 - cursor) cursor := by
  induction cursor, ordered using Nat.le_induction with
  | base => rfl
  | succ cursor ordered inductionHypothesis =>
      rw [inductionHypothesis (by omega)
        fun id lower upper => taken id lower (Nat.lt_succ_of_lt upper)]
      have fuel : maxU32 + 1 - cursor = maxU32 + 1 - (cursor + 1) + 1 := by
        omega
      rw [fuel, SharedNamespace.firstFree, if_pos]
      exact ⟨by omega, taken cursor ordered (Nat.lt_succ_self _)⟩

end FirstFree

/-- The server cursor may move past the ID just inserted. -/
theorem SharedNamespace.Inserted.advance
    {pool : SharedObjectPool} {objects : SharedNamespace} {entries : List Nat}
    {index id : Nat} {object : Object}
    {result : Handle × SharedNamespace × SharedObjectPool}
    (inserted : SharedNamespace.Inserted pool objects entries index id object
      result)
    (lower : serverIdStart ≤ id)
    (upper : id ≤ maxU32)
    (taken : ∀ other, serverIdStart ≤ other → other < id →
      ∃ index, index ∈ entries ∧ (pool.node index).id = other) :
    SharedNamespace.Inserted pool objects entries index id object
      (result.1, { result.2.1 with nextServerId := id + 1 }, result.2.2) where
  handle_eq := inserted.handle_eq
  owns :=
    { lt_length := inserted.owns.lt_length
      distinct := inserted.owns.distinct
      forward := inserted.owns.forward
      backward := inserted.owns.backward
      count_eq := inserted.owns.count_eq
      count_le := inserted.owns.count_le
      id_ne_zero := inserted.owns.id_ne_zero
      id_inj := inserted.owns.id_inj
      power := inserted.owns.power
      bucket := fun position bound => by
        obtain ⟨chain, bucketChain⟩ := inserted.owns.bucket position bound
        exact ⟨chain, bucketChain.linked, bucketChain.distinct,
          bucketChain.mem_iff⟩
      cache := inserted.owns.cache
      cursor_ge := Nat.le_succ_of_le lower
      cursor_le := Nat.succ_le_succ upper
      cursor := fun other from_ until_ => by
        rcases Nat.lt_succ_iff_lt_or_eq.mp until_ with before | rfl
        · obtain ⟨entry, member, same⟩ := taken other from_ before
          exact ⟨entry, by simp [member],
            by rw [(inserted.kept entry member).1, same]⟩
        · exact ⟨index, by simp, inserted.fresh.1⟩ }
  fresh := inserted.fresh
  kept := inserted.kept
  frame := inserted.frame
  length_eq := inserted.length_eq
  freeHead_eq := inserted.freeHead_eq
  availableCount_eq := inserted.availableCount_eq
  reservedCount_eq := inserted.reservedCount_eq
  nextGeneration_eq := inserted.nextGeneration_eq
  quota_eq := inserted.quota_eq
  connectionGeneration_eq := inserted.connectionGeneration_eq
  stamps := inserted.stamps
  length_buckets := inserted.length_buckets

/-- The bucket walk finds an ID exactly when the map has it. -/
theorem SharedNamespace.Owns.isSome_findUncached
    {pool : SharedObjectPool} {objects : SharedNamespace} {entries : List Nat}
    (owns : SharedNamespace.Owns pool objects entries)
    (id : Nat) :
    (objects.findUncached pool id).isSome =
      ((objects.objectMap pool entries).lookup id).isSome := by
  rw [lookup_objectMap, Option.isSome_map, ← (owns.find_spec id).1,
    owns.find_eq_findUncached, Option.isSome_map]

/-- The search from the cursor finds the lowest free server ID. -/
theorem SharedNamespace.Owns.firstFree_eq
    {pool : SharedObjectPool} {objects : SharedNamespace} {entries : List Nat}
    (owns : SharedNamespace.Owns pool objects entries) :
    SharedNamespace.firstFree
        (fun id => (objects.findUncached pool id).isSome)
        (maxU32 + 1 - objects.nextServerId) objects.nextServerId =
      (objects.objectMap pool entries).freeServerId := by
  rw [funext owns.isSome_findUncached, ObjectMap.freeServerId]
  refine (firstFree_skip owns.cursor_ge owns.cursor_le
    fun id lower upper => ?_).symm
  rw [lookup_objectMap, Option.isSome_map, Option.isSome_iff_ne_none]
  intro absent
  obtain ⟨index, member, same⟩ := owns.cursor id lower upper
  exact ownedIndex_eq_none.mp absent index member same

/-- Insertion under a server ID refines that of the map. -/
theorem Refines.insertServer
    (refines : Refines world maps owned free)
    (slot : Nat) (interface : Interface) (version : Nat)
    (context : Option Nat) (granted : Bool) :
    Corresponds
      (world.step (.insertServer slot interface version context granted))
      (maps.step (.insertServer slot interface version context granted)) := by
  simp only [SharedWorld.step, MapWorld.step, MapWorld.addWith]
  refine refines.onNamespace slot fun objects live => ?_
  have owns := refines.owns live
  have unchanged : Refines (world.put slot objects world.pool) maps owned
      free := refines.recache live owns
  have lengths : (objects.objectMap world.pool (owned slot)).entries.length =
      objects.count := by
    rw [owns.count_eq]
    exact List.length_map _
  simp only [SharedNamespace.insertServer, ObjectMap.acceptServer,
    owns.firstFree_eq]
  obtain ⟨lower, upper, before, stopped⟩ := @firstFree_spec
    (fun id => ((objects.objectMap world.pool (owned slot)).lookup id).isSome)
    (maxU32 + 1 - serverIdStart) serverIdStart
  have chosen : SharedNamespace.firstFree
      (fun id => ((objects.objectMap world.pool (owned slot)).lookup id).isSome)
      (maxU32 + 1 - serverIdStart) serverIdStart =
      (objects.objectMap world.pool (owned slot)).freeServerId := rfl
  rw [chosen] at lower upper before stopped
  generalize (objects.objectMap world.pool (owned slot)).freeServerId = id
    at lower upper before stopped ⊢
  cases validated : interface.validateVersion version with
  | error cause => exact ⟨rfl, owned, free, unchanged⟩
  | ok _ =>
      by_cases full : objects.count = objects.quota
      · have fullMap : (objects.objectMap world.pool (owned slot)).entries.length
            = (objects.objectMap world.pool (owned slot)).quota :=
          lengths.trans full
        simp only [if_pos full, if_pos fullMap]
        exact ⟨rfl, owned, free, unchanged⟩
      have roomy : ¬ (objects.objectMap world.pool (owned slot)).entries.length
          = (objects.objectMap world.pool (owned slot)).quota := fun fullMap =>
        full (lengths.symm.trans fullMap)
      by_cases exhausted : id > maxU32
      · simp only [if_neg full, if_neg roomy, if_pos exhausted]
        exact ⟨rfl, owned, free, unchanged⟩
      have start : 0 < serverIdStart ∧ serverIdStart ≤ maxU32 := by decide
      have absent : SharedNamespace.ownedIndex world.pool (owned slot) id =
          none := by
        have vacant := stopped (by omega) (by omega)
        rwa [lookup_objectMap, Option.isSome_map, Bool.not_eq_true,
          Option.isSome_eq_false_iff, Option.isNone_iff_eq_none] at vacant
      have bound := owns.count_le
      have added := @Refines.addTaken _ _ _ _ refines slot id objects.cachedId
        objects.cachedIndex interface version context objects live owns
        (by omega) absent (by omega)
        (fun objects => { objects with nextServerId := id + 1 })
        (fun {index pool freeNow result} acquired inserted =>
          inserted.advance lower (by omega) fun other from_ until_ => by
            have taken := before other from_ until_
            rw [lookup_objectMap, Option.isSome_map,
              Option.isSome_iff_exists] at taken
            obtain ⟨entry, found⟩ := taken
            obtain ⟨member, same⟩ := SharedNamespace.mem_of_ownedIndex found
            exact ⟨entry, member,
              by rw [(acquired.elsewhere refines.toHolds member).1, same]⟩)
        _ _ (refines.acquire granted)
      simp only [if_neg full, if_neg roomy, if_neg exhausted]
      generalize world.pool.acquire granted = acquired at added ⊢
      generalize maps.take granted = taken at added ⊢
      obtain ⟨cause | index, after⟩ := acquired <;>
        cases taken <;> exact added

/-! ## Removal -/

/-- Dropping an ID from a map erases its entry. -/
theorem SharedNamespace.Owns.drop_eq
    {pool : SharedObjectPool} {objects : SharedNamespace} {entries : List Nat}
    (owns : SharedNamespace.Owns pool objects entries)
    {index : Nat}
    (member : index ∈ entries) :
    (objects.objectMap pool entries).drop (pool.node index).id =
      objects.objectMap pool (entries.erase index) := by
  simp only [ObjectMap.drop, SharedNamespace.objectMap, ObjectMap.mk.injEq,
    true_and, List.filter_map, owns.distinct.erase_eq_filter]
  refine congrArg _ (List.filter_congr fun position inside => ?_)
  have inj := @SharedNamespace.Owns.id_inj _ _ _ owns position index inside
    member
  rw [Bool.eq_iff_iff, Function.comp_apply, bne_iff_ne, bne_iff_ne, ne_eq,
    ne_eq, not_iff_not]
  exact ⟨inj, fun same => by rw [same]; rfl⟩

/-- A removal refines that of the map. -/
theorem Refines.remove
    (refines : Refines world maps owned free)
    (slot : Nat) (handle : Handle) :
    Corresponds (world.step (.remove slot handle))
      (maps.step (.remove slot handle)) := by
  simp only [SharedWorld.step, MapWorld.step]
  refine refines.onNamespace slot fun objects live => ?_
  have owns := refines.owns live
  have unchanged : Refines (world.put slot objects world.pool) maps owned
      free := refines.recache live owns
  have spec := SharedNamespace.remove_spec owns handle
  rw [ObjectMap.resolve, lookup_objectMap]
  cases found : SharedNamespace.ownedIndex world.pool (owned slot)
      handle.id with
  | none =>
      rw [found] at spec
      simp only [spec]
      exact ⟨rfl, owned, free, unchanged⟩
  | some index =>
      rw [found] at spec
      obtain ⟨member, same⟩ := SharedNamespace.mem_of_ownedIndex found
      by_cases stale : (world.pool.node index).generation ≠ handle.generation
      · simp only [if_pos stale] at spec
        have other : (world.pool.entry index).handle ≠ handle := fun equal =>
          stale (congrArg Handle.generation equal)
        simp only [spec, Option.map_some, Option.filter_some, beq_iff_eq,
          if_neg other]
        exact ⟨rfl, owned, free, unchanged⟩
      · simp only [if_neg stale] at spec
        obtain ⟨⟨objectsNow, pool⟩, result, removed⟩ := spec
        have current : (world.pool.entry index).handle = handle := by
          rw [SharedObjectPool.entry, same, not_not.mp stale]
        simp only [result, Option.map_some, Option.filter_some, beq_iff_eq,
          if_pos current]
        refine ⟨rfl, _, index :: free, refines.put live ?_ ?_ ?_ ?_
          removed.owns ?_ (fun other position elsewhere inside => ?_)
          (fun position => ?_) (fun position inside => ?_)
          removed.stamps removed.connectionGeneration_eq
          removed.length_buckets ?_ ?_⟩
        · rw [removed.freeHead_eq]
          refine ⟨rfl, ?_⟩
          have freed : (pool.node index).ownerNext = world.pool.freeHead :=
            removed.freed
          simp only [freed]
          refine Chain.Linked.congr refines.freeChain fun position inside => ?_
          have kept : pool.node position = world.pool.node position :=
            removed.frame position fun shared => refines.apart shared inside
          rw [kept]
        · rw [List.nodup_cons]
          exact ⟨refines.apart member, refines.freeDistinct⟩
        · rw [removed.availableCount_eq, refines.available_eq,
            List.length_cons]
        · rw [removed.reservedCount_eq, List.length_cons]
          exact Nat.le_succ_of_le refines.reserved_le
        · rw [removed.length_eq]
        · have notHere : position ∉ owned slot := fun shared =>
            elsewhere (refines.exclusive inside shared)
          refine ⟨removed.frame position notHere,
            fun kept => notHere (List.mem_of_mem_erase kept), ?_⟩
          rw [List.mem_cons, not_or]
          exact ⟨fun isIndex => notHere (isIndex ▸ member),
            refines.apart inside⟩
        · rw [removed.length_eq, refines.cover, List.mem_cons,
            owns.distinct.mem_erase_iff]
          constructor
          · rintro (inFree | ⟨other, inside⟩)
            · exact Or.inl (Or.inr inFree)
            · by_cases here : other = slot
              · subst here
                by_cases isIndex : position = index
                · exact Or.inl (Or.inl isIndex)
                · exact Or.inr (Or.inl ⟨isIndex, inside⟩)
              · exact Or.inr (Or.inr ⟨other, here, inside⟩)
          · rintro ((isIndex | inFree) | ⟨_, inside⟩ | ⟨other, _, inside⟩)
            · exact Or.inr ⟨slot, isIndex ▸ member⟩
            · exact Or.inl inFree
            · exact Or.inr ⟨slot, inside⟩
            · exact Or.inr ⟨other, inside⟩
        · rw [owns.distinct.mem_erase_iff] at inside
          rw [List.mem_cons, not_or]
          exact ⟨inside.1, refines.apart inside.2⟩
        · have kept : objectsNow.objectMap pool ((owned slot).erase index) =
              objects.objectMap world.pool ((owned slot).erase index) :=
            objectMap_congr removed.quota_eq fun position _ =>
              removed.kept position
          rw [kept, ← same, owns.drop_eq member, removed.length_eq,
            ← refines.total_eq, removed.reservedCount_eq,
            ← refines.reserved_eq, List.length_cons, ← refines.free_eq]
        · rw [removed.nextGeneration_eq]
          exact refines.issued_eq

/-! ## Creation and teardown -/

/-- The end of a namespace refines that of its map. -/
theorem Refines.deinit
    (refines : Refines world maps owned free)
    (slot : Nat) :
    Corresponds (world.step (.deinit slot)) (maps.step (.deinit slot)) := by
  simp only [SharedWorld.step, MapWorld.step, refines.maps_eq]
  cases live : world.namespaces slot with
  | none => exact True.intro
  | some objects =>
      have owns := refines.owns live
      have spec := SharedObjectPool.releaseChain_spec owns refines.freeChain
        fun index inFree inOwned => refines.apart inOwned inFree
      obtain ⟨chain, length, available, reserved, generation, frame⟩ := spec
      have arrayBefore : world.array slot = objects.buckets := by
        simp only [SharedWorld.array, live]
      have elsewhere {other index : Nat} (apart : other ≠ slot)
          (member : index ∈ owned other) : index ∉ owned slot := fun shared =>
        apart (refines.exclusive member shared)
      let torn : SharedWorld :=
        { world with
          pool := objects.deinit world.pool
          arrays := Function.update world.arrays slot objects.buckets
          namespaces := Function.update world.namespaces slot none }
      have gone : torn.namespaces slot = none := Function.update_self _ _ _
      have others (other : Nat) (apart : other ≠ slot) :
          torn.namespaces other = world.namespaces other ∧
            torn.arrays other = world.arrays other :=
        ⟨Function.update_of_ne apart _ _, Function.update_of_ne apart _ _⟩
      have arrays (other : Nat) : torn.array other = world.array other := by
        by_cases here : other = slot
        · subst here
          rw [arrayBefore, SharedWorld.array, gone]
          exact Function.update_self _ _ _
        · simp only [SharedWorld.array, others other here]
      have holds : Holds torn (Function.update owned slot [])
          (owned slot ++ free) := by
        refine refines.toHolds.write (fun other apart => (others other apart).1)
          (fun other apart => (others other apart).2) (fun _ _ => rfl) chain
          ?_ ?_ ?_ (fun current same => ?_) (fun _ => rfl) ?_
          (fun other index apart member => ?_) (fun index => ?_)
          (fun index member => absurd member (List.not_mem_nil))
          (fun bucket member => ?_) (fun current same => ?_)
        · rw [List.nodup_append]
          exact ⟨owns.distinct, refines.freeDistinct,
            fun left inOwned right inFree same =>
              refines.apart inOwned (same ▸ inFree)⟩
        · rw [available, refines.available_eq, List.length_append,
            Nat.add_comm]
        · rw [reserved, List.length_append]
          exact Nat.le_add_left_of_le refines.reserved_le
        · rw [gone] at same
          cases same
        · rw [length]
        · refine ⟨frame index (elsewhere apart member), List.not_mem_nil, ?_⟩
          rw [List.mem_append, not_or]
          exact ⟨elsewhere apart member, refines.apart member⟩
        · rw [length, refines.cover, List.mem_append]
          constructor
          · rintro (inFree | ⟨other, member⟩)
            · exact Or.inl (Or.inr inFree)
            · by_cases here : other = slot
              · exact Or.inl (Or.inl (here ▸ member))
              · exact Or.inr (Or.inr ⟨other, here, member⟩)
          · rintro ((member | inFree) | none | ⟨other, _, member⟩)
            · exact Or.inr ⟨slot, member⟩
            · exact Or.inl inFree
            · exact absurd none List.not_mem_nil
            · exact Or.inr ⟨other, member⟩
        · rw [arrays] at member
          exact refines.stamps member
        · rw [gone] at same
          cases same
      refine ⟨rfl, _, _, holds, fun other => ?_, fun other => ?_,
        refines.lengths_lt, refines.used_eq, ?_, ?_, ?_, ?_⟩
      · by_cases here : other = slot
        · subst here
          rw [gone]
          exact Function.update_self _ _ _
        · rw [(others other here).1]
          simp only [Function.update_of_ne here, refines.maps_eq]
          refine Option.map_congr fun current _ =>
            (objectMap_congr rfl fun index member => ?_).symm
          rw [show torn.pool.node index = world.pool.node index from
            frame index (elsewhere here member)]
          exact ⟨rfl, rfl, rfl⟩
      · rw [refines.lengths_eq, ← arrays]
      · exact refines.total_eq.trans length.symm
      · simp only [SharedNamespace.objectMap, List.length_map,
          List.length_append, refines.free_eq]
        exact Nat.add_comm _ _
      · exact refines.reserved_eq.trans reserved.symm
      · exact generation.trans refines.issued_eq

/-- A namespace with no entries. -/
theorem SharedNamespace.owns_nil
    {pool : SharedObjectPool} {buckets : List SharedObjectBucket}
    {connectionGeneration quota : Nat}
    (power : Table.PowerLength buckets.length)
    (foreign : ∀ bucket, bucket ∈ buckets →
      bucket.connectionGeneration ≠ connectionGeneration) :
    SharedNamespace.Owns pool { buckets, connectionGeneration, quota } [] where
  lt_length member := absurd member List.not_mem_nil
  distinct := List.nodup_nil
  forward := rfl
  backward := rfl
  count_eq := rfl
  count_le := Nat.zero_le _
  id_ne_zero member := absurd member List.not_mem_nil
  id_inj member := absurd member List.not_mem_nil
  power := power
  bucket position bound := by
    refine ⟨[], if_neg ?_, List.nodup_nil, fun index => by simp⟩
    change (buckets.getD position {}).connectionGeneration ≠ _
    rw [List.getD_eq_getElem _ _ bound]
    exact foreign _ (List.getElem_mem bound)
  cache := Or.inl ⟨rfl, rfl⟩
  cursor_ge := le_rfl
  cursor_le := (by decide : serverIdStart ≤ maxU32 + 1)
  cursor id lower upper := absurd lower (Nat.not_le.mpr upper)

/-- A bucket array has a power of two of buckets. -/
theorem SharedNamespace.powerLength
    {length : Nat}
    (atLeast : ¬ length < 2)
    (power : SharedNamespace.isPowerOfTwo length = true)
    (fits : length < usizeLimit) : Table.PowerLength length := by
  unfold SharedNamespace.isPowerOfTwo at power
  rw [Bool.and_eq_true, bne_iff_ne, beq_iff_eq,
    Nat.ne_zero_and_sub_one_eq_zero_iff_isPowerOfTwo] at power
  obtain ⟨bits, rfl⟩ := power
  refine ⟨bits, Nat.pos_of_ne_zero ?_, ?_, rfl⟩
  · rintro rfl
    exact atLeast (by decide)
  · exact (Nat.pow_lt_pow_iff_right (by decide : 1 < 2)).mp fits

/-- A new namespace is an empty map. -/
theorem Refines.init
    (refines : Refines world maps owned free)
    (slot connectionGeneration quota : Nat) :
    Corresponds (world.step (.init slot connectionGeneration quota))
      (maps.step (.init slot connectionGeneration quota)) := by
  simp only [SharedWorld.step, MapWorld.step, refines.maps_eq,
    Option.isSome_map, refines.used_eq]
  by_cases denied : (world.namespaces slot).isSome = true ∨
      connectionGeneration ∈ world.used slot
  · simp only [if_pos denied]
    exact True.intro
  simp only [if_neg denied]
  rw [not_or, Bool.not_eq_true, Option.isSome_eq_false_iff,
    Option.isNone_iff_eq_none] at denied
  obtain ⟨vacant, unused⟩ := denied
  have array : world.array slot = world.arrays slot := by
    simp only [SharedWorld.array, vacant]
  have length := refines.lengths_eq slot
  rw [array] at length
  have fits := refines.lengths_lt slot
  simp only [SharedNamespace.init, length]
  by_cases invalid : (world.arrays slot).length < 2 ∨
      (!SharedNamespace.isPowerOfTwo (world.arrays slot).length) = true ∨
      connectionGeneration = 0 ∨ quota = 0
  · simp only [if_pos invalid]
    exact ⟨rfl, owned, free, refines⟩
  simp only [if_neg invalid]
  rw [not_or, not_or, not_or, Bool.not_eq_true', Bool.not_eq_false]
    at invalid
  obtain ⟨atLeast, power, nonzero, _⟩ := invalid
  rw [length] at fits
  have powerLength := SharedNamespace.powerLength atLeast power fits
  let objects : SharedNamespace :=
    { buckets := world.arrays slot, connectionGeneration, quota }
  let created : SharedWorld :=
    { world with
      namespaces := Function.update world.namespaces slot (some objects)
      used := Function.update world.used slot
        (connectionGeneration :: world.used slot) }
  have live : created.namespaces slot = some objects :=
    Function.update_self _ _ _
  have used : created.used slot = connectionGeneration :: world.used slot :=
    Function.update_self _ _ _
  have others (other : Nat) (apart : other ≠ slot) :
      created.namespaces other = world.namespaces other ∧
        created.used other = world.used other :=
    ⟨Function.update_of_ne apart _ _, Function.update_of_ne apart _ _⟩
  have arrays (other : Nat) : created.array other = world.array other := by
    by_cases here : other = slot
    · subst here
      rw [array, SharedWorld.array, live]
    · simp only [SharedWorld.array, others other here]
      rfl
  have stamps (bucket : SharedObjectBucket)
      (member : bucket ∈ world.arrays slot) :
      bucket.connectionGeneration = 0 ∨
        bucket.connectionGeneration ∈ world.used slot :=
    refines.stamps (array ▸ member)
  have ownsNone := refines.vacant vacant
  have owns : SharedNamespace.Owns world.pool objects [] := by
    refine SharedNamespace.owns_nil powerLength fun bucket member same => ?_
    rcases stamps bucket member with zero | old
    · exact nonzero (same.symm.trans zero)
    · exact unused (same ▸ old)
  have holds : Holds created (Function.update owned slot []) free := by
    refine refines.toHolds.write (fun other apart => (others other apart).1)
      (fun _ _ => rfl) (fun other apart => (others other apart).2)
      refines.freeChain refines.freeDistinct refines.available_eq
      refines.reserved_le (fun current same => ?_) (fun _ => rfl) le_rfl
      (fun other index _ member =>
        ⟨rfl, List.not_mem_nil, refines.apart member⟩) (fun index => ?_)
      (fun index member => absurd member List.not_mem_nil)
      (fun bucket member => ?_) (fun current same => ?_)
    · rw [live, Option.some.injEq] at same
      exact same ▸ owns
    · refine refines.cover.trans (or_congr_right ?_)
      constructor
      · rintro ⟨other, member⟩
        refine Or.inr ⟨other, ?_, member⟩
        rintro rfl
        rw [ownsNone] at member
        exact List.not_mem_nil member
      · rintro (none | ⟨other, _, member⟩)
        · exact absurd none List.not_mem_nil
        · exact ⟨other, member⟩
    · rw [arrays, array] at member
      rw [used, List.mem_cons]
      exact (stamps bucket member).imp_right Or.inr
    · rw [live, Option.some.injEq] at same
      rw [used, ← same]
      exact List.mem_cons_self
  refine ⟨rfl, _, _, holds, fun other => ?_, fun other => ?_,
    refines.lengths_lt, rfl, refines.total_eq, refines.free_eq,
    refines.reserved_eq, refines.issued_eq⟩
  · by_cases here : other = slot
    · subst here
      rw [live]
      simp only [Function.update_self, Option.map_some]
      rfl
    · rw [(others other here).1]
      simp only [Function.update_of_ne here]
      exact refines.maps_eq other
  · rw [arrays]
    exact refines.lengths_eq other

/-! ## Every call -/

/-- Setting entries aside. -/
theorem Refines.setReserved
    (refines : Refines world maps owned free)
    {reserved : Nat}
    (room : reserved ≤ free.length) :
    Refines
      { world with pool := { world.pool with reservedCount := reserved } }
      { maps with reserved } owned free where
  freeChain := refines.freeChain
  freeDistinct := refines.freeDistinct
  available_eq := refines.available_eq
  reserved_le := room
  owns live := (refines.owns live).frame le_rfl fun _ _ => rfl
  vacant := refines.vacant
  cover := refines.cover
  apart := refines.apart
  exclusive := refines.exclusive
  stamps := refines.stamps
  generation := refines.generation
  maps_eq := refines.maps_eq
  lengths_eq := refines.lengths_eq
  lengths_lt := refines.lengths_lt
  used_eq := refines.used_eq
  total_eq := refines.total_eq
  free_eq := refines.free_eq
  reserved_eq := rfl
  issued_eq := refines.issued_eq

/-- A reservation refines the counts. -/
theorem Refines.reserve
    (refines : Refines world maps owned free)
    (count : Nat) :
    Corresponds (world.step (.reserve count)) (maps.step (.reserve count)) := by
  have room : world.pool.availableCount - world.pool.reservedCount =
      maps.free - maps.reserved := by
    rw [refines.free_eq, refines.reserved_eq, refines.available_eq]
  simp only [SharedWorld.step, MapWorld.step, SharedObjectPool.reserve, room]
  by_cases full : count > maps.free - maps.reserved
  · simp only [if_pos full]
    exact ⟨rfl, owned, free, refines⟩
  · simp only [if_neg full]
    have bound := refines.reserved_le
    rw [refines.free_eq, refines.reserved_eq] at full
    refine ⟨rfl, owned, free, ?_⟩
    rw [refines.reserved_eq]
    exact refines.setReserved (by omega)

/-- A reservation that is restored refines the counts. -/
theorem Refines.restoreReservation
    (refines : Refines world maps owned free) :
    Corresponds (world.step .restoreReservation)
      (maps.step .restoreReservation) := by
  simp only [SharedWorld.step, MapWorld.step,
    SharedObjectPool.restoreReservation]
  by_cases room : world.pool.reservedCount < world.pool.availableCount
  · have roomMap : maps.reserved < maps.free := by
      rwa [refines.free_eq, refines.reserved_eq, ← refines.available_eq]
    simp only [if_pos room, if_pos roomMap]
    rw [refines.available_eq] at room
    refine ⟨rfl, owned, free, ?_⟩
    rw [refines.reserved_eq]
    exact refines.setReserved room
  · have fullMap : ¬ maps.reserved < maps.free := by
      rwa [refines.free_eq, refines.reserved_eq, ← refines.available_eq]
    simp only [if_neg room, if_neg fullMap]
    exact True.intro

/-- What a lookup finds has the ID looked up. -/
theorem SharedNamespace.Owns.id_of_find
    {pool : SharedObjectPool} {objects : SharedNamespace} {entries : List Nat}
    (owns : SharedNamespace.Owns pool objects entries)
    {id : Nat} {location : SharedNamespace.Location}
    (found : (objects.find pool id).1 = some location) :
    (pool.node location.index).id = id := by
  have same := (owns.find_spec id).1
  rw [found] at same
  exact (SharedNamespace.mem_of_ownedIndex same.symm).2

/-- A message lookup answers from the entry found. -/
theorem SharedNamespace.dispatch_eq
    {pool : SharedObjectPool} {objects : SharedNamespace}
    (id : Nat)
    (message : Interface → Nat → Except Error Message) :
    (match objects.get pool id with
      | (none, objects) => (.error .unknownObject, objects)
      | (some object, objects) =>
          ((do
            let message ← message object.interface object.version
            .ok { object, message } : Except Error Dispatch), objects)) =
      (ObjectMap.dispatchOf message ((objects.find pool id).1.map
          fun location => pool.entry location.index),
        (objects.find pool id).2) := by
  unfold SharedNamespace.get
  cases objects.find pool id with
  | mk found after => cases found <;> rfl

/-- Each call on the pool has the result it has on the maps. -/
theorem step_corresponds
    (refines : Refines world maps owned free)
    (operation : SharedOperation) :
    Corresponds (world.step operation) (maps.step operation) := by
  cases operation with
  | init slot connectionGeneration quota =>
      exact refines.init slot connectionGeneration quota
  | deinit slot => exact refines.deinit slot
  | insert slot id interface version context granted =>
      exact @Refines.insertWith _ _ _ _ refines slot id interface version
        context (fun pool => pool.acquire granted) _ (refines.acquire granted)
  | insertReserved slot id interface version context =>
      exact @Refines.insertWith _ _ _ _ refines slot id interface version
        context SharedObjectPool.acquireReserved _ refines.acquireReserved
  | insertServer slot interface version context granted =>
      exact refines.insertServer slot interface version context granted
  | get slot id =>
      refine refines.lookup slot id
        (fun objects pool =>
          (.ok (.object (objects.get pool id).1), (objects.get pool id).2))
        (fun found => .ok (.object (found.map ObjectEntry.object)))
        fun objects _ => ?_
      simp only [SharedNamespace.get, Option.map_map]
      rfl
  | resolve slot handle =>
      refine refines.lookup slot handle.id
        (fun objects pool =>
          (.ok (.object (objects.resolve pool handle).1),
            (objects.resolve pool handle).2))
        (fun found => .ok (.object
          ((found.filter fun entry => entry.handle == handle).map
            ObjectEntry.object)))
        fun objects owns => ?_
      have sameId := @SharedNamespace.Owns.id_of_find _ _ _ owns handle.id
      simp only [SharedNamespace.resolve]
      generalize objects.find world.pool handle.id = outcome at sameId ⊢
      obtain ⟨_ | location, after⟩ := outcome
      · rfl
      · have id := sameId rfl
        have current : (world.pool.entry location.index).handle = handle ↔
            (world.pool.node location.index).generation =
              handle.generation := by
          cases handle
          simp [SharedObjectPool.entry, id]
        by_cases same : (world.pool.node location.index).generation =
            handle.generation
        · simp [same, current.mpr same]
          rfl
        · simp [same, mt current.mp same]
  | lookupHandle slot id =>
      refine refines.lookup slot id
        (fun objects pool =>
          (.ok (.handle (objects.lookupHandle pool id).1),
            (objects.lookupHandle pool id).2))
        (fun found => .ok (.handle (found.map ObjectEntry.handle)))
        fun objects owns => ?_
      have sameId := @SharedNamespace.Owns.id_of_find _ _ _ owns id
      simp only [SharedNamespace.lookupHandle]
      generalize objects.find world.pool id = outcome at sameId ⊢
      obtain ⟨_ | location, after⟩ := outcome
      · rfl
      · simp only [Option.map_some, SharedObjectPool.entry, sameId rfl]
  | request slot id opcode =>
      refine refines.lookup slot id
        (fun objects pool =>
          ((objects.request pool id opcode).1.map .dispatch,
            (objects.request pool id opcode).2))
        (fun found => Except.map .dispatch (ObjectMap.dispatchOf
          (fun interface version => interface.request opcode version) found))
        fun objects _ => ?_
      have dispatched : objects.request world.pool id opcode = _ :=
        SharedNamespace.dispatch_eq id
          fun interface version => interface.request opcode version
      simp only [dispatched]
  | event slot id opcode =>
      refine refines.lookup slot id
        (fun objects pool =>
          ((objects.event pool id opcode).1.map .dispatch,
            (objects.event pool id opcode).2))
        (fun found => Except.map .dispatch (ObjectMap.dispatchOf
          (fun interface version => interface.event opcode version) found))
        fun objects _ => ?_
      have dispatched : objects.event world.pool id opcode = _ :=
        SharedNamespace.dispatch_eq id
          fun interface version => interface.event opcode version
      simp only [dispatched]
  | remove slot handle => exact refines.remove slot handle
  | reserve count => exact refines.reserve count
  | restoreReservation => exact refines.restoreReservation

end Wayring
