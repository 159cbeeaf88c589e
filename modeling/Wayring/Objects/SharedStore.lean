import Wayring.Objects.ServerStore
import Wayring.Objects.SharedRuns

/-!
# Stores over the shared pool

Connections that share a pool each see a store of objects of their own.  What a
connection does with it, and what its removal hook does, are calls on the pool,
so the pool stays shared out among all of them.
-/

namespace Wayring

/-! ## Objects in the shared pool -/

/-- Below the IDs of a client only wl_display is inserted, as
`SharedServerObjects.init` and `insertClient` do. -/
def SharedOperation.ShowsDisplay : SharedOperation → Prop
  | .insert _ id interface _ _ _ | .insertReserved _ id interface _ _ =>
      id < 2 → interface = wlDisplay
  | _ => True

namespace MapWorld

/-- Below the IDs of a client every map has wl_display alone. -/
def ShowsDisplay (world : MapWorld) : Prop :=
  ∀ slot map, world.maps slot = some map → ∀ entry, entry ∈ map.entries →
    entry.handle.id < 2 → entry.object.interface = wlDisplay

variable {world next : MapWorld} {operation : SharedOperation}
  {result : SharedResult}

/-- An insertion adds an object of its interface under an ID it accepts. -/
theorem ShowsDisplay.addWith
    {slot : Nat} {object : Object} {accepted : ObjectMap → Except Error Nat}
    {taken : Except Error MapWorld}
    (shows : world.ShowsDisplay)
    (allowed : ∀ map id, accepted map = .ok id → id < 2 →
      object.interface = wlDisplay)
    (counts : ∀ after, taken = .ok after →
      after.maps = world.maps ∧ after.issued = world.issued)
    (stepped : world.addWith slot object accepted taken =
      some (result, next)) : next.ShowsDisplay := by
  obtain ⟨map, live, same⟩ := Option.map_eq_some_iff.mp stepped
  cases choice : accepted map with
  | error cause =>
      rw [choice] at same
      cases same
      exact shows
  | ok id =>
      rw [choice] at same
      cases taken with
      | error cause =>
          cases same
          exact shows
      | ok after =>
          obtain ⟨maps, _⟩ := counts after rfl
          cases same
          intro other content found entry member low
          simp only [maps, Function.update_apply] at found
          split_ifs at found with here
          · cases found
            rcases List.mem_append.mp member with old | new
            · exact shows slot map live entry old low
            · rw [List.mem_singleton.mp new] at low ⊢
              exact allowed map id choice low
          · exact shows other content found entry member low

/-- A call that inserts nothing adds no object. -/
theorem ShowsDisplay.plain
    (shows : world.ShowsDisplay)
    (stepped : world.step operation = some (result, next))
    (plain : insertions [result] = 0) : next.ShowsDisplay := by
  intro other content found entry member low
  rcases (step_effect stepped).entries found member with
    ⟨before, live, old⟩ | ⟨one, _⟩
  · exact shows other before live entry old low
  · rw [plain] at one
    cases one

/-- A lookup adds no object. -/
theorem ShowsDisplay.read
    {slot : Nat} {answer : ObjectMap → SharedResult}
    (shows : world.ShowsDisplay)
    (stepped : world.read slot answer = some (result, next)) :
    next.ShowsDisplay := by
  obtain ⟨map, _, same⟩ := Option.map_eq_some_iff.mp stepped
  cases same
  exact shows

/-- An ID is accepted as it is asked for. -/
theorem accept_id
    {map : ObjectMap} {id accepted version : Nat} {interface : Interface}
    (given : ((map.accept id interface version).map fun _ => id) =
      .ok accepted) : accepted = id := by
  cases outcome : map.accept id interface version with
  | error cause =>
      rw [outcome] at given
      cases given
  | ok _ =>
      rw [outcome] at given
      cases given
      rfl

/-- The IDs of the server are not below those of the clients. -/
theorem acceptServer_ge
    {map : ObjectMap} {id version : Nat} {interface : Interface}
    (given : map.acceptServer interface version = .ok id) :
    serverIdStart ≤ id := by
  obtain ⟨lower, _⟩ := @firstFree_spec
    (fun id => (map.lookup id).isSome) (maxU32 + 1 - serverIdStart)
    serverIdStart
  unfold ObjectMap.acceptServer at given
  cases valid : interface.validateVersion version with
  | error cause =>
      rw [valid] at given
      cases given
  | ok _ =>
      rw [valid] at given
      dsimp only [bind, Except.bind] at given
      split_ifs at given
      cases given
      exact lower

/-- Every call keeps wl_display alone below the IDs of the clients. -/
theorem ShowsDisplay.step
    (shows : world.ShowsDisplay)
    (allowed : operation.ShowsDisplay)
    (stepped : world.step operation = some (result, next)) :
    next.ShowsDisplay := by
  cases operation with
  | insert slot id interface version context granted =>
      refine shows.addWith (fun map taken given low => ?_)
        (fun _ => take_counts) stepped
      rw [accept_id given] at low
      exact allowed low
  | insertReserved slot id interface version context =>
      refine shows.addWith (fun map taken given low => ?_)
        (fun _ => takeReserved_counts) stepped
      rw [accept_id given] at low
      exact allowed low
  | insertServer slot interface version context granted =>
      refine shows.addWith (fun map taken given low => ?_)
        (fun _ => take_counts) stepped
      have high := acceptServer_ge given
      have start : 2 ≤ serverIdStart := by decide
      omega
  | get | resolve | lookupHandle | request | event => exact shows.read stepped
  | init slot connectionGeneration quota =>
      refine shows.plain stepped ?_
      simp only [MapWorld.step] at stepped
      split_ifs at stepped <;> cases stepped <;> rfl
  | deinit slot =>
      obtain ⟨map, _, same⟩ := Option.map_eq_some_iff.mp stepped
      refine shows.plain stepped ?_
      cases same
      rfl
  | remove slot handle =>
      obtain ⟨map, _, same⟩ := Option.map_eq_some_iff.mp stepped
      refine shows.plain stepped ?_
      cases found : map.resolve handle <;> rw [found] at same <;> cases same <;>
        rfl
  | reserve count =>
      refine shows.plain stepped ?_
      simp only [MapWorld.step] at stepped
      split_ifs at stepped <;> cases stepped <;> rfl
  | restoreReservation =>
      refine shows.plain stepped ?_
      simp only [MapWorld.step] at stepped
      split_ifs at stepped
      cases stepped
      rfl

end MapWorld

/-- An entry below the IDs of the clients is of wl_display. -/
theorem Refines.display
    {world : SharedWorld} {maps : MapWorld} {owned : Nat → List Nat}
    {free : List Nat} {slot : Nat} {objects : SharedNamespace}
    (refines : Refines world maps owned free)
    (shows : maps.ShowsDisplay)
    (live : world.namespaces slot = some objects)
    {index : Nat}
    (member : index ∈ owned slot)
    (low : (world.pool.node index).id < 2) :
    (world.pool.node index).object.interface = wlDisplay := by
  have here : maps.maps slot =
      some (objects.objectMap world.pool (owned slot)) := by
    rw [refines.maps_eq, live]
    rfl
  exact shows slot _ here (world.pool.entry index)
    (List.mem_map_of_mem member) low

/-! ## Sound worlds -/

namespace SharedWorld

/-- The pool and its namespaces stand for maps in which wl_display alone is
below the IDs of the clients. -/
def Sound (world : SharedWorld) : Prop :=
  ∃ maps owned free, Refines world maps owned free ∧ maps.ShowsDisplay

variable {world next : SharedWorld} {slot : Nat}
  {objects after : SharedNamespace} {pool poolNow : SharedObjectPool}

/-- What a slot has after a namespace was put back. -/
theorem put_namespaces :
    (world.put slot objects pool).namespaces slot = some objects :=
  Function.update_self _ _ _

/-- The last namespace that is put back stays. -/
theorem put_put :
    (world.put slot objects pool).put slot after poolNow =
      world.put slot after poolNow := by
  simp only [put, Function.update_idem]

/-- A namespace is put back as it was. -/
theorem put_self
    (live : world.namespaces slot = some objects) :
    world.put slot objects world.pool = world := by
  simp only [put, ← live, Function.update_eq_self]

/-- A call on a namespace that was put back. -/
theorem onNamespace_put
    (action : SharedNamespace → SharedObjectPool →
      SharedResult × SharedNamespace × SharedObjectPool) :
    (world.put slot objects pool).onNamespace slot action =
      some ((action objects pool).1,
        world.put slot (action objects pool).2.1 (action objects pool).2.2) := by
  simp only [onNamespace, put_namespaces, Option.map_some, put_put]
  rfl

namespace Sound

/-- A new pool is sound. -/
theorem start
    {capacity : Nat} {granted : Bool} {lengths : Nat → Nat}
    (created : SharedObjectPool.init capacity granted = .ok pool)
    (fits : ∀ slot, lengths slot < usizeLimit) :
    (SharedWorld.start pool lengths).Sound :=
  ⟨_, _, _, Refines.start created fits, fun _ _ absent => by cases absent⟩

/-- A call keeps a world sound. -/
theorem step
    {operation : SharedOperation} {result : SharedResult}
    (sound : world.Sound)
    (allowed : operation.ShowsDisplay)
    (stepped : world.step operation = some (result, next)) : next.Sound := by
  obtain ⟨maps, owned, free, refines, shows⟩ := sound
  have matched := step_corresponds refines operation
  rw [stepped] at matched
  cases expected : maps.step operation with
  | none =>
      rw [expected] at matched
      exact matched.elim
  | some outcome =>
      obtain ⟨answer, mapsNow⟩ := outcome
      rw [expected] at matched
      obtain ⟨_, ownedNow, freeNow, refinesNow⟩ := matched
      exact ⟨mapsNow, ownedNow, freeNow, refinesNow,
        shows.step allowed expected⟩

/-- A run keeps a world sound. -/
theorem run
    {operations : List SharedOperation} {results : List SharedResult}
    (sound : world.Sound)
    (allowed : ∀ operation, operation ∈ operations → operation.ShowsDisplay)
    (ran : world.run operations = some (results, next)) : next.Sound := by
  induction operations generalizing world results with
  | nil =>
      cases ran
      exact sound
  | cons operation operations inductionHypothesis =>
      obtain ⟨⟨_, middle⟩, stepped, rest⟩ := Option.bind_eq_some_iff.mp ran
      obtain ⟨⟨_, last⟩, continued, same⟩ := Option.bind_eq_some_iff.mp rest
      cases same
      exact inductionHypothesis
        (sound.step (allowed operation List.mem_cons_self) stepped)
        (fun later member => allowed later (List.mem_cons_of_mem _ member))
        continued

/-- A removal keeps a world sound. -/
theorem remove
    {handle : Handle} {found : Option Object}
    (sound : (world.put slot objects pool).Sound)
    (removed : objects.remove pool handle = (found, after, poolNow)) :
    (world.put slot after poolNow).Sound := by
  refine @step _ _ (.remove slot handle) (.ok (.removed found)) sound trivial ?_
  rw [SharedWorld.step, onNamespace_put, removed]

/-- A lookup by handle keeps a world sound. -/
theorem resolve
    (sound : (world.put slot objects pool).Sound)
    (handle : Handle) :
    (world.put slot (objects.resolve pool handle).2 pool).Sound := by
  refine @step _ _ (.resolve slot handle)
    (.ok (.object (objects.resolve pool handle).1)) sound trivial ?_
  rw [SharedWorld.step, onNamespace_put]

/-- A lookup by ID keeps a world sound. -/
theorem get
    (sound : (world.put slot objects pool).Sound)
    (id : Nat) :
    (world.put slot (objects.get pool id).2 pool).Sound := by
  refine @step _ _ (.get slot id)
    (.ok (.object (objects.get pool id).1)) sound trivial ?_
  rw [SharedWorld.step, onNamespace_put]

/-- What is inserted resolves. -/
theorem resolves_inserted
    {operation : SharedOperation} {handle : Handle}
    (sound : world.Sound)
    (isLocal : operation.slot = some slot)
    (stepped : world.step operation = some (.ok (.inserted handle), next)) :
    next.Resolves slot handle := by
  obtain ⟨maps, owned, free, refines, _⟩ := sound
  have matched := step_corresponds refines operation
  rw [stepped] at matched
  cases expected : maps.step operation with
  | none =>
      rw [expected] at matched
      exact matched.elim
  | some outcome =>
      obtain ⟨answer, mapsNow⟩ := outcome
      rw [expected] at matched
      obtain ⟨rfl, ownedNow, freeNow, refinesNow⟩ := matched
      have effect := MapWorld.step_effect expected
      rw [isLocal] at effect
      rw [refinesNow.resolves_iff]
      intro gone
      cases effect with
      | unchanged plain => cases plain
      | counted plain => cases plain
      | shrunk plain => cases plain
      | added target live maps issued =>
          cases target
          refine gone _ (by rw [maps, Function.update_self]) _
            (List.mem_append_right _ (List.mem_singleton_self _)) rfl

end Sound
end SharedWorld

/-! ## One connection's store -/

namespace Store

variable {State : Type} {store : Store State}
  {Holds : State → List (Handle × Object) → Prop} {kept : State → Prop}

/-- What lookups and removals keep can be added to what the states of a store
hold. -/
theorem Lawful.and
    (lawful : store.Lawful Holds)
    (keeps : store.registry.Keeps kept)
    (resolve : ∀ {state}, kept state → ∀ handle,
      kept (store.resolve state handle).2)
    (get : ∀ {state}, kept state → ∀ id, kept (store.get state id).2) :
    store.Lawful fun state live => Holds state live ∧ kept state where
  registry :=
    { look := fun both query =>
        ⟨lawful.registry.look both.1 query, keeps.look both.2 query⟩
      remove := fun both taken => by
        obtain ⟨rest, whole, holds⟩ := lawful.registry.remove both.1 taken
        exact ⟨rest, whole, holds, keeps.remove both.2 taken⟩ }
  finds both := lawful.finds both.1
  resolve both handle :=
    ⟨⟨(lawful.resolve both.1 handle).1, resolve both.2 handle⟩,
      (lawful.resolve both.1 handle).2⟩
  get both id :=
    ⟨⟨(lawful.get both.1 id).1, get both.2 id⟩, (lawful.get both.1 id).2⟩
  taken := lawful.taken
  refused := lawful.refused
  client both := lawful.client both.1
  server both := lawful.server both.1
  display both := lawful.display both.1

end Store

namespace SharedNamespace

/-- An object is inserted under the ID that was asked for. -/
theorem insert_id
    {objects : SharedNamespace} {pool : SharedObjectPool} {id version : Nat}
    {interface : Interface} {context : Option Nat} {granted : Bool}
    {handle : Handle}
    (inserted : (objects.insert pool id interface version context granted).1 =
      .ok handle) : handle.id = id := by
  unfold insert at inserted
  split_ifs at inserted
  cases valid : interface.validateVersion version with
  | error cause =>
      rw [valid] at inserted
      cases inserted
  | ok _ =>
      rw [valid] at inserted
      dsimp only at inserted
      split_ifs at inserted
      cases acquired : pool.acquire granted with
      | mk result poolNow =>
          rw [acquired] at inserted
          cases result with
          | error cause => cases inserted
          | ok index =>
              cases inserted
              rfl

end SharedNamespace

/-- A connection of a sound world has a lawful store, and wl_display alone is
below the IDs of its client. -/
theorem SharedWorld.Sound.lawful
    {world : SharedWorld} {slot : Nat} {objects : SharedNamespace}
    (sound : world.Sound)
    (live : world.namespaces slot = some objects) :
    ∃ owned free,
      (∀ index, index ∈ owned ↔ world.OwnedBy index slot) ∧
      SharedServerObjects.store.Lawful
        (SharedServerObjects.Keeps world.pool owned free) ∧
      ∃ listed, SharedServerObjects.Keeps world.pool owned free
        ({ objects }, world.pool) listed := by
  obtain ⟨maps, owned, free, refines, shows⟩ := sound
  have owns := refines.owns live
  have apart : ∀ index, index ∈ free → index ∉ owned slot :=
    fun index inFree inOwned => refines.apart inOwned inFree
  have drains : SharedServerObjects.Drains world.pool (owned slot) free
      ({ objects }, world.pool) (owned slot) [] :=
    ⟨owns, refines.freeChain, List.Perm.refl _, rfl, rfl, fun _ _ => rfl⟩
  refine ⟨owned slot, free, fun index => refines.toHolds.ownedBy_iff.symm,
    SharedServerObjects.store_lawful owns.distinct apart,
    (owned slot).map (SharedServerObjects.stored world.pool),
    ⟨owned slot, [], drains, rfl⟩, fun handle object member low => ?_⟩
  obtain ⟨index, inOwned, same⟩ := List.mem_map.mp member
  cases same
  exact refines.display shows live inOwned low

namespace SharedObjectPool

/-- Write the context of the object in an entry. -/
def setContext
    (pool : SharedObjectPool)
    (index : Nat)
    (context : Option Nat) : SharedObjectPool :=
  pool.modifyNode index fun node =>
    { node with object := { node.object with context } }

/-- Nothing of an entry changes but the context of its object. -/
theorem node_setContext
    {pool : SharedObjectPool} {index : Nat}
    (bound : index < pool.nodes.length)
    (context : Option Nat) (position : Nat) :
    ∃ later, (pool.setContext index context).node position =
      { pool.node position with
        object := { (pool.node position).object with context := later } } := by
  rw [setContext, node_modifyNode bound]
  split_ifs with here
  · subst here
    exact ⟨context, rfl⟩
  · exact ⟨_, rfl⟩

end SharedObjectPool

namespace SharedServerObjects

variable {world : SharedWorld} {slot : Nat}
  {state next : SharedServerObjects × SharedObjectPool} {handle : Handle}

/-- The objects of a slot and the pool, in a world with other connections. -/
def Stands
    (world : SharedWorld)
    (slot : Nat)
    (state : SharedServerObjects × SharedObjectPool) : Prop :=
  (world.put slot state.1.objects state.2).Sound

/-- The hook of a connection keeps a world sound. -/
theorem registry_stands : registry.Keeps (Stands world slot) where
  look stands handle := SharedWorld.Sound.resolve stands handle
  remove stands taken := SharedWorld.Sound.remove stands (registry_remove taken)

/-- While one connection uses its store, the world stays sound. -/
theorem Stands.lawful
    (stands : Stands world slot state) :
    ∃ Kept : SharedServerObjects × SharedObjectPool →
        List (Handle × Object) → Prop,
      store.Lawful Kept ∧ (∃ live, Kept state live) ∧
        ∀ {next live}, Kept next live → Stands world slot next := by
  obtain ⟨owned, free, _, lawful, live, keeps⟩ :=
    SharedWorld.Sound.lawful stands SharedWorld.put_namespaces
  exact ⟨_, lawful.and registry_stands
    (fun stands handle => SharedWorld.Sound.resolve stands handle)
    (fun stands id => SharedWorld.Sound.get stands id),
    ⟨live, keeps, stands⟩, And.right⟩

/-- What a lookup writes to the cache is not seen. -/
theorem Stands.resolve_resolve
    (stands : Stands world slot state)
    (handle name : Handle) :
    resolve (store.resolve state handle).2 name = resolve state name := by
  obtain ⟨Kept, lawful, ⟨live, keeps⟩, _⟩ := stands.lawful
  exact lawful.found_eq keeps (lawful.resolve keeps handle).1 name

/-- Teardown keeps a world sound. -/
theorem Stands.sweep
    {hook : RemovalHook (SharedServerObjects × SharedObjectPool)}
    (stands : Stands world slot state)
    (fuel : Nat)
    (notices : List (RemovalNotice (SharedServerObjects × SharedObjectPool))) :
    Stands world slot
      (SharedServerObjects.sweep hook fuel notices state).2 := by
  induction fuel generalizing notices state with
  | zero => exact stands
  | succ fuel inductionHypothesis =>
      obtain ⟨server, pool⟩ := state
      unfold SharedServerObjects.sweep
      cases server.objects.ownerTail with
      | none => exact stands
      | some tail =>
          dsimp only
          cases removed : server.objects.remove pool
              { id := (pool.node tail).id
                generation := (pool.node tail).generation } with
          | mk found rest =>
              obtain ⟨objects, poolNow⟩ := rest
              have standsNow : Stands world slot ({ objects }, poolNow) :=
                SharedWorld.Sound.remove stands removed
              cases found with
              | none => exact standsNow
              | some object =>
                  exact inductionHypothesis (registry_stands.notify hook
                    standsNow) _

/-- An insertion under an ID of the client keeps a world sound. -/
theorem Stands.insertClient
    (stands : Stands world slot state)
    (id : Nat) (interface : Interface) (version : Nat)
    (context : Option Nat) (granted : Bool) :
    Stands world slot
      (state.1.insertClient state.2 id interface version context granted).2 := by
  unfold SharedServerObjects.insertClient
  split_ifs with outside
  · exact stands
  · refine @SharedWorld.Sound.step _ _
      (.insert slot id interface version context granted)
      ((state.1.objects.insert state.2 id interface version context
        granted).1.map .inserted) stands (fun low => ?_) ?_
    · omega
    · rw [SharedWorld.step, SharedWorld.onNamespace_put]

/-- An object that resolves can be taken out, under an ID of the client. -/
theorem Stands.cancels
    {object : Object}
    (stands : Stands world slot state)
    (found : resolve state handle = some object)
    (range : 2 ≤ handle.id ∧ handle.id < serverIdStart) :
    ∃ next, state.1.cancel state.2 (.client handle) = (.ok object, next) := by
  obtain ⟨Kept, lawful, ⟨live, keeps⟩, _⟩ := stands.lawful
  exact lawful.client keeps (((lawful.finds keeps).2 _ _).mp found) range.1
    range.2

/-- What is inserted for a client is under an ID of the client, and
resolves. -/
theorem Stands.insertClient_resolves
    {id version : Nat} {interface : Interface} {context : Option Nat}
    {granted : Bool}
    (stands : Stands world slot state)
    (inserted : state.1.insertClient state.2 id interface version context
      granted = (.ok handle, next)) :
    (2 ≤ handle.id ∧ handle.id < serverIdStart) ∧
      (resolve next handle).isSome := by
  unfold SharedServerObjects.insertClient at inserted
  split_ifs at inserted with outside
  · cases inserted
  · cases stored : state.1.objects.insert state.2 id interface version context
        granted with
    | mk result rest =>
    obtain ⟨objects, pool⟩ := rest
    rw [stored] at inserted
    cases inserted
    have sameId := SharedNamespace.insert_id (congrArg Prod.fst stored)
    refine ⟨by omega, ?_⟩
    obtain ⟨found, live, resolves⟩ := @SharedWorld.Sound.resolves_inserted _
      (world.put slot objects pool) slot
      (.insert slot id interface version context granted) handle stands rfl (by
        rw [SharedWorld.step, SharedWorld.onNamespace_put, stored]
        rfl)
    rw [SharedWorld.put_namespaces] at live
    cases live
    exact resolves

/-- Write the context of an object that is there. -/
def setContext
    (state : SharedServerObjects × SharedObjectPool)
    (handle : Handle)
    (context : Option Nat) :
    Option (SharedServerObjects × SharedObjectPool) :=
  match state.1.objects.find state.2 handle.id with
  | (none, _) => none
  | (some location, objects) =>
      if (state.2.node location.index).generation ≠ handle.generation then none
      else
        some ({ objects }, state.2.setContext location.index context)

/-- The context of an object that resolves can be written. -/
theorem setContext_isSome
    {context : Option Nat}
    (found : (resolve state handle).isSome) :
    (setContext state handle context).isSome := by
  unfold resolve SharedNamespace.resolve at found
  unfold setContext
  cases outcome : state.1.objects.find state.2 handle.id with
  | mk location objects =>
      rw [outcome] at found
      cases location with
      | none => cases found
      | some location =>
          dsimp only [Option.bind_some] at found ⊢
          split_ifs at found ⊢ with stale
          · cases found
          · rfl

/-- A context changes nothing that the pool relies on. -/
theorem Stands.setContext
    {context : Option Nat}
    (stands : Stands world slot state)
    (written : setContext state handle context = some next) :
    Stands world slot next := by
  obtain ⟨maps, owned, free, refines, shows⟩ := stands
  have live : (world.put slot state.1.objects state.2).namespaces slot =
      some state.1.objects := SharedWorld.put_namespaces
  have before : SharedNamespace.Owns state.2 state.1.objects (owned slot) :=
    refines.owns live
  have spec := before.find_spec handle.id
  unfold SharedServerObjects.setContext at written
  generalize state.1.objects.find state.2 handle.id = outcome at spec written
  obtain ⟨location, objects⟩ := outcome
  obtain ⟨same, owns, cachedId, cachedIndex, cached⟩ := spec
  cases location with
  | none => cases written
  | some location =>
  dsimp only at written same owns cached
  split_ifs at written with stale
  cases written
  have member : location.index ∈ owned slot :=
    (SharedNamespace.mem_of_ownedIndex same.symm).1
  have bound := before.lt_length member
  have nodes := SharedObjectPool.node_setContext bound context
  have length : (state.2.setContext location.index context).nodes.length =
      state.2.nodes.length := SharedObjectPool.length_modifyNode _ _ _
  have rewritten := @Refines.rewrite _ _ _ _ refines slot state.1.objects
    objects (state.2.setContext location.index context) live
    (owns.relabel (le_of_eq length.symm) fun index _ => by
      obtain ⟨later, same⟩ := nodes index
      exact ⟨_, _, same⟩)
    (fun index outside => by
      rw [SharedObjectPool.setContext, SharedObjectPool.node_modifyNode bound,
        if_neg]
      · rfl
      · rintro rfl
        exact outside member)
    rfl length (by rw [cached]) (by rw [cached])
  rw [SharedWorld.put_put] at rewritten
  refine ⟨_, _, _, rewritten, fun other content stored entry inside low => ?_⟩
  simp only [Function.update_apply] at stored
  split_ifs at stored with here
  · cases stored
    obtain ⟨index, inOwned, rfl⟩ := List.mem_map.mp inside
    obtain ⟨later, same⟩ := nodes index
    simp only [SharedObjectPool.entry, same] at low ⊢
    exact refines.display shows live inOwned low
  · exact shows other content stored entry inside low

end SharedServerObjects
end Wayring
