import Wayring.Objects.LocalIds
import Wayring.Objects.Teardown
import Wayring.Protocol

/-!
# Stores of server objects

What the server needs of the objects of a connection, whether they are in a
table of their own or in the shared pool: lookups that change nothing that can
be seen, and removals that fail only for handles that do not resolve.
-/

namespace Wayring

/-! ## Objects in a table -/

namespace ServerObjects

variable {server next : ServerObjects}

/-- The objects of a connection whose first object is the display. -/
inductive Connected : ServerObjects → Prop
  | init {maxObjects maxServerIds : Nat} {displayContext : Option Nat}
      {tableGranted idsGranted : Bool} {server : ServerObjects}
      (created : init maxObjects maxServerIds wlDisplay displayContext
        tableGranted idsGranted = .ok server) : Connected server
  | insertClient {server next : ServerObjects} {id version : Nat}
      {interface : Interface} {context : Option Nat} {handle : Handle}
      (connected : Connected server)
      (inserted : server.insertClient id interface version context =
        .ok (handle, next)) : Connected next
  | createLocal {server : ServerObjects} {version : Nat}
      {interface : Interface} {context : Option Nat}
      (connected : Connected server) :
      Connected (server.createLocal interface version context).2
  | cancel {server next : ServerObjects} {removal : Removal} {object : Object}
      (connected : Connected server)
      (taken : server.cancel removal = .ok (object, next)) : Connected next

/-- Objects in the server range have active IDs, and object 1 is the
display. -/
structure Tracks (server : ServerObjects) : Prop where
  wellFormed : server.objects.table.WellFormed
  ids : ∃ free, server.ids.Sound free
  isActive : ∀ {id object}, server.objects.table.get id = some object →
    serverIdStart ≤ id → server.ids.Active id
  display : ∀ {object}, server.objects.table.get displayId = some object →
    object.interface = wlDisplay

/-- New objects are tracked. -/
theorem Tracks.init
    {maxObjects maxServerIds : Nat} {displayContext : Option Nat}
    {tableGranted idsGranted : Bool}
    (created : init maxObjects maxServerIds wlDisplay displayContext
      tableGranted idsGranted = .ok server) : server.Tracks := by
  unfold ServerObjects.init at created
  cases inited : Namespace.init maxObjects tableGranted with
  | error cause =>
      rw [inited] at created
      cases created
  | ok objects =>
      rw [inited] at created
      cases numbered : ServerIds.init maxServerIds idsGranted with
      | error cause =>
          rw [numbered] at created
          cases created
      | ok ids =>
          rw [numbered] at created
          simp only [bind, Except.bind] at created
          cases inserted : objects.insert displayId wlDisplay 1 displayContext
              false with
          | error cause =>
              rw [inserted] at created
              cases created
          | ok outcome =>
              rw [inserted] at created
              cases created
              obtain ⟨fresh, empty⟩ := Namespace.init_spec inited
              obtain ⟨wellFormed, _, _, get⟩ :=
                Namespace.insert_spec fresh inserted
              refine ⟨wellFormed, ⟨[], .init numbered⟩, ?_, ?_⟩
              · intro id object stored isServer
                rw [get, empty] at stored
                split_ifs at stored with isDisplay
                have low : displayId < serverIdStart := by decide
                omega
              · intro object stored
                rw [get, if_pos rfl] at stored
                cases stored
                rfl

/-- A new object under an active ID, or outside the server range. -/
theorem Tracks.insert
    {id version : Nat} {interface : Interface} {context : Option Nat}
    {handle : Handle} {objects : Namespace} {ids : ServerIds} {free : List Nat}
    (tracks : server.Tracks)
    (inserted : server.objects.insert id interface version context false =
      .ok (handle, objects))
    (sound : ids.Sound free)
    (kept : ∀ other, server.ids.Active other → ids.Active other)
    (numbered : serverIdStart ≤ id → ids.Active id)
    (notDisplay : id ≠ displayId) :
    Tracks { objects, ids } := by
  obtain ⟨wellFormed, _, _, get⟩ :=
    Namespace.insert_spec tracks.wellFormed inserted
  refine ⟨wellFormed, ⟨free, sound⟩, ?_, ?_⟩
  · intro other object stored isServer
    rw [get] at stored
    split_ifs at stored with same
    · rw [same] at isServer ⊢
      exact numbered isServer
    · exact kept other (tracks.isActive stored isServer)
  · intro object stored
    rw [get, if_neg (Ne.symm notDisplay)] at stored
    exact tracks.display stored

/-- An object that goes leaves an ID outside the server range, or gives it
back. -/
theorem Tracks.remove
    {handle : Handle} {object : Object} {objects : Namespace}
    {ids : ServerIds} {free : List Nat}
    (tracks : server.Tracks)
    (removed : server.objects.remove handle = some (object, objects))
    (sound : ids.Sound free)
    (kept : ∀ other, other ≠ handle.id → server.ids.Active other →
      ids.Active other) :
    Tracks { objects, ids } := by
  have spec := Namespace.remove_spec tracks.wellFormed handle
  rw [removed] at spec
  obtain ⟨_, wellFormed, get⟩ := spec
  refine ⟨wellFormed, ⟨free, sound⟩, ?_, ?_⟩
  · intro other content stored isServer
    rw [get] at stored
    split_ifs at stored with same
    exact kept other same (tracks.isActive stored isServer)
  · intro content stored
    rw [get] at stored
    split_ifs at stored
    exact tracks.display stored

theorem Tracks.createLocal
    {version : Nat} {interface : Interface} {context : Option Nat}
    (tracks : server.Tracks) :
    (server.createLocal interface version context).2.Tracks := by
  obtain ⟨free, sound⟩ := tracks.ids
  unfold ServerObjects.createLocal
  cases acquired : server.ids.acquire with
  | error cause => exact tracks
  | ok taken =>
      obtain ⟨id, ids⟩ := taken
      obtain ⟨⟨rest, soundNow⟩, isServer, inactive, isActive, kept⟩ :=
        sound.acquire acquired
      have low : displayId < serverIdStart := by decide
      simp only
      cases inserted : server.objects.insert id interface version context
          false with
      | ok outcome =>
          exact tracks.insert inserted soundNow kept (fun _ => isActive)
            (by omega)
      | error cause =>
          obtain ⟨idsNow, released, ⟨restNow, soundLast⟩, keptLast⟩ :=
            soundNow.release isActive
          simp only [released]
          refine ⟨tracks.wellFormed, ⟨restNow, soundLast⟩, ?_, tracks.display⟩
          intro other object stored otherServer
          have wasActive := tracks.isActive stored otherServer
          refine keptLast other ?_ (kept other wasActive)
          rintro rfl
          exact inactive wasActive

theorem Tracks.insertClient
    {id version : Nat} {interface : Interface} {context : Option Nat}
    {handle : Handle}
    (tracks : server.Tracks)
    (inserted : server.insertClient id interface version context =
      .ok (handle, next)) : next.Tracks := by
  obtain ⟨free, sound⟩ := tracks.ids
  unfold ServerObjects.insertClient at inserted
  split_ifs at inserted with outside
  cases outcome : server.objects.insert id interface version context false with
  | error cause =>
      rw [outcome] at inserted
      cases inserted
  | ok result =>
      rw [outcome] at inserted
      cases inserted
      have one : displayId = 1 := rfl
      exact tracks.insert outcome sound (fun _ isActive => isActive)
        (fun isServer => by omega) (by omega)

/-- A client's object that resolves can be removed. -/
theorem Tracks.cancelClient
    {handle : Handle} {object : Object}
    (tracks : server.Tracks)
    (resolved : server.resolve handle = some object)
    (lower : 2 ≤ handle.id) (upper : handle.id < serverIdStart) :
    ∃ next, server.cancelClient handle = .ok (object, next) := by
  obtain ⟨objects, removed, _⟩ :=
    Namespace.remove_of_resolve tracks.wellFormed resolved
  refine ⟨{ server with objects }, ?_⟩
  rw [ServerObjects.cancelClient, if_neg (by omega), removed]

/-- A server's object that resolves can be removed. -/
theorem Tracks.cancelLocal
    {handle : Handle} {object : Object}
    (tracks : server.Tracks)
    (resolved : server.resolve handle = some object)
    (lower : serverIdStart ≤ handle.id) :
    ∃ next, server.cancelLocal handle = .ok (object, next) := by
  obtain ⟨free, sound⟩ := tracks.ids
  obtain ⟨objects, removed, _⟩ :=
    Namespace.remove_of_resolve tracks.wellFormed resolved
  obtain ⟨ids, released, _⟩ := sound.release
    (tracks.isActive (Table.get_of_resolve resolved) lower)
  refine ⟨{ objects, ids }, ?_⟩
  have found : server.objects.resolve handle = some object := resolved
  simp only [ServerObjects.cancelLocal, if_neg (Nat.not_lt_of_le lower), found,
    released, removed, bind, Except.bind]

theorem Tracks.cancel
    {removal : Removal} {object : Object}
    (tracks : server.Tracks)
    (taken : server.cancel removal = .ok (object, next)) : next.Tracks := by
  obtain ⟨free, sound⟩ := tracks.ids
  cases removal with
  | client handle =>
      simp only [ServerObjects.cancel, ServerObjects.cancelClient] at taken
      split_ifs at taken
      cases removed : server.objects.remove handle with
      | none =>
          rw [removed] at taken
          cases taken
      | some outcome =>
          rw [removed] at taken
          cases taken
          exact tracks.remove removed sound fun _ _ isActive => isActive
  | server handle =>
      simp only [ServerObjects.cancel, ServerObjects.cancelLocal] at taken
      split_ifs at taken with isClient
      cases resolved : server.objects.resolve handle with
      | none =>
          rw [resolved] at taken
          cases taken
      | some current =>
          obtain ⟨ids, released, ⟨rest, soundNow⟩, kept⟩ := sound.release
            (tracks.isActive (Table.get_of_resolve resolved)
              (Nat.le_of_not_lt isClient))
          rw [resolved, released] at taken
          simp only [bind, Except.bind] at taken
          cases removed : server.objects.remove handle with
          | none =>
              rw [removed] at taken
              cases taken
          | some outcome =>
              rw [removed] at taken
              cases taken
              exact tracks.remove removed soundNow kept

/-- The objects of a connection are tracked. -/
theorem Connected.tracks
    (connected : Connected server) : server.Tracks := by
  induction connected with
  | init created => exact .init created
  | insertClient _ inserted tracks => exact tracks.insertClient inserted
  | createLocal _ tracks => exact tracks.createLocal
  | cancel _ taken tracks => exact tracks.cancel taken

end ServerObjects

/-! ## Stores -/

/-- What a server does with the objects of a connection.  A lookup may write
to a cache, which `plain` leaves out. -/
structure Store (State : Type) where
  resolve : State → Handle → Option Object × State
  get : State → Nat → Option Object × State
  /-- Remove an object without telling the hook. -/
  cancel : State → Removal → Except Error Object × State
  registry : Cascade.Registry State Handle Removal Handle Object
  plain : State → State

namespace Store

variable {State : Type}

/-- The object that a handle denotes. -/
def found (store : Store State) (state : State) (handle : Handle) :
    Option Object :=
  (store.resolve state handle).1

/-- Remove an object and tell the hook, if there is one. -/
def remove
    (store : Store State)
    (hook : Option (RemovalHook State))
    (state : State)
    (removal : Removal) :
    Except Error Object × State × List (RemovalNotice State) :=
  match store.cancel state removal with
  | (.error cause, state) => (.error cause, state, [])
  | (.ok object, state) =>
      match hook with
      | none => (.ok object, state, [])
      | some hook =>
          let (notices, state) :=
            store.registry.notify hook [] removal.handle object state
          (.ok object, state, notices)

/-- An object was taken out, and further ones by the hook, which was told of
each of them once. -/
structure Took
    (store : Store State)
    (hook : Option (RemovalHook State))
    (before : State)
    (handle : Handle)
    (object : Object)
    (notices : List (RemovalNotice State))
    (after : State)
    (taken : List (Handle × Object)) : Prop where
  first : taken.head? = some (handle, object)
  distinct : (taken.map Prod.fst).Nodup
  present : ∀ entry ∈ taken, store.found before entry.1 = some entry.2
  found : ∀ other, store.found after other =
    if other ∈ taken.map Prod.fst then none else store.found before other
  told : notices.map Cascade.Notice.entry = if hook.isSome then taken else []
  alone : hook = none → taken = [(handle, object)]

/-- The states of a store hold certain objects.  Removing one of them never
fails, but for the display. -/
structure Lawful
    (store : Store State)
    (Holds : State → List (Handle × Object) → Prop) : Prop where
  registry : store.registry.Lawful Holds
  finds : ∀ {state live}, Holds state live →
    Cascade.Finds store.found state live
  resolve : ∀ {state live}, Holds state live → ∀ handle,
    Holds (store.resolve state handle).2 live ∧
      store.plain (store.resolve state handle).2 = store.plain state
  get : ∀ {state live}, Holds state live → ∀ id,
    Holds (store.get state id).2 live ∧
      store.plain (store.get state id).2 = store.plain state
  taken : ∀ {state removal object next},
    store.cancel state removal = (.ok object, next) →
      store.registry.remove state removal =
        some (removal.handle, object, next)
  refused : ∀ {state removal cause next},
    store.cancel state removal = (.error cause, next) → next = state
  client : ∀ {state live handle object}, Holds state live →
    (handle, object) ∈ live → 2 ≤ handle.id → handle.id < serverIdStart →
      ∃ next, store.cancel state (.client handle) = (.ok object, next)
  server : ∀ {state live handle object}, Holds state live →
    (handle, object) ∈ live → serverIdStart ≤ handle.id →
      ∃ next, store.cancel state (.server handle) = (.ok object, next)
  display : ∀ {state live handle object}, Holds state live →
    (handle, object) ∈ live → handle.id < 2 → object.interface = wlDisplay

variable {store : Store State} {Holds : State → List (Handle × Object) → Prop}
  {state next : State} {live : List (Handle × Object)}
  {hook : Option (RemovalHook State)} {removal : Removal} {object : Object}

/-- What lookups write to caches is not seen. -/
theorem Lawful.found_eq
    (lawful : store.Lawful Holds)
    (holds : Holds state live) (holdsNow : Holds next live)
    (handle : Handle) : store.found next handle = store.found state handle := by
  apply Option.ext
  intro object
  rw [(lawful.finds holds).2, (lawful.finds holdsNow).2]

/-- The objects found afterwards are those that were not taken out. -/
theorem Lawful.split
    {taken rest : List (Handle × Object)}
    (lawful : store.Lawful Holds)
    (holds : Holds state live)
    (whole : live.Perm (taken ++ rest))
    (holdsNow : Holds next rest) :
    (taken.map Prod.fst).Nodup ∧
      (∀ entry ∈ taken, store.found state entry.1 = some entry.2) ∧
      ∀ other, store.found next other =
        if other ∈ taken.map Prod.fst then none
        else store.found state other := by
  have distinct := ((whole.map Prod.fst).nodup_iff).mp (lawful.finds holds).1
  rw [List.map_append, List.nodup_append] at distinct
  obtain ⟨takenDistinct, -, apart⟩ := distinct
  refine ⟨takenDistinct, fun entry member => ?_, fun other => ?_⟩
  · exact ((lawful.finds holds).2 entry.1 entry.2).mpr
      (whole.mem_iff.mpr (List.mem_append_left _ member))
  apply Option.ext
  intro content
  rw [(lawful.finds holdsNow).2]
  split_ifs with gone
  · refine iff_of_false (fun present => ?_) (by simp)
    exact apart other gone other
      (List.mem_map_of_mem (f := Prod.fst) present) rfl
  · rw [(lawful.finds holds).2, whole.mem_iff, List.mem_append,
      or_iff_right]
    intro present
    exact gone (List.mem_map_of_mem (f := Prod.fst) present)

/-- A removal that succeeds takes its object out, and tells the hook. -/
theorem Lawful.took
    (lawful : store.Lawful Holds)
    (holds : Holds state live)
    (cancelled : store.cancel state removal = (.ok object, next)) :
    let outcome := store.remove hook state removal
    outcome.1 = .ok object ∧ ∃ taken rest,
      store.Took hook state removal.handle object outcome.2.2 outcome.2.1
        taken ∧ Holds outcome.2.1 rest := by
  obtain ⟨rest, whole, holdsNext⟩ :=
    lawful.registry.remove holds (lawful.taken cancelled)
  have told := (Cascade.Told.nil holds).tell whole holdsNext
  cases hook with
  | none =>
      simp only [remove, cancelled]
      have entries := lawful.split holds told.whole told.holds
      exact ⟨trivial, [(removal.handle, object)], rest,
        ⟨rfl, entries.1, entries.2.1, entries.2.2, rfl, fun _ => rfl⟩, holdsNext⟩
  | some hook =>
      simp only [remove, cancelled, Cascade.Registry.notify]
      obtain ⟨last, toldLast⟩ :=
        told.perform lawful.registry (hook _)
      have entries := lawful.split holds toldLast.whole toldLast.holds
      refine ⟨trivial, _, last, ⟨?_, entries.1, entries.2.1, entries.2.2, rfl,
        by simp⟩, toldLast.holds⟩
      obtain ⟨later, grown⟩ := store.registry.perform_notices (hook _)
        ([] ++ [(⟨removal.handle, object, next⟩ : RemovalNotice State)]) next
      rw [grown]
      rfl

end Store

/-! ## The two kinds of stores -/

namespace ServerObjects

variable {server next : ServerObjects} {live : List (Handle × Object)}

/-- The objects of a connection as a store. -/
def store : Store ServerObjects where
  resolve server handle := (server.objects.resolve handle, server)
  get server id := (server.objects.get id, server)
  cancel server removal :=
    match server.cancel removal with
    | .error cause => (.error cause, server)
    | .ok (object, server) => (.ok object, server)
  registry := registry
  plain := id

/-- The objects are the ones listed, and object 1 is the display. -/
def Keeps (server : ServerObjects) (live : List (Handle × Object)) : Prop :=
  server.Tracks ∧ server.Lists live

/-- What the store takes is cancelled. -/
theorem store_taken
    {removal : Removal} {object : Object}
    (taken : store.cancel server removal = (.ok object, next)) :
    server.cancel removal = .ok (object, next) := by
  unfold store at taken
  simp only at taken
  cases cancelled : server.cancel removal with
  | error cause =>
      rw [cancelled] at taken
      cases taken
  | ok outcome =>
      rw [cancelled] at taken
      cases taken
      rfl

/-- Objects are a lawful store. -/
theorem store_lawful : store.Lawful Keeps where
  registry :=
    { look := fun keeps _ => keeps
      remove := fun {server live call handle object next} keeps taken => by
        obtain ⟨rest, whole, lists⟩ := registry_lawful.remove keeps.2 taken
        refine ⟨rest, whole, ?_, lists⟩
        have removed : ServerObjects.registry.remove server call =
            some (handle, object, next) := taken
        unfold ServerObjects.registry at removed
        cases cancelled : server.cancel call with
        | error cause =>
            simp only [cancelled] at removed
            cases removed
        | ok outcome =>
            simp only [cancelled] at removed
            cases removed
            exact keeps.1.cancel cancelled }
  finds keeps := keeps.2.2
  resolve keeps _ := ⟨keeps, rfl⟩
  get keeps _ := ⟨keeps, rfl⟩
  taken {state removal object next} taken := by
    have cancelled := store_taken taken
    change ServerObjects.registry.remove state removal = _
    simp only [ServerObjects.registry, cancelled]
  refused {state removal cause next} failed := by
    simp only [store] at failed
    cases cancelled : state.cancel removal with
    | error other =>
        rw [cancelled] at failed
        cases failed
        rfl
    | ok outcome =>
        rw [cancelled] at failed
        cases failed
  client keeps member lower upper := by
    obtain ⟨after, cancelled⟩ :=
      keeps.1.cancelClient ((keeps.2.2.2 _ _).mpr member) lower upper
    exact ⟨after, by simp only [store, cancel, cancelled]⟩
  server keeps member lower := by
    obtain ⟨after, cancelled⟩ :=
      keeps.1.cancelLocal ((keeps.2.2.2 _ _).mpr member) lower
    exact ⟨after, by simp only [store, cancel, cancelled]⟩
  display {server live handle object} keeps member low := by
    have resolved := (keeps.2.2.2 _ _).mpr member
    have stored := Table.get_of_resolve resolved
    have isDisplay : handle.id = displayId := by
      have positive : handle.id ≠ 0 := by
        intro zero
        rw [zero] at stored
        cases stored
      unfold displayId
      omega
    rw [isDisplay] at stored
    exact keeps.1.display stored

/-- What a connection reaches is listed by its table. -/
theorem Connected.keeps
    (connected : Connected server) : ∃ live, server.Keeps live :=
  ⟨_, connected.tracks, connected.tracks.wellFormed,
    connected.tracks.wellFormed.finds⟩

end ServerObjects

namespace SharedServerObjects

variable {origin : SharedObjectPool} {owned free : List Nat}
  {state next : SharedServerObjects × SharedObjectPool}
  {live : List (Handle × Object)}

/-- The objects of a connection over a shared pool as a store. -/
def store : Store (SharedServerObjects × SharedObjectPool) where
  resolve state handle :=
    let (object, objects) := state.1.objects.resolve state.2 handle
    (object, { objects }, state.2)
  get state id :=
    let (object, objects) := state.1.objects.get state.2 id
    (object, { objects }, state.2)
  cancel state removal := state.1.cancel state.2 removal
  registry := registry
  plain state := ({ objects := state.1.objects.forget }, state.2)

/-- The objects are the ones listed, and object 1 is the display. -/
def Keeps
    (origin : SharedObjectPool)
    (owned free : List Nat)
    (state : SharedServerObjects × SharedObjectPool)
    (live : List (Handle × Object)) : Prop :=
  Lists origin owned free state live ∧
    ∀ handle object, (handle, object) ∈ live → handle.id < 2 →
      object.interface = wlDisplay

/-- A removal of an object that is not there changes nothing. -/
theorem remove_none
    {objects after : SharedNamespace} {pool poolNow : SharedObjectPool}
    {handle : Handle}
    (failed : objects.remove pool handle = (none, after, poolNow)) :
    after = objects ∧ poolNow = pool := by
  unfold SharedNamespace.remove at failed
  cases found : objects.findUncached pool handle.id with
  | none =>
      rw [found] at failed
      cases failed
      exact ⟨rfl, rfl⟩
  | some location =>
      simp only [found] at failed
      split_ifs at failed with stale
      · cases failed
        exact ⟨rfl, rfl⟩
      all_goals cases (congrArg Prod.fst failed)

theorem store_refused
    {removal : Removal} {cause : Error}
    (failed : store.cancel state removal = (.error cause, next)) :
    next = state := by
  obtain ⟨server, pool⟩ := state
  cases removal with
  | client handle =>
      simp only [store, cancel, cancelClient] at failed
      split_ifs at failed
      · cases failed
        rfl
      cases removed : server.objects.remove pool handle with
      | mk found rest =>
          rw [removed] at failed
          cases found with
          | none =>
              cases failed
              obtain ⟨same, samePool⟩ := remove_none removed
              rw [same, samePool]
          | some object => cases failed
  | server handle =>
      simp only [store, cancel, cancelLocal] at failed
      split_ifs at failed
      · cases failed
        rfl
      cases removed : server.objects.remove pool handle with
      | mk found rest =>
          rw [removed] at failed
          cases found with
          | none =>
              cases failed
              obtain ⟨same, samePool⟩ := remove_none removed
              rw [same, samePool]
          | some object => cases failed

/-- An object that is listed can be removed. -/
theorem Lists.removable
    {handle : Handle} {object : Object}
    (lists : Lists origin owned free state live)
    (member : (handle, object) ∈ live) :
    ∃ objects pool,
      state.1.objects.remove state.2 handle = (some object, objects, pool) := by
  obtain ⟨left, released, drains, rfl⟩ := lists
  obtain ⟨index, inside, same⟩ := List.mem_map.mp member
  obtain ⟨rfl, rfl⟩ := Prod.mk.inj same
  have spec := SharedNamespace.remove_spec drains.owns
    (state.2.entry index).handle
  have here : SharedNamespace.ownedIndex state.2 left
      (state.2.entry index).handle.id = some index :=
    drains.owns.ownedIndex_eq_some_iff.mpr ⟨inside, rfl⟩
  have current : (state.2.node index).generation =
      (state.2.entry index).handle.generation := rfl
  rw [here] at spec
  simp only [current, ne_eq, not_true_eq_false, if_false] at spec
  obtain ⟨⟨objects, pool⟩, removed, _⟩ := spec
  exact ⟨objects, pool, removed⟩

/-- A lookup by ID changes the cache alone. -/
theorem Lists.get
    (lists : Lists origin owned free state live)
    (id : Nat) : Lists origin owned free (store.get state id).2 live := by
  obtain ⟨left, released, drains, rfl⟩ := lists
  obtain ⟨_, owns, _⟩ := drains.owns.find_spec id
  exact ⟨left, released, ⟨owns, drains.freeChain, drains.whole,
    drains.available, drains.length_eq, drains.frame⟩, rfl⟩

theorem Keeps.rest
    {rest : List (Handle × Object)} {handle : Handle} {object : Object}
    (keeps : Keeps origin owned free state live)
    (whole : live.Perm ((handle, object) :: rest))
    (lists : Lists origin owned free next rest) :
    Keeps origin owned free next rest :=
  ⟨lists, fun _ _ member low => keeps.2 _ _
    (whole.mem_iff.mpr (List.mem_cons_of_mem _ member)) low⟩

/-- Objects over a shared pool are a lawful store. -/
theorem store_lawful
    (distinct : owned.Nodup)
    (apart : ∀ index, index ∈ free → index ∉ owned) :
    store.Lawful (Keeps origin owned free) where
  registry :=
    { look := fun keeps handle => ⟨(keeps.1.look handle).1, keeps.2⟩
      remove := fun keeps taken => by
        obtain ⟨rest, whole, lists⟩ :=
          (registry_lawful distinct apart).remove keeps.1 taken
        exact ⟨rest, whole, keeps.rest whole lists⟩ }
  finds keeps := keeps.1.finds
  resolve {state live} keeps handle :=
    ⟨⟨(keeps.1.look handle).1, keeps.2⟩, by
      have same := SharedNamespace.forget_find state.2 state.1.objects handle.id
      simp only [store, SharedNamespace.resolve]
      rw [same]⟩
  get {state live} keeps id :=
    ⟨⟨keeps.1.get id, keeps.2⟩, by
      have same := SharedNamespace.forget_find state.2 state.1.objects id
      simp only [store, SharedNamespace.get]
      rw [same]⟩
  taken {state removal object next} taken := by
    have cancelled : state.1.cancel state.2 removal = (.ok object, next) :=
      taken
    change SharedServerObjects.registry.remove state removal = _
    simp only [SharedServerObjects.registry, cancelled]
  refused := store_refused
  client {state live handle object} keeps member lower upper := by
    obtain ⟨objects, pool, removed⟩ := keeps.1.removable member
    refine ⟨({ objects }, pool), ?_⟩
    simp only [store, cancel, cancelClient, removed]
    rw [if_neg (by omega)]
  server {state live handle object} keeps member lower := by
    obtain ⟨objects, pool, removed⟩ := keeps.1.removable member
    refine ⟨({ objects }, pool), ?_⟩
    simp only [store, cancel, cancelLocal, removed]
    rw [if_neg (by omega)]
  display keeps member low := keeps.2 _ _ member low

end SharedServerObjects
end Wayring
