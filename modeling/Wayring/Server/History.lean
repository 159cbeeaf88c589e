import Wayring.Objects.SharedStore
import Wayring.Server.Lifecycle
import Wayring.Transport.Contents

/-!
# Histories of objects

A server creates objects, sends their events and destroys them while the
transmit queue is drained.  What the client reads tells the history of the
objects.
-/

namespace Wayring

/-! ## Creation -/

/-- An object under an ID of the client, or under one of the server. -/
inductive Creation
  | client (id : Nat) (interface : Interface) (version : Nat)
      (context : Option Nat)
  | server (interface : Interface) (version : Nat) (context : Option Nat)
  deriving DecidableEq, Repr

/-- A store of objects in which objects are created. -/
structure Store.Creates {State : Type}
    (store : Store State)
    (Keeps : State → List (Handle × Object) → Prop)
    (create : State → Creation → Except Error Handle × State) : Prop where
  made : ∀ {state live creation handle next}, Keeps state live →
    create state creation = (.ok handle, next) →
      ∃ object, store.found state handle = none ∧
        store.found next =
          Function.update (store.found state) handle (some object) ∧
        ∃ listed, Keeps next listed
  refused : ∀ {state live creation cause next}, Keeps state live →
    create state creation = (.error cause, next) →
      store.found next = store.found state ∧ ∃ listed, Keeps next listed

namespace Namespace

/-- A new object is found under its handle, and nothing else changes. -/
theorem insert_resolve
    {objects result : Namespace} {handle : Handle} {id version : Nat}
    {interface : Interface} {context : Option Nat} {granted : Bool}
    (wellFormed : objects.table.WellFormed)
    (inserted : objects.insert id interface version context granted =
      .ok (handle, result)) :
    objects.resolve handle = none ∧
      result.resolve = Function.update objects.resolve handle
        (some { interface, version, context }) := by
  unfold insert at inserted
  cases valid : interface.validateVersion version with
  | error cause =>
      rw [valid] at inserted
      cases inserted
  | ok _ =>
      have spec := Table.insert_spec wellFormed id
        { interface, version, context } granted
      cases stored : objects.table.insert id { interface, version, context }
          granted with
      | error cause =>
          rw [valid, stored] at inserted
          cases inserted
      | ok pair =>
          obtain ⟨placed, table⟩ := pair
          rw [stored] at spec
          rw [valid, stored] at inserted
          cases inserted
          obtain ⟨_, absent, spec, _⟩ := spec
          have unseen : ∀ other : Handle, other.id = id →
              objects.table.resolve other = none := by
            intro other same
            rw [Table.resolve, same, absent]
            rfl
          have isId : handle.id = id := by rw [spec.handle_eq]
          refine ⟨unseen handle isId, funext fun other => ?_⟩
          rw [Function.update_apply]
          simp only [resolve, Table.resolve, spec.lookup]
          split_ifs with sameId same same
          · rw [same, spec.handle_eq]
            simp
          · have stale : objects.table.nextGeneration ≠ other.generation := by
              intro current
              apply same
              rw [spec.handle_eq, current, ← sameId]
            rw [sameId, absent]
            simp [stale]
          · exact absurd (same ▸ isId) sameId
          · rfl

end Namespace

namespace ServerObjects

variable {server next : ServerObjects} {handle : Handle}

/-- Create an object. -/
def create (server : ServerObjects) :
    Creation → Except Error Handle × ServerObjects
  | .client id interface version context =>
      match server.insertClient id interface version context with
      | .error cause => (.error cause, server)
      | .ok (handle, server) => (.ok handle, server)
  | .server interface version context =>
      server.createLocal interface version context

/-- Tracked objects are kept as a store. -/
theorem Tracks.keeps (tracks : server.Tracks) : ∃ live, server.Keeps live :=
  ⟨_, tracks, tracks.wellFormed, tracks.wellFormed.finds⟩

theorem Tracks.create
    (tracks : server.Tracks)
    (creation : Creation) : (server.create creation).2.Tracks := by
  cases creation with
  | server interface version context => exact tracks.createLocal
  | client id interface version context =>
      simp only [ServerObjects.create]
      cases inserted : server.insertClient id interface version context with
      | error cause => exact tracks
      | ok outcome =>
          obtain ⟨handle, next⟩ := outcome
          exact tracks.insertClient inserted

/-- An inserted object is found under its handle, and nothing else changes. -/
theorem insertClient_resolve
    {id version : Nat} {interface : Interface} {context : Option Nat}
    (tracks : server.Tracks)
    (inserted : server.insertClient id interface version context =
      .ok (handle, next)) :
    server.resolve handle = none ∧
      next.resolve = Function.update server.resolve handle
        (some { interface, version, context }) := by
  unfold insertClient at inserted
  split_ifs at inserted
  cases outcome : server.objects.insert id interface version context false with
  | error cause =>
      rw [outcome] at inserted
      cases inserted
  | ok result =>
      rw [outcome] at inserted
      cases inserted
      exact Namespace.insert_resolve tracks.wellFormed outcome

/-- A new object is found in the table. -/
theorem create_spec
    (tracks : server.Tracks)
    (creation : Creation) :
    match (server.create creation).1 with
    | .error _ => (server.create creation).2.resolve = server.resolve
    | .ok handle => ∃ object, server.resolve handle = none ∧
        (server.create creation).2.resolve =
          Function.update server.resolve handle (some object) := by
  cases creation with
  | client id interface version context =>
      simp only [ServerObjects.create]
      cases inserted : server.insertClient id interface version context with
      | error cause => rfl
      | ok outcome =>
          obtain ⟨handle, next⟩ := outcome
          obtain ⟨absent, found⟩ := insertClient_resolve tracks inserted
          exact ⟨_, absent, found⟩
  | server interface version context =>
      simp only [ServerObjects.create, createLocal]
      cases acquired : server.ids.acquire with
      | error cause => rfl
      | ok taken =>
          obtain ⟨id, ids⟩ := taken
          simp only
          cases inserted : server.objects.insert id interface version context
              false with
          | ok outcome =>
              obtain ⟨absent, found⟩ :=
                Namespace.insert_resolve tracks.wellFormed inserted
              exact ⟨_, absent, found⟩
          | error cause =>
              simp only
              cases ids.release id with
              | error _ => rfl
              | ok _ => rfl

/-- Objects can be created in a store of objects. -/
theorem store_creates : store.Creates Keeps create where
  made {server live creation handle next} keeps created := by
    have spec := create_spec keeps.1 creation
    have tracks := keeps.1.create creation
    rw [created] at spec tracks
    obtain ⟨object, absent, found⟩ := spec
    exact ⟨object, absent, found, tracks.keeps⟩
  refused {server live creation cause next} keeps created := by
    have spec := create_spec keeps.1 creation
    have tracks := keeps.1.create creation
    rw [created] at spec tracks
    exact ⟨spec, tracks.keeps⟩

end ServerObjects

/-! ## Runs -/

namespace Server

/-- A connection with what was sent, and what happened to its objects so
far. -/
structure Service (State : Type) where
  outlet : Outlet State
  sent : List UInt8 := []
  history : List (Lifetime Handle Object UInt8) := []

namespace Service

/-- What the server does with a connection. -/
inductive Call
  | create (creation : Creation)
  | sendEvent (event : Event) (handle : Handle)
      (payload : Codec.Payload event.signature) (rooms : Nat → Tx.Room)
  | finish (handle : Handle) (destructor : Bool) (room : Tx.Room)
  | deleteClient (handle : Handle) (room : Tx.Room)
  | begin (scratchLength controlLength : Nat)
  | complete (written : Nat)
  | failed

variable {State : Type}

/-- A call that succeeds adds to the history. -/
def record {α : Type}
    (service : Service State)
    (entries : List (RemovalNotice State) → List (Lifetime Handle Object UInt8))
    (answer : Answer State α) : Service State :=
  { service with
    outlet := answer.outlet
    history :=
      match answer.result with
      | .error _ => service.history
      | .ok _ => service.history ++ entries answer.notices }

/-- The bytes on the transmit queue. -/
def queued (service : Service State) : List UInt8 :=
  match service.outlet.queue.contents service.outlet.storage with
  | .error _ => []
  | .ok contents => contents.bytes

variable [Native]

/-- One call, or none where it fails in a way that is marked unreachable. -/
def step
    (store : Store State)
    (hook : Option (RemovalHook State))
    (create : State → Creation → Except Error Handle × State)
    (service : Service State) : Call → Option (Service State)
  | .create creation =>
      match create service.outlet.state creation with
      | (.error _, state) =>
          some { service with outlet := { service.outlet with state } }
      | (.ok handle, state) =>
          some
            { service with
              outlet := { service.outlet with state }
              history := service.history ++
                (store.found state handle).toList.map (.made handle) }
  | .sendEvent event handle payload rooms =>
      (Server.sendEvent store hook event service.outlet handle payload
        rooms).map (service.record (event.entries handle payload
          (store.found service.outlet.state handle)))
  | .finish handle destructor room =>
      (Server.finish store hook service.outlet handle destructor room).map
        (service.record fun notices =>
          if destructor then departs handle notices else [])
  | .deleteClient handle room =>
      (Server.deleteClient store hook service.outlet handle room).map
        (service.record (departs handle))
  | .begin scratchLength controlLength =>
      match service.outlet.queue.snapshot service.outlet.storage scratchLength
          controlLength with
      | .error _ => some service
      | .ok snapshot =>
          match service.outlet.queue.begin snapshot with
          | .error _ => some service
          | .ok queue =>
              some { service with outlet := { service.outlet with queue } }
  | .complete written =>
      match service.outlet.queue.complete service.outlet.storage written with
      | (.error _, queue, storage) =>
          some
            { service with outlet := { service.outlet with queue, storage } }
      | (.ok _, queue, storage) =>
          some
            { service with
              outlet := { service.outlet with queue, storage }
              sent := service.sent ++ service.queued.take written }
  | .failed =>
      match service.outlet.queue.failed with
      | .error _ => some service
      | .ok queue =>
          some { service with outlet := { service.outlet with queue } }

/-- A sequence of calls. -/
def run
    (store : Store State)
    (hook : Option (RemovalHook State))
    (create : State → Creation → Except Error Handle × State) :
    List Call → Service State → Option (Service State)
  | [], service => some service
  | call :: calls, service => do
      let service ← service.step store hook create call
      run store hook create calls service

/-- What was sent and what is queued tells the history of the objects. -/
def Sound
    (store : Store State)
    (Keeps : State → List (Handle × Object) → Prop)
    (start : Handle → Option Object)
    (service : Service State) : Prop :=
  ∃ bytes fds, service.outlet.Holds Keeps bytes fds ∧
    service.sent ++ bytes = Lifetime.itemsOf service.history ∧
    Lifetime.Trace start service.history (store.found service.outlet.state)

variable {store : Store State}
  {Keeps : State → List (Handle × Object) → Prop}
  {hook : Option (RemovalHook State)}
  {create : State → Creation → Except Error Handle × State}
  {start : Handle → Option Object} {service : Service State}

omit [Native] in
/-- A call that is served adds what it did to the history. -/
theorem sound_record
    {α : Type} {bytes : List UInt8} {fds added : List Fd}
    {entries : List (RemovalNotice State) →
      List (Lifetime Handle Object UInt8)}
    {answer : Option (Answer State α)}
    (sent : service.sent ++ bytes = Lifetime.itemsOf service.history)
    (trace : Lifetime.Trace start service.history
      (store.found service.outlet.state))
    (serves : service.outlet.Serves store Keeps bytes fds added entries
      answer) :
    ∃ next, answer.map (service.record entries) = some next ∧
      next.Sound store Keeps start := by
  obtain ⟨⟨result, outlet, notices⟩, rfl, does⟩ := serves
  refine ⟨_, rfl, ?_⟩
  cases result with
  | error cause =>
      refine ⟨bytes, fds, does.1.holds, sent, ?_⟩
      have same : store.found outlet.state =
          store.found service.outlet.state := does.1.found
      simp only [record]
      rw [same]
      exact trace
  | ok value =>
      refine ⟨_, _, does.holds, ?_, trace.append does.trace⟩
      simp only [record]
      rw [← List.append_assoc, sent, Lifetime.itemsOf_append]

omit [Native] in
/-- The queued bytes are those that the outlet holds. -/
theorem queued_eq
    {bytes : List UInt8} {fds : List Fd}
    (holds : service.outlet.Holds Keeps bytes fds) :
    service.queued = bytes := by
  obtain ⟨chain, fdChain, stores⟩ := holds.queue
  have same := Tx.Queue.Stores.contents_eq stores holds.wellFormed
  simp only [queued, same]

/-- Every call is served, and keeps the history. -/
theorem Sound.step
    (lawful : store.Lawful Keeps)
    (creates : store.Creates Keeps create)
    (sound : service.Sound store Keeps start)
    (call : Call) :
    ∃ next, service.step store hook create call = some next ∧
      next.Sound store Keeps start := by
  obtain ⟨bytes, fds, holds, sent, trace⟩ := sound
  cases call with
  | create creation =>
      obtain ⟨live, keeps⟩ := holds.objects
      simp only [Service.step]
      cases created : create service.outlet.state creation with
      | mk result state =>
          cases result with
          | error cause =>
              obtain ⟨same, listed⟩ := creates.refused keeps created
              refine ⟨_, rfl, bytes, fds,
                ⟨listed, holds.wellFormed, holds.queue⟩, sent, ?_⟩
              simp only
              rw [same]
              exact trace
          | ok handle =>
              obtain ⟨object, absent, same, listed⟩ :=
                creates.made keeps created
              have here : store.found state handle = some object := by
                rw [same, Function.update_self]
              refine ⟨_, rfl, bytes, fds,
                ⟨listed, holds.wellFormed, holds.queue⟩, ?_, ?_⟩
              · simp only [here, Option.toList_some, List.map_cons,
                  List.map_nil, Lifetime.itemsOf_append, Lifetime.itemsOf_cons,
                  Lifetime.itemsOf_nil, Lifetime.items, List.append_nil]
                exact sent
              · simp only [here, Option.toList_some, List.map_cons,
                  List.map_nil]
                exact trace.append (.single ⟨absent, same⟩)
  | sendEvent event handle payload rooms =>
      exact sound_record sent trace
        (sendEvent_spec lawful holds event handle payload rooms)
  | finish handle destructor room =>
      exact sound_record sent trace
        (finish_spec lawful holds handle destructor room)
  | deleteClient handle room =>
      exact sound_record sent trace
        (deleteClient_spec lawful holds handle room)
  | begin scratchLength controlLength =>
      simp only [Service.step]
      cases service.outlet.queue.snapshot service.outlet.storage scratchLength
          controlLength with
      | error cause => exact ⟨service, rfl, bytes, fds, holds, sent, trace⟩
      | ok snapshot =>
          simp only
          cases begun : service.outlet.queue.begin snapshot with
          | error cause => exact ⟨service, rfl, bytes, fds, holds, sent, trace⟩
          | ok queue =>
              obtain ⟨chain, fdChain, stores⟩ := holds.queue
              exact ⟨_, rfl, bytes, fds, ⟨holds.objects, holds.wellFormed,
                chain, fdChain, (stores.begin_spec begun).1⟩, sent, trace⟩
  | complete written =>
      obtain ⟨chain, fdChain, stores⟩ := holds.queue
      have spec := @Tx.Queue.complete_spec _ _ _ _ _ _ written stores
        holds.wellFormed
      simp only [Service.step] at spec ⊢
      generalize service.outlet.queue.complete service.outlet.storage written =
        outcome at spec ⊢
      obtain ⟨result, queue, storage⟩ := outcome
      cases result with
      | error cause =>
          obtain ⟨_, same⟩ := spec
          cases same
          exact ⟨_, rfl, bytes, fds, holds, sent, trace⟩
      | ok closed =>
          obtain ⟨active, chainNow, fdChainNow, _, _, _, _, completed⟩ := spec
          refine ⟨_, rfl, _, _, ⟨holds.objects, completed.step.wellFormed,
            chainNow, fdChainNow, completed.stores⟩, ?_, trace⟩
          simp only
          rw [queued_eq holds, List.append_assoc, List.take_append_drop]
          exact sent
  | failed =>
      simp only [Service.step]
      cases ended : service.outlet.queue.failed with
      | error cause => exact ⟨service, rfl, bytes, fds, holds, sent, trace⟩
      | ok queue =>
          obtain ⟨chain, fdChain, stores⟩ := holds.queue
          exact ⟨_, rfl, bytes, fds, ⟨holds.objects, holds.wellFormed, chain,
            fdChain, (stores.failed_spec ended).1⟩, sent, trace⟩

/-- Every run of calls is served, and keeps the history. -/
theorem Sound.run
    (lawful : store.Lawful Keeps)
    (creates : store.Creates Keeps create)
    (sound : service.Sound store Keeps start)
    (calls : List Call) :
    ∃ last, run store hook create calls service = some last ∧
      last.Sound store Keeps start := by
  induction calls generalizing service with
  | nil => exact ⟨service, rfl, sound⟩
  | cons call calls run_ih =>
      obtain ⟨next, stepped, soundNow⟩ :=
        @Sound.step _ _ store Keeps hook create start service lawful creates
          sound call
      obtain ⟨last, ran, soundLast⟩ := run_ih soundNow
      refine ⟨last, ?_, soundLast⟩
      simp only [Service.run, stepped, bind, Option.bind_some, ran]

end Service

/-- From the objects of any connection and an empty queue, in every run, no
call fails in a way that is marked unreachable, and what was sent and is queued
is what happened to the objects, in order.  An object is there when it is used
or destroyed, and its ID is announced free with its end: no event and no
`delete_id` names an object that was destroyed, until it is created again. -/
theorem histories_are_on_the_wire
    [Native]
    {server : ServerObjects} {storage : Storage}
    (connected : ServerObjects.Connected server)
    (wellFormed : storage.WellFormed)
    (byteBudget descriptorBudget : Nat)
    (hook : Option (RemovalHook ServerObjects))
    (calls : List Service.Call) :
    ∃ last,
      Service.run ServerObjects.store hook ServerObjects.create calls
        { outlet :=
            { state := server
              queue := Tx.Queue.init byteBudget descriptorBudget
              storage } } = some last ∧
      last.sent ++ last.queued = Lifetime.itemsOf last.history ∧
      Lifetime.Trace server.resolve last.history last.outlet.state.resolve ∧
      ∀ first between later handle text entry,
        last.history = first ++ .ended handle text ::
          (between ++ entry :: later) →
        entry.key = handle → (∀ object, entry ≠ .made handle object) →
          ∃ object, .made handle object ∈ between := by
  obtain ⟨live, keeps⟩ := connected.keeps
  have start : Service.Sound ServerObjects.store ServerObjects.Keeps
      server.resolve
      { outlet :=
          { state := server
            queue := Tx.Queue.init byteBudget descriptorBudget
            storage } } :=
    ⟨[], [], ⟨⟨live, keeps⟩, wellFormed, [], [], .init _ _ _⟩, rfl, .nil _⟩
  obtain ⟨last, ran, bytes, fds, holds, sent, trace⟩ :=
    @Service.Sound.run _ _ _ _ hook _ _ _ ServerObjects.store_lawful
      ServerObjects.store_creates start calls
  refine ⟨last, ran, ?_, trace, ?_⟩
  · rw [Service.queued_eq holds]
    exact sent
  · intro first between later handle text entry split same again
    rw [split] at trace
    exact trace.remade same again

section Sample

local instance historyNative : Native := ⟨.little⟩

/-- One block of 32 bytes and room for one descriptor. -/
def historyStorage : Storage where
  blocks := ((SharedBlocks.init 32 1 1).toOption).getD { blockSize := 32 }
  fds := ((SharedFds.init 1 1).toOption).getD {}

/-- The storage of the sample is well formed. -/
theorem historyStorage_wellFormed : historyStorage.WellFormed :=
  ⟨(SharedBlocks.init_spec (show SharedBlocks.init 32 1 1 =
      .ok historyStorage.blocks from rfl)).1,
    SharedFds.init_spec (show SharedFds.init 1 1 =
      .ok historyStorage.fds from rfl)⟩

/-- A connection with nothing but wl_display. -/
def displayOnly : ServerObjects :=
  ((ServerObjects.init 4 2 wlDisplay none true true).toOption).getD
    { objects := { table := { slots := [], maxEntries := 0 } }
      ids := { entries := [] } }

/-- A callback is created, done, and half of that is sent. -/
def callbackCalls : List Service.Call :=
  [.create (.client 2 wlCallback 1 none),
    .sendEvent callbackDone { id := 2, generation := 2 }
      ((7, ()) : UInt32 × Unit) fun _ => { blocks := 1, fds := 1 },
    .begin 0 0, .complete 12]

theorem histories_are_on_the_wire_sample :
    ∃ last,
      Service.run ServerObjects.store none ServerObjects.create callbackCalls
        { outlet :=
            { state := displayOnly
              queue := Tx.Queue.init 64 1
              storage := historyStorage } } = some last ∧
      last.sent ++ last.queued = Lifetime.itemsOf last.history ∧
      last.sent = [2, 0, 0, 0, 0, 0, 12, 0, 7, 0, 0, 0] ∧
      last.queued = [1, 0, 0, 0, 1, 0, 12, 0, 2, 0, 0, 0] := by
  obtain ⟨last, ran, said, _⟩ := histories_are_on_the_wire
    (.init (show ServerObjects.init 4 2 wlDisplay none true true =
      .ok displayOnly from rfl)) historyStorage_wellFormed 64 1 none
    callbackCalls
  refine ⟨last, ran, said, ?_⟩
  cases ran
  exact ⟨rfl, rfl⟩

end Sample

/-! ## Objects in the shared pool -/

/-- In every state that connections reach over a shared pool, and with any
bytes queued, sending an event, finishing a request and deleting an object of a
client never fail in a way that is marked unreachable.  A failure is not seen,
and a success queues exactly the messages of what happened to the objects.  No
entry of another connection is touched. -/
theorem shared_lifecycles_are_all_or_nothing
    [Native]
    {capacity : Nat} {granted : Bool} {pool : SharedObjectPool}
    {lengths : Nat → Nat} {operations : List SharedOperation}
    {results : List SharedResult} {world : SharedWorld} {slot : Nat}
    {objects : SharedNamespace}
    {queue : Tx.Queue} {storage : Storage} {bytes : List UInt8} {fds : List Fd}
    (created : SharedObjectPool.init capacity granted = .ok pool)
    (fits : ∀ slot, lengths slot < usizeLimit)
    (shows : ∀ operation, operation ∈ operations → operation.ShowsDisplay)
    (ran : (SharedWorld.start pool lengths).run operations =
      some (results, world))
    (live : world.namespaces slot = some objects)
    (queued : ∃ chain fdChain, queue.Stores storage bytes fds chain fdChain)
    (wellFormed : storage.WellFormed)
    (hook : Option (RemovalHook (SharedServerObjects × SharedObjectPool))) :
    let outlet : Outlet (SharedServerObjects × SharedObjectPool) :=
      { state := ({ objects }, world.pool), queue, storage }
    ∃ owned free,
      (∀ index, index ∈ owned ↔ world.OwnedBy index slot) ∧
      (∀ event handle payload rooms,
        outlet.Serves SharedServerObjects.store
          (SharedServerObjects.Keeps world.pool owned free) bytes fds
          (Codec.Payload.fds event.signature payload)
          (event.entries handle payload
            (SharedServerObjects.store.found outlet.state handle))
          (sendEvent SharedServerObjects.store hook event outlet handle payload
            rooms)) ∧
      (∀ handle destructor room,
        outlet.Serves SharedServerObjects.store
          (SharedServerObjects.Keeps world.pool owned free) bytes fds []
          (fun notices => if destructor then departs handle notices else [])
          (finish SharedServerObjects.store hook outlet handle destructor
            room)) ∧
      ∀ handle room,
        outlet.Serves SharedServerObjects.store
          (SharedServerObjects.Keeps world.pool owned free) bytes fds []
          (departs handle)
          (deleteClient SharedServerObjects.store hook outlet handle room) := by
  intro outlet
  have sound : world.Sound :=
    (SharedWorld.Sound.start created fits).run shows ran
  obtain ⟨owned, free, owned_iff, lawful, listed, keeps⟩ := sound.lawful live
  have holds : outlet.Holds
      (SharedServerObjects.Keeps world.pool owned free) bytes fds :=
    ⟨⟨_, keeps⟩, wellFormed, queued⟩
  exact ⟨owned, free, owned_iff,
    fun event handle payload rooms =>
      sendEvent_spec lawful holds event handle payload rooms,
    fun handle destructor room => finish_spec lawful holds handle destructor room,
    fun handle room => deleteClient_spec lawful holds handle room⟩

section Sample

attribute [local instance] historyNative

/-- Two connections have their displays and a callback each. -/
def callbackOperations : List SharedOperation :=
  [.init 0 1 2, .insert 0 1 wlDisplay 1 none true, .init 1 1 2,
    .insertReserved 1 1 wlDisplay 1 none, .insert 1 1 wlDisplay 1 none true,
    .insert 0 2 wlCallback 1 none true, .insert 1 2 wlCallback 1 none true]

/-- The sample inserts wl_display alone under ID 1. -/
theorem callbackOperations_show :
    ∀ operation, operation ∈ callbackOperations → operation.ShowsDisplay := by
  simp [callbackOperations, SharedOperation.ShowsDisplay]

/-- What they leave in a pool of four entries. -/
def callbackWorld : SharedWorld :=
  let start := SharedWorld.start (SharedObjectPool.fresh 4) fun _ => 2
  ((start.run callbackOperations).map Prod.snd).getD start

/-- The objects of a connection in that world. -/
def callbackObjects (slot : Nat) : SharedNamespace :=
  (callbackWorld.namespaces slot).getD
    { buckets := [], connectionGeneration := 0, quota := 0 }

/-- One connection's callback is done and deleted; the other's is there. -/
theorem shared_lifecycles_are_all_or_nothing_sample :
    ∃ reply,
      completeSync SharedServerObjects.store none
        { state := ({ objects := callbackObjects 0 }, callbackWorld.pool)
          queue := Tx.Queue.init 64 1
          storage := historyStorage }
        { id := 2, generation := 3 } 7 (fun _ => { blocks := 1, fds := 1 }) =
          some reply ∧
      reply.outlet.queue.byteCount = 24 ∧
      SharedServerObjects.store.found reply.outlet.state
        { id := 2, generation := 3 } = none ∧
      ((callbackObjects 1).resolve reply.outlet.state.2
        { id := 2, generation := 4 }).1.isSome := by
  obtain ⟨owned, free, _, sends, _⟩ := @shared_lifecycles_are_all_or_nothing _
    4 true (SharedObjectPool.fresh 4) (fun _ => 2) callbackOperations _
    callbackWorld 0 (callbackObjects 0) (Tx.Queue.init 64 1) historyStorage []
    [] rfl (fun _ => by decide) callbackOperations_show rfl rfl
    ⟨[], [], .init _ _ _⟩ historyStorage_wellFormed none
  obtain ⟨reply, sent, does⟩ := sends callbackDone { id := 2, generation := 3 }
    ((7, ()) : UInt32 × Unit) fun _ => { blocks := 1, fds := 1 }
  refine ⟨reply, sent, ?_⟩
  cases sent
  exact ⟨rfl, rfl, rfl⟩

end Sample

end Server
end Wayring
