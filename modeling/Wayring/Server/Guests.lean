import Wayring.Objects.SharedStore
import Wayring.Server.Publisher

/-!
# Guests

The clients of a server, as the runtime asks for them: their objects are in one
shared pool, and each has an actor with a transmit queue.  They carry what the
objects and the queues rely on, so that the calls which the runtime cannot see
fail do not.
-/

namespace Wayring

open Server (Outlet)

/-! ## Objects and queues -/

namespace Server

/-- The objects of a connection stand in a world with others, and its transmit
queue is sound. -/
def Outlet.Sound
    (world : SharedWorld)
    (slot : Nat)
    (outlet : Outlet (SharedServerObjects × SharedObjectPool)) : Prop :=
  ∃ bytes fds, outlet.Holds
    (fun state _ => SharedServerObjects.Stands world slot state) bytes fds

section Outlets

variable {world : SharedWorld} {slot : Nat}
  {outlet : Outlet (SharedServerObjects × SharedObjectPool)}
  {Kept : SharedServerObjects × SharedObjectPool →
    List (Handle × Object) → Prop}
  {bytes : List UInt8} {fds : List Fd}

/-- The objects of an outlet stand in the world. -/
theorem Outlet.Sound.stands
    (sound : outlet.Sound world slot) :
    SharedServerObjects.Stands world slot outlet.state := by
  obtain ⟨bytes, fds, holds⟩ := sound
  obtain ⟨_, stands⟩ := holds.objects
  exact stands

/-- An outlet has a lawful store, which keeps the world sound. -/
theorem Outlet.Holds.lawful
    (holds : outlet.Holds
      (fun state _ => SharedServerObjects.Stands world slot state) bytes fds) :
    ∃ Kept, SharedServerObjects.store.Lawful Kept ∧
      outlet.Holds Kept bytes fds ∧
      ∀ {next live}, Kept next live →
        SharedServerObjects.Stands world slot next := by
  obtain ⟨_, stands⟩ := holds.objects
  obtain ⟨Kept, lawful, live, kept⟩ := stands.lawful
  exact ⟨Kept, lawful, ⟨live, holds.wellFormed, holds.queue⟩, kept⟩

/-- The same for some bytes and descriptors. -/
theorem Outlet.Sound.lawful
    (sound : outlet.Sound world slot) :
    ∃ Kept bytes fds, SharedServerObjects.store.Lawful Kept ∧
      outlet.Holds Kept bytes fds ∧
      ∀ {next live}, Kept next live →
        SharedServerObjects.Stands world slot next := by
  obtain ⟨bytes, fds, holds⟩ := sound
  obtain ⟨Kept, lawful, kept, stands⟩ := holds.lawful
  exact ⟨Kept, bytes, fds, lawful, kept, stands⟩

/-- What a store holds in the end is sound. -/
theorem Outlet.Holds.sound
    (holds : outlet.Holds Kept bytes fds)
    (stands : ∀ {next live}, Kept next live →
      SharedServerObjects.Stands world slot next) :
    outlet.Sound world slot := by
  obtain ⟨live, kept⟩ := holds.objects
  exact ⟨bytes, fds, ⟨live, stands kept⟩, holds.wellFormed, holds.queue⟩

/-- Served or not, a call leaves the objects and the queue sound. -/
theorem Outlet.Serves.sound {α : Type}
    {answer : Answer (SharedServerObjects × SharedObjectPool) α}
    {added : List Fd}
    {entries :
      List (RemovalNotice (SharedServerObjects × SharedObjectPool)) →
        List (Lifetime Handle Object UInt8)}
    (serves : outlet.Serves SharedServerObjects.store Kept bytes fds added
      entries (some answer))
    (stands : ∀ {next live}, Kept next live →
      SharedServerObjects.Stands world slot next) :
    answer.outlet.Sound world slot := by
  obtain ⟨reply, same, does⟩ := serves
  cases same
  cases result : answer.result with
  | error cause =>
      rw [result] at does
      exact does.1.holds.sound stands
  | ok value =>
      rw [result] at does
      exact does.holds.sound stands

/-- A message is queued, or not. -/
theorem Outlet.Sound.encode [Native]
    {signature : Codec.Signature}
    (sound : outlet.Sound world slot)
    (opcode : Nat) (objectId : UInt32) (payload : Codec.Payload signature)
    (room : Tx.Room) :
    let outcome := Codec.encode signature opcode outlet.queue outlet.storage
      objectId payload room
    Outlet.Sound world slot
      { outlet with queue := outcome.2.1, storage := outcome.2.2 } := by
  obtain ⟨bytes, fds, holds⟩ := sound
  have sent := holds.encode holds.objects opcode objectId payload room
  dsimp only at sent ⊢
  generalize Codec.encode signature opcode outlet.queue outlet.storage objectId
    payload room = outcome at sent ⊢
  obtain ⟨result, queue, storage⟩ := outcome
  cases result with
  | error cause => exact ⟨_, _, sent.2⟩
  | ok _ =>
      obtain ⟨text, -, holdsNow⟩ := sent
      exact ⟨_, _, holdsNow⟩

/-- Making room changes no more than the pools. -/
theorem Outlet.Sound.ensureCapacity
    (sound : outlet.Sound world slot) (byteCount : Nat) (room : Tx.Room) :
    Outlet.Sound world slot { outlet with
      storage :=
        (outlet.queue.ensureCapacity outlet.storage byteCount 0 room).2 } := by
  obtain ⟨bytes, fds, holds⟩ := sound
  obtain ⟨chain, fdChain, stores⟩ := holds.queue
  obtain ⟨step, storesNow, -⟩ :=
    @Tx.Queue.ensureCapacity_spec _ _ _ _ _ _ byteCount 0 room stores
      holds.wellFormed
  exact ⟨_, _, holds.objects, step.wellFormed, _, _, storesNow⟩

/-- Answering a sync is sound. -/
theorem Outlet.Sound.completeSync [Native]
    {hook : Option (RemovalHook (SharedServerObjects × SharedObjectPool))}
    {callback : Handle} {callbackData : UInt32} {rooms : Nat → Tx.Room}
    {answer : Answer (SharedServerObjects × SharedObjectPool) Unit}
    (sound : outlet.Sound world slot)
    (answered : Server.completeSync SharedServerObjects.store hook outlet
      callback callbackData rooms = some answer) :
    answer.outlet.Sound world slot := by
  obtain ⟨Kept, bytes, fds, lawful, holds, stands⟩ := sound.lawful
  have serves := @sendEvent_spec _ _ _ hook _ _ _ _ lawful holds callbackDone
    callback (callbackData, ()) rooms
  rw [show sendEvent _ _ callbackDone _ _ _ _ = _ from answered] at serves
  exact serves.sound stands

/-- Deleting an object of the client is sound. -/
theorem Outlet.Sound.deleteClient [Native]
    {hook : Option (RemovalHook (SharedServerObjects × SharedObjectPool))}
    {handle : Handle} {room : Tx.Room}
    {answer : Answer (SharedServerObjects × SharedObjectPool) Object}
    (sound : outlet.Sound world slot)
    (answered : Server.deleteClient SharedServerObjects.store hook outlet handle
      room = some answer) : answer.outlet.Sound world slot := by
  obtain ⟨Kept, bytes, fds, lawful, holds, stands⟩ := sound.lawful
  have serves := @deleteClient_spec _ _ _ hook _ _ _ _ lawful holds handle room
  rw [answered] at serves
  exact serves.sound stands

end Outlets

/-- With room for `delete_id`, an object of the client that is there is
deleted. -/
theorem deleteClient_granted [Native]
    {State : Type} {store : Store State}
    {Keeps : State → List (Handle × Object) → Prop} {outlet : Outlet State}
    {bytes : List UInt8} {fds : List Fd} {handle : Handle} {object : Object}
    (hook : Option (RemovalHook State))
    (lawful : store.Lawful Keeps)
    (holds : outlet.Holds Keeps bytes fds)
    (affords : outlet.queue.Affords outlet.storage bytes deleteIdSize)
    (found : store.found outlet.state handle = some object)
    (range : 2 ≤ handle.id ∧ handle.id < serverIdStart)
    (room : Tx.Room) :
    ∃ answer, deleteClient store hook outlet handle room = some answer ∧
      answer.result = .ok object := by
  obtain ⟨live, keeps⟩ := holds.objects
  obtain ⟨keepsNow, -⟩ := lawful.resolve keeps handle
  have member := ((lawful.finds keeps).2 handle object).mp found
  obtain ⟨queue, storage, encoded, -⟩ :=
    holds.encode_deleteId affords range.2 room
  obtain ⟨next, cancels⟩ := lawful.client keepsNow member range.1 range.2
  obtain ⟨state, notices, retired, -⟩ :=
    @retire_spec _ store Keeps hook
      { state := (store.resolve outlet.state handle).2, queue, storage } object
      live _ next (farewell handle) lawful keepsNow cancels
  refine ⟨_, Eq.trans ?_ retired, rfl⟩
  have looked : store.resolve outlet.state handle =
      (some object, (store.resolve outlet.state handle).2) :=
    Prod.ext found rfl
  rw [deleteClient, if_neg (by omega), looked]
  dsimp only
  rw [encoded]

end Server

/-! ## One client -/

/-- A client: its actor, and the pools that it sends from.  These can grow by
`room` in a call, and the pool of objects where that is granted. -/
structure Guest where
  actor : Actor
  storage : Storage
  hook : Option (RemovalHook (SharedServerObjects × SharedObjectPool)) := none
  room : Tx.Room
  granted : Bool
  named : actor.generation ≠ 0
  wellFormed : storage.WellFormed
  queued : ∃ bytes fds chain fdChain,
    actor.transmit.Stores storage bytes fds chain fdChain

/-- A client with its objects, which stand in a world with others. -/
structure Seat (world : SharedWorld) (slot : Nat) extends Guest where
  state : SharedServerObjects × SharedObjectPool
  stands : SharedServerObjects.Stands world slot state

namespace Seat

variable {world : SharedWorld} {slot : Nat} {seat : Seat world slot}
  {handle : Handle} {object : Object}

/-- The objects and the transmit queue. -/
def outlet (seat : Seat world slot) :
    Outlet (SharedServerObjects × SharedObjectPool) where
  state := seat.state
  queue := seat.actor.transmit
  storage := seat.storage

/-- The objects and the transmit queue are sound. -/
theorem sound (seat : Seat world slot) : seat.outlet.Sound world slot := by
  obtain ⟨bytes, fds, queued⟩ := seat.queued
  exact ⟨bytes, fds, ⟨[], seat.stands⟩, seat.wellFormed, queued⟩

/-- The same client with other objects. -/
def withState
    (seat : Seat world slot)
    (state : SharedServerObjects × SharedObjectPool)
    (stands : SharedServerObjects.Stands world slot state) : Seat world slot :=
  { seat with state, stands }

/-- The same client with other objects and another queue. -/
def withOutlet
    (seat : Seat world slot)
    (outlet : Outlet (SharedServerObjects × SharedObjectPool))
    (sound : outlet.Sound world slot) : Seat world slot :=
  { seat with
    actor := { seat.actor with transmit := outlet.queue }
    storage := outlet.storage
    state := outlet.state
    named := seat.named
    wellFormed := by
      obtain ⟨bytes, fds, holds⟩ := sound
      exact holds.wellFormed
    queued := by
      obtain ⟨bytes, fds, holds⟩ := sound
      exact ⟨bytes, fds, holds.queue⟩
    stands := sound.stands }

/-! ## Objects -/

/-- Look an object up. -/
def resolve
    (seat : Seat world slot)
    (handle : Handle) : Option Object × Seat world slot :=
  ((SharedServerObjects.store.resolve seat.state handle).1,
    seat.withState (SharedServerObjects.store.resolve seat.state handle).2
      (SharedWorld.Sound.resolve seat.stands handle))

/-- Insert an object under an ID that the client chose. -/
def insertClient
    (seat : Seat world slot)
    (id : Nat)
    (interface : Interface)
    (version : Nat)
    (context : Option Nat) : Except Error Handle × Seat world slot :=
  ((seat.state.1.insertClient seat.state.2 id interface version context
      seat.granted).1,
    seat.withState
      (seat.state.1.insertClient seat.state.2 id interface version context
        seat.granted).2
      (seat.stands.insertClient id interface version context seat.granted))

/-- Take an object out that nobody has heard of. -/
def cancelClient
    (seat : Seat world slot)
    (handle : Handle) : Option (Seat world slot) :=
  match cancelled : SharedServerObjects.registry.remove seat.state
      (.client handle) with
  | none => none
  | some (_, _, state) =>
      some (seat.withState state
        (SharedServerObjects.registry_stands.remove seat.stands cancelled))

/-- Write the context of an object that is there. -/
def setContext
    (seat : Seat world slot)
    (handle : Handle)
    (context : Option Nat) : Option (Seat world slot) :=
  match written : SharedServerObjects.setContext seat.state handle context with
  | none => none
  | some state => some (seat.withState state (seat.stands.setContext written))

/-- Tell the hook of all objects, if there is one, and give them back
(`deinit`). -/
def swept (seat : Seat world slot) : Seat world slot :=
  match seat.hook with
  | none => seat
  | some hook =>
      seat.withState
        (SharedServerObjects.sweep hook seat.state.1.objects.count []
          seat.state).2
        (seat.stands.sweep seat.state.1.objects.count [])

/-- What can be cancelled is there, and in the client's range. -/
theorem cancelClient_isSome_iff :
    (seat.cancelClient handle).isSome ↔
      (SharedServerObjects.resolve seat.state handle).isSome ∧
        2 ≤ handle.id ∧ handle.id < serverIdStart := by
  obtain ⟨Kept, lawful, ⟨live, keeps⟩, _⟩ := seat.stands.lawful
  have removes : (seat.cancelClient handle).isSome ↔
      (SharedServerObjects.registry.remove seat.state
        (.client handle)).isSome := by
    unfold cancelClient
    split <;> simp [*]
  rw [removes]
  constructor
  · intro isSome
    obtain ⟨⟨key, object, next⟩, taken⟩ := Option.isSome_iff_exists.mp isSome
    obtain ⟨rest, whole, _⟩ := lawful.registry.remove keeps taken
    have found := ((lawful.finds keeps).2 key object).mpr
      (whole.mem_iff.mpr List.mem_cons_self)
    simp only [SharedServerObjects.registry, SharedServerObjects.cancel,
      SharedServerObjects.cancelClient] at taken
    split_ifs at taken with outside
    cases removed : seat.state.1.objects.remove seat.state.2 handle with
    | mk current after =>
        rw [removed] at taken
        cases current with
        | none => cases taken
        | some current =>
            cases taken
            exact ⟨Option.isSome_iff_exists.mpr ⟨_, found⟩, by omega, by omega⟩
  · rintro ⟨there, range⟩
    obtain ⟨object, found⟩ := Option.isSome_iff_exists.mp there
    obtain ⟨next, cancelled⟩ := seat.stands.cancels found range
    simp only [SharedServerObjects.registry, cancelled]
    rfl

/-- What is inserted is under an ID of the client, and resolves. -/
theorem insertClient_resolves
    {id version : Nat} {interface : Interface} {context : Option Nat}
    (inserted : (seat.insertClient id interface version context).1 =
      .ok handle) :
    (2 ≤ handle.id ∧ handle.id < serverIdStart) ∧
      (SharedServerObjects.resolve
        (seat.insertClient id interface version context).2.state
          handle).isSome :=
  seat.stands.insertClient_resolves (Prod.ext inserted rfl)

/-- A context can be written where an object is there. -/
theorem setContext_isSome
    {context : Option Nat}
    (there : (SharedServerObjects.resolve seat.state handle).isSome) :
    (seat.setContext handle context).isSome := by
  have written := @SharedServerObjects.setContext_isSome _ _ context there
  unfold setContext
  split
  · rename_i none
    rw [none] at written
    cases written
  · rfl

/-! ## Events -/

section Events

variable [Native]

/-- The event that announces a global. -/
def registryGlobal : Server.Event where
  interface := wlRegistry
  opcode := 0
  signature := [.uint, .string false, .uint]

/-- The event that revokes a global. -/
def registryGlobalRemove : Server.Event where
  interface := wlRegistry
  opcode := 1
  signature := [.uint]

/-- Queue an event of a registry (`requireObject` and `encodeEvent`). -/
def sendRegistry
    (seat : Seat world slot)
    (event : Server.Event)
    (registry : Handle)
    (payload : Codec.Payload event.signature) :
    Except Error Unit × Seat world slot :=
  match seat.resolve registry with
  | (none, seat) => (.error .staleHandle, seat)
  | (some object, seat) =>
      if object.interface ≠ wlRegistry then (.error .wrongInterface, seat)
      else
        let outcome := Codec.encode event.signature event.opcode
          seat.actor.transmit seat.storage (UInt32.ofNat registry.id) payload
          seat.room
        (outcome.1,
          seat.withOutlet
            { state := seat.state, queue := outcome.2.1
              storage := outcome.2.2 }
            (seat.sound.encode event.opcode (UInt32.ofNat registry.id) payload
              seat.room))

/-- Queue an event.  The versions of globals were checked when these were added
(`addWithBinder`). -/
def send
    (seat : Seat world slot) :
    Publication → Except Error Unit × Seat world slot
  | .global registry name global =>
      seat.sendRegistry registryGlobal registry
        (UInt32.ofNat name, global.interface.name.toUTF8.toList,
          UInt32.ofNat global.version, ())
  | .globalRemove registry name =>
      seat.sendRegistry registryGlobalRemove registry (UInt32.ofNat name, ())
  | .done callback callbackData =>
      match answered : Server.completeSync SharedServerObjects.store seat.hook
          seat.outlet callback (UInt32.ofNat callbackData)
          fun _ => seat.room with
      | none => (.error .unreachable, seat)
      | some answer =>
          (answer.result,
            seat.withOutlet answer.outlet (seat.sound.completeSync answered))

/-- Make room for the `delete_id` of an object. -/
def ensureDelete (seat : Seat world slot) :
    Except Error Unit × Seat world slot :=
  let outcome := seat.actor.transmit.ensureCapacity seat.storage
    Server.deleteIdSize 0 seat.room
  (outcome.1,
    seat.withOutlet { seat.outlet with storage := outcome.2 }
      (seat.sound.ensureCapacity Server.deleteIdSize seat.room))

/-- Queue `delete_id`, and remove an object of the client. -/
def deleteClient
    (seat : Seat world slot)
    (handle : Handle) : Option (Seat world slot) :=
  match answered : Server.deleteClient SharedServerObjects.store seat.hook
      seat.outlet handle seat.room with
  | none => none
  | some answer =>
      match answer.result with
      | .error _ => none
      | .ok _ =>
          some (seat.withOutlet answer.outlet
            (seat.sound.deleteClient answered))

/-- What the deletion of an object leaves, when it is granted. -/
theorem deleteClient_eq
    {answer : Server.Answer (SharedServerObjects × SharedObjectPool) Object}
    (answered : Server.deleteClient SharedServerObjects.store seat.hook
      seat.outlet handle seat.room = some answer)
    (granted : answer.result = .ok object) :
    seat.deleteClient handle =
      some (seat.withOutlet answer.outlet
        (seat.sound.deleteClient answered)) := by
  unfold deleteClient
  split
  · rename_i none
    cases answered.symm.trans none
  · rename_i other same
    cases answered.symm.trans same
    rw [granted]

/-- Once there is room for `delete_id`, an object of the client is deleted. -/
theorem ensureDelete_deletes
    {other : SharedWorld} {later : Seat other slot}
    (granted : seat.ensureDelete.1 = .ok ())
    (found : SharedServerObjects.resolve seat.state handle = some object)
    (range : 2 ≤ handle.id ∧ handle.id < serverIdStart)
    (same : later.toGuest = seat.ensureDelete.2.toGuest)
    (sameState : later.state = seat.state) :
    ∃ answer, Server.deleteClient SharedServerObjects.store later.hook
        later.outlet handle later.room = some answer ∧
      answer.result = .ok object := by
  obtain ⟨Kept, bytes, fds, lawful, holds, -⟩ := seat.sound.lawful
  obtain ⟨chain, fdChain, stores⟩ := holds.queue
  obtain ⟨step, storesNow, -, enough⟩ :=
    @Tx.Queue.ensureCapacity_spec _ _ _ _ _ _ Server.deleteIdSize 0 seat.room
      stores holds.wellFormed
  obtain ⟨budget, -, blocks, -⟩ := enough granted
  have outlets : later.outlet = seat.ensureDelete.2.outlet := by
    simp only [outlet, same, sameState]
    rfl
  rw [outlets]
  exact @Server.deleteClient_granted _ _ _ _ seat.ensureDelete.2.outlet _ _ _ _
    later.hook lawful ⟨holds.objects, step.wellFormed, _, _, storesNow⟩
    ⟨budget, blocks⟩ found range later.room

end Events

end Seat

/-! ## All clients -/

/-- The clients, by slot, over one world of objects. -/
structure Guests where
  world : SharedWorld
  slots : Nat → Option Guest
  sound : world.Sound

namespace Guests

variable {guests : Guests} {peer other : Peer}

/-- The client of a peer (`clients.get`). -/
def find (guests : Guests) (peer : Peer) :
    Except Error (Seat guests.world peer.slot) :=
  match guests.slots peer.slot with
  | none => .error .staleHandle
  | some guest =>
      match live : guests.world.namespaces peer.slot with
      | none => .error .staleHandle
      | some objects =>
          if guest.actor.generation ≠ peer.generation then .error .staleHandle
          else
            .ok
              { guest with
                state := ({ objects }, guests.world.pool)
                stands := by
                  unfold SharedServerObjects.Stands
                  rw [SharedWorld.put_self live]
                  exact guests.sound }

/-- A client without its objects. -/
def guest (guests : Guests) (peer : Peer) : Except Error Guest :=
  (guests.find peer).map Seat.toGuest

/-- Put a client back. -/
def put
    (guests : Guests)
    (peer : Peer)
    (seat : Seat guests.world peer.slot) : Guests where
  world := guests.world.put peer.slot seat.state.1.objects seat.state.2
  slots := Function.update guests.slots peer.slot (some seat.toGuest)
  sound := seat.stands

/-- Take a client out, and give its objects back. -/
def vacate
    (guests : Guests)
    (peer : Peer)
    (seat : Seat guests.world peer.slot) : Guests where
  world :=
    { guests.world with
      pool := seat.state.1.objects.deinit seat.state.2
      arrays := Function.update guests.world.arrays peer.slot
        seat.state.1.objects.buckets
      namespaces := Function.update guests.world.namespaces peer.slot none }
  slots := Function.update guests.slots peer.slot none
  sound := by
    refine @SharedWorld.Sound.step _ _ (.deinit peer.slot) (.ok .done)
      seat.stands trivial ?_
    rw [SharedWorld.step, SharedWorld.put_namespaces]
    simp only [SharedWorld.put, Option.map_some, Function.update_idem]

/-- A call of one client that can fail. -/
def onGuest {α : Type}
    (guests : Guests)
    (peer : Peer)
    (operate : Seat guests.world peer.slot →
      Except Error α × Seat guests.world peer.slot) : Except Error α × Guests :=
  match guests.find peer with
  | .error cause => (.error cause, guests)
  | .ok seat => ((operate seat).1, guests.put peer (operate seat).2)

/-- A call of one client that is declared unable to fail. -/
def onPresent
    (guests : Guests)
    (peer : Peer)
    (operate : Seat guests.world peer.slot →
      Option (Seat guests.world peer.slot)) : Option Guests :=
  match guests.find peer with
  | .error _ => none
  | .ok seat => (operate seat).map (guests.put peer)

/-- An object of a client. -/
def resolve
    (guests : Guests)
    (peer : Peer)
    (handle : Handle) : Option Object × Guests :=
  match guests.find peer with
  | .error _ => (none, guests)
  | .ok seat =>
      ((seat.resolve handle).1, guests.put peer (seat.resolve handle).2)

/-- Take an object out that nobody has heard of. -/
def cancelClient
    (guests : Guests)
    (peer : Peer)
    (handle : Handle) : Option Guests :=
  guests.onPresent peer fun seat => seat.cancelClient handle

/-- What is found is what a slot has. -/
theorem slots_of_find
    {seat : Seat guests.world peer.slot}
    (found : guests.find peer = .ok seat) :
    guests.slots peer.slot = some seat.toGuest ∧
      guests.world.namespaces peer.slot = some seat.state.1.objects ∧
      guests.world.pool = seat.state.2 ∧
      seat.actor.generation = peer.generation := by
  unfold find at found
  split at found
  · cases found
  · split at found
    · cases found
    · split_ifs at found with current
      cases found
      exact ⟨by assumption, by assumption, rfl, not_not.mp current⟩

/-- A slot with a client and objects is found. -/
theorem find_of_slots
    {guest : Guest} {objects : SharedNamespace}
    (seated : guests.slots peer.slot = some guest)
    (live : guests.world.namespaces peer.slot = some objects)
    (current : guest.actor.generation = peer.generation) :
    ∃ seat, guests.find peer = .ok seat ∧ seat.toGuest = guest ∧
      seat.state = ({ objects }, guests.world.pool) := by
  unfold find
  split
  · rename_i none
    cases seated.symm.trans none
  · rename_i other same
    cases seated.symm.trans same
    split
    · rename_i none
      cases live.symm.trans none
    · rename_i content same
      cases live.symm.trans same
      rw [if_neg (not_not.mpr current)]
      exact ⟨_, rfl, rfl, rfl⟩

/-- A client that was put back is found. -/
theorem find_put
    {seat : Seat guests.world peer.slot}
    (found : guests.find peer = .ok seat)
    (later : Seat guests.world peer.slot)
    (same : later.actor.generation = seat.actor.generation) :
    ∃ now, (guests.put peer later).find peer = .ok now ∧
      now.toGuest = later.toGuest ∧ now.state = later.state := by
  obtain ⟨_, _, _, current⟩ := slots_of_find found
  obtain ⟨now, foundNow, sameGuest, sameState⟩ := @find_of_slots
    (guests.put peer later) peer later.toGuest later.state.1.objects
    (Function.update_self _ _ _) SharedWorld.put_namespaces
    (same.trans current)
  exact ⟨now, foundNow, sameGuest, sameState⟩

/-- Who is there, by slot. -/
theorem guest_eq :
    guests.guest peer =
      match guests.slots peer.slot, guests.world.namespaces peer.slot with
      | some guest, some _ =>
          if guest.actor.generation ≠ peer.generation then .error .staleHandle
          else .ok guest
      | _, _ => .error .staleHandle := by
  unfold guest find
  split
  · simp [*, Except.map]
  · split
    · simp [*, Except.map]
    · simp only [*]
      split_ifs <;> rfl

/-- Objects that are put back do not change who is there. -/
theorem guest_put
    {seat later : Seat guests.world peer.slot}
    (found : guests.find peer = .ok seat)
    (same : later.toGuest = seat.toGuest) :
    (guests.put peer later).guest other = guests.guest other := by
  obtain ⟨seated, live, -, -⟩ := slots_of_find found
  rw [guest_eq, guest_eq]
  by_cases here : other.slot = peer.slot
  · simp only [put, SharedWorld.put, here, Function.update_self, seated, live,
      same]
  · simp only [put, SharedWorld.put, Function.update_of_ne here]

/-- A lookup of a client that is there. -/
theorem resolve_of_find
    {seat : Seat guests.world peer.slot} {handle : Handle}
    (found : guests.find peer = .ok seat) :
    guests.resolve peer handle =
      ((seat.resolve handle).1, guests.put peer (seat.resolve handle).2) := by
  simp only [resolve, found]

/-- A lookup does not change who is there. -/
theorem guest_resolve
    {handle : Handle} :
    (guests.resolve peer handle).2.guest other = guests.guest other := by
  cases found : guests.find peer with
  | error cause => simp only [resolve, found]
  | ok seat =>
      rw [resolve_of_find found]
      exact guest_put found rfl

/-- What a handle of a client denotes, by slot. -/
theorem resolve_eq
    {handle : Handle} :
    (guests.resolve peer handle).1 =
      match guests.slots peer.slot, guests.world.namespaces peer.slot with
      | some guest, some objects =>
          if guest.actor.generation ≠ peer.generation then none
          else SharedServerObjects.resolve ({ objects }, guests.world.pool) handle
      | _, _ => none := by
  unfold resolve find
  split
  · rename_i cause failed
    split at failed
    · simp [*]
    · split at failed
      · simp [*]
      · split_ifs at failed with stale
        simp only [*]
        simp [stale]
  · rename_i seat found
    obtain ⟨seated, live, pool, current⟩ := slots_of_find found
    simp only [seated, live, pool, current]
    rw [if_neg (by simp)]
    rfl

/-- A lookup changes nothing that lookups find. -/
theorem resolve_resolve
    {handle name : Handle} :
    ((guests.resolve peer handle).2.resolve other name).1 =
      (guests.resolve other name).1 := by
  cases found : guests.find peer with
  | error cause => rw [show (guests.resolve peer handle).2 = guests by
      simp only [resolve, found]]
  | ok seat =>
      obtain ⟨seated, live, pool, -⟩ := slots_of_find found
      rw [resolve_of_find found, resolve_eq, resolve_eq]
      by_cases here : other.slot = peer.slot
      · simp only [put, SharedWorld.put, here, Function.update_self, seated,
          live]
        rw [pool]
        refine if_congr Iff.rfl rfl ?_
        exact seat.stands.resolve_resolve handle name
      · simp only [put, SharedWorld.put, Function.update_of_ne here]
        rw [pool]
        rfl

end Guests

/-- The functions that activate bindings.  Each leaves the object of the binding
in its place. -/
structure Binder where
  activate : Guests → Global → Binding → Except Error (Option Nat) × Guests
  leaves : ∀ {guests global} {binding : Binding},
    (guests.cancelClient binding.peer binding.resource).isSome →
      ((activate guests global binding).2.cancelClient binding.peer
        binding.resource).isSome

namespace Guests

variable {guests later : Guests} {peer : Peer} {handle : Handle}
  {object : Object}

/-- What can be cancelled is there, and in the client's range. -/
theorem cancelClient_isSome_iff :
    (guests.cancelClient peer handle).isSome ↔
      ∃ seat, guests.find peer = .ok seat ∧
        (SharedServerObjects.resolve seat.state handle).isSome ∧
        2 ≤ handle.id ∧ handle.id < serverIdStart := by
  unfold cancelClient onPresent
  cases found : guests.find peer with
  | error cause => simp
  | ok seat =>
      simp only [Option.isSome_map, Seat.cancelClient_isSome_iff,
        Except.ok.injEq, exists_eq_left']

/-- Making room leaves the client with its objects. -/
theorem find_ensureDelete
    {seat : Seat guests.world peer.slot} {result : Except Error Unit}
    (found : guests.find peer = .ok seat)
    (made : guests.onGuest peer Seat.ensureDelete = (result, later)) :
    seat.ensureDelete.1 = result ∧
      ∃ now, later.find peer = .ok now ∧
        now.toGuest = seat.ensureDelete.2.toGuest ∧ now.state = seat.state := by
  unfold onGuest at made
  rw [found] at made
  cases made
  exact ⟨rfl, find_put found seat.ensureDelete.2 rfl⟩

variable [Native]

/-- The clients, as the runtime asks for them.  Without a filter every global is
shown. -/
def hosts
    (filter : Option (Peer → Handle → Global → Bool))
    (binder : Binder) : Hosts Guests where
  get guests peer := (guests.guest peer).map fun _ => ()
  canDispatch guests peer :=
    match guests.guest peer with
    | .error _ => false
    | .ok guest => guest.actor.canDispatch
  canDeinit guests peer :=
    (guests.guest peer).map fun guest => guest.actor.canDeinit
  visible guests peer handle global :=
    match filter with
    | none => .ok true
    | some filter => (guests.guest peer).map fun _ => filter peer handle global
  resolve := Guests.resolve
  insertClient guests peer id interface version context :=
    guests.onGuest peer fun seat =>
      seat.insertClient id interface version context
  cancelClient := Guests.cancelClient
  activate := binder.activate
  setContext guests peer handle context :=
    guests.onPresent peer fun seat => seat.setContext handle context
  send guests peer publication :=
    guests.onGuest peer fun seat => seat.send publication
  ensureDelete guests peer _ := guests.onGuest peer Seat.ensureDelete
  deleteClient guests peer handle :=
    guests.onPresent peer fun seat => seat.deleteClient handle
  destroy guests peer :=
    match guests.find peer with
    | .error _ => none
    | .ok seat => some (guests.vacate peer seat.swept)
  generation_ne_zero := by
    intro guests peer got
    unfold guest at got
    cases found : guests.find peer with
    | error cause =>
        rw [found] at got
        cases got
    | ok seat =>
        rw [← (slots_of_find found).2.2.2]
        exact seat.named
  insertClient_range := by
    intro guests peer id interface version context handle later inserted
    unfold onGuest at inserted
    cases found : guests.find peer with
    | error cause =>
        rw [found] at inserted
        cases inserted
    | ok seat =>
        rw [found] at inserted
        exact (Seat.insertClient_resolves (congrArg Prod.fst inserted)).1
  get_resolve := congrArg _ guest_resolve
  canDispatch_resolve := by
    intro guests peer handle other
    rw [guest_resolve]
  resolve_resolve := resolve_resolve
  insertClient_cancels := by
    intro guests peer id interface version context handle later inserted
    unfold onGuest at inserted
    cases found : guests.find peer with
    | error cause =>
        rw [found] at inserted
        cases inserted
    | ok seat =>
        rw [found] at inserted
        obtain ⟨range, resolves⟩ :=
          Seat.insertClient_resolves (congrArg Prod.fst inserted)
        have put : guests.put peer _ = later := congrArg Prod.snd inserted
        rw [← put, cancelClient_isSome_iff]
        obtain ⟨now, foundNow, -, sameState⟩ := find_put found
          (seat.insertClient id interface version context).2 rfl
        refine ⟨now, foundNow, ?_, range⟩
        rw [sameState]
        exact resolves
  activate_cancels := binder.leaves
  cancels_setContext := by
    intro guests peer handle context cancels
    obtain ⟨seat, found, resolves, -⟩ := cancelClient_isSome_iff.mp cancels
    unfold onPresent
    rw [found]
    dsimp only
    rw [Option.isSome_map]
    exact Seat.setContext_isSome resolves
  ensureDelete_deletes := by
    intro guests later peer handle object got resolves registers range granted
    unfold guest at got
    cases found : guests.find peer with
    | error cause =>
        rw [found] at got
        cases got
    | ok seat =>
        rw [resolve_of_find found] at resolves granted
        obtain ⟨first, foundFirst, sameGuest, sameState⟩ :=
          find_put found (seat.resolve handle).2 rfl
        obtain ⟨enough, now, foundNow, roomy, kept⟩ :=
          find_ensureDelete foundFirst granted
        obtain ⟨answer, answered, ok⟩ := Seat.ensureDelete_deletes enough
          (by
            rw [sameState]
            exact (seat.stands.resolve_resolve handle handle).trans resolves)
          range roomy kept
        unfold onPresent
        rw [foundNow]
        dsimp only
        rw [Seat.deleteClient_eq answered ok]
        rfl
  destroy_isSome := by
    intro guests peer quiet got
    unfold guest at got
    cases found : guests.find peer with
    | error cause =>
        rw [found] at got
        cases got
    | ok seat => rfl

end Guests
end Wayring
