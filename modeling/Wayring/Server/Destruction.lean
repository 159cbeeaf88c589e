import Wayring.Client.Retirement
import Wayring.Server.Announcements

/-!
# Destructors on both sides

A destructor is carried out as a whole or not at all, by the server over a table
of objects or the shared pool, by the runtime that drops a registry, and by the
client.
-/

namespace Wayring

open Server (Outlet)

/-! ## Messages -/

namespace Server

/-- What a client hears of its object is one message. -/
theorem farewell_frame [Native]
    {handle : Handle}
    (isClient : handle.id < serverIdStart) :
    (DisplayEvent.deleteId (UInt32.ofNat handle.id)).frame =
      .ok (farewell handle) := by
  have sized : Codec.messageSize
      (DisplayEvent.deleteId (UInt32.ofNat handle.id)).signature
      (DisplayEvent.deleteId (UInt32.ofNat handle.id)).payload =
        .ok deleteIdSize := rfl
  obtain ⟨header, headed⟩ : ∃ header, Wire.Header.encode
      { objectId := (UInt32.ofNat displayId).toNat
        opcode := 1
        size := deleteIdSize } = .ok header :=
    ⟨_, by rw [Wire.Header.encode, if_neg (by decide), if_neg (by decide),
      if_neg (by decide)]⟩
  have opcode : (DisplayEvent.deleteId (UInt32.ofNat handle.id)).opcode = 1 :=
    rfl
  rw [farewell, if_pos isClient]
  simp only [DisplayEvent.frame, Codec.message, sized, opcode, headed, bind,
    Except.bind]
  rfl

/-- What was sent is one message. -/
theorem sendEvent_framed [Native]
    {State : Type} {store : Store State}
    {Keeps : State → List (Handle × Object) → Prop}
    {hook : Option (RemovalHook State)} {outlet : Outlet State}
    {bytes : List UInt8} {fds : List Fd} {event : Event} {handle : Handle}
    {payload : Codec.Payload event.signature} {rooms : Nat → Tx.Room}
    {reply : Answer State Unit}
    (holds : outlet.Holds Keeps bytes fds)
    (sent : sendEvent store hook event outlet handle payload rooms = some reply)
    (ok : reply.result = .ok ()) :
    Codec.message event.signature event.opcode (UInt32.ofNat handle.id)
      payload = .ok (event.text handle payload) := by
  have framed : ∀ {state queue storage},
      Outlet.Holds Keeps { outlet with storage } bytes fds →
      Codec.encode event.signature event.opcode outlet.queue storage
        (UInt32.ofNat handle.id) payload (rooms 1) =
          (.ok (), queue, state) →
      Codec.message event.signature event.opcode (UInt32.ofNat handle.id)
        payload = .ok (event.text handle payload) := by
    intro state queue storage held encoded
    have whole := held.encode held.objects event.opcode (UInt32.ofNat handle.id)
      payload (rooms 1)
    simp only [encoded] at whole
    obtain ⟨text, written, _⟩ := whole
    rw [Event.text, written]
    rfl
  unfold sendEvent at sent
  generalize store.resolve outlet.state handle = outcome at sent
  obtain ⟨found, state⟩ := outcome
  cases found with
  | none =>
      cases sent
      cases ok
  | some object =>
  dsimp only at sent
  by_cases wrong : object.interface ≠ event.interface
  · rw [if_pos wrong] at sent
    cases sent
    cases ok
  rw [if_neg wrong] at sent
  cases described : object.interface.event event.opcode object.version with
  | error cause =>
      rw [described] at sent
      cases sent
      cases ok
  | ok message =>
  rw [described] at sent
  dsimp only at sent
  generalize checkObjects store
    (Codec.objectArguments event.signature payload) state = outcome at sent
  obtain ⟨checked, state⟩ := outcome
  cases checked with
  | error cause =>
      cases sent
      cases ok
  | ok _ =>
  dsimp only at sent
  cases prepared : (if message.destructor = true ∧ handle.id < serverIdStart then
      preflight event outlet.queue outlet.storage handle payload (rooms 0)
    else (.ok (), outlet.storage)) with
  | mk result storage =>
  rw [prepared] at sent
  have held : Outlet.Holds Keeps { outlet with storage } bytes fds := by
    have ready := @preflight_spec _ _ outlet _ _ handle event payload (rooms 0)
      holds
    split_ifs at prepared
    · rw [prepared] at ready
      exact ready.1
    · cases prepared
      exact holds
  cases result with
  | error cause =>
      cases sent
      cases ok
  | ok _ =>
  dsimp only at sent
  cases encoded : Codec.encode event.signature event.opcode outlet.queue storage
      (UInt32.ofNat handle.id) payload (rooms 1) with
  | mk result rest =>
  obtain ⟨queue, storageNow⟩ := rest
  rw [encoded] at sent
  cases result with
  | error cause =>
      cases sent
      cases ok
  | ok _ => exact framed held encoded

/-- Whatever destroys an object of an outlet does it as a whole, or fails and
nothing happened. -/
structure Outlet.Atomic [Native]
    {State : Type}
    (store : Store State)
    (Keeps : State → List (Handle × Object) → Prop)
    (hook : Option (RemovalHook State))
    (outlet : Outlet State)
    (bytes : List UInt8)
    (fds : List Fd) : Prop where
  sendEvent : ∀ event handle payload rooms,
    outlet.Serves store Keeps bytes fds
      (Codec.Payload.fds event.signature payload)
      (event.entries handle payload (store.found outlet.state handle))
      (Server.sendEvent store hook event outlet handle payload rooms)
  framed : ∀ event handle payload rooms reply,
    Server.sendEvent store hook event outlet handle payload rooms =
        some reply →
      reply.result = .ok () →
      Codec.message event.signature event.opcode (UInt32.ofNat handle.id)
        payload = .ok (event.text handle payload)
  finish : ∀ handle destructor room,
    outlet.Serves store Keeps bytes fds []
      (fun notices => if destructor then departs handle notices else [])
      (Server.finish store hook outlet handle destructor room)
  deleteClient : ∀ handle room,
    outlet.Serves store Keeps bytes fds [] (departs handle)
      (Server.deleteClient store hook outlet handle room)

/-- An outlet with a lawful store is atomic. -/
theorem Outlet.Holds.atomic [Native]
    {State : Type} {store : Store State}
    {Keeps : State → List (Handle × Object) → Prop}
    {outlet : Outlet State} {bytes : List UInt8} {fds : List Fd}
    (lawful : store.Lawful Keeps)
    (holds : outlet.Holds Keeps bytes fds)
    (hook : Option (RemovalHook State)) :
    outlet.Atomic store Keeps hook bytes fds where
  sendEvent event handle payload rooms :=
    sendEvent_spec lawful holds event handle payload rooms
  framed _ _ _ _ _ := sendEvent_framed holds
  finish handle destructor room := finish_spec lawful holds handle destructor room
  deleteClient handle room := deleteClient_spec lawful holds handle room

/-- A call is refused, and nothing happened. -/
def Outlet.Refuses
    {State α : Type}
    (store : Store State)
    (before : Outlet State)
    (answer : Option (Answer State α)) : Prop :=
  ∃ cause after, answer = some (.failed cause after) ∧
    after.queue = before.queue ∧ after.storage = before.storage ∧
    store.found after.state = store.found before.state

/-- While a reservation is unfinished, what needs a message is refused.  The
server still removes an object of its own. -/
structure Outlet.Waits [Native]
    {State : Type}
    (store : Store State)
    (hook : Option (RemovalHook State))
    (outlet : Outlet State) : Prop where
  sendEvent : ∀ event handle payload rooms,
    outlet.Refuses store
      (Server.sendEvent store hook event outlet handle payload rooms)
  deleteClient : ∀ handle room,
    outlet.Refuses store (Server.deleteClient store hook outlet handle room)
  finishClient : ∀ handle room, handle.id < serverIdStart →
    outlet.Refuses store (Server.finish store hook outlet handle true room)
  finishServer : ∀ handle room, ¬handle.id < serverIdStart →
    ∃ reply, Server.finish store hook outlet handle true room = some reply ∧
      reply.outlet.queue = outlet.queue ∧
      reply.outlet.storage = outlet.storage ∧
      match reply.result with
      | .error _ => reply.outlet.state = outlet.state ∧ reply.notices = []
      | .ok _ => Lifetime.Trace (store.found outlet.state)
          (departs handle reply.notices) (store.found reply.outlet.state)

section Unfinished

variable [Native] {State : Type} {store : Store State}
  {Keeps : State → List (Handle × Object) → Prop}
  {hook : Option (RemovalHook State)} {outlet : Outlet State}
  {live : List (Handle × Object)}

omit [Native] in
/-- What only looked objects up did nothing. -/
theorem Outlet.refuses {α : Type} {state : State}
    (lawful : store.Lawful Keeps)
    (keeps : Keeps outlet.state live)
    (keepsNow : Keeps state live)
    (cause : Error) :
    outlet.Refuses store
      (some (.failed cause { outlet with state } : Answer State α)) :=
  ⟨_, _, rfl, rfl, rfl, funext fun handle => lawful.found_eq keeps keepsNow handle⟩

/-- `delete_id` has to wait. -/
theorem deleteClient_waits
    (lawful : store.Lawful Keeps)
    (keeps : Keeps outlet.state live)
    (unsettled : outlet.queue.reservationActive = true)
    (handle : Handle)
    (room : Tx.Room) :
    outlet.Refuses store (deleteClient store hook outlet handle room) := by
  unfold deleteClient
  split_ifs with outside
  · exact Outlet.refuses lawful keeps keeps _
  obtain ⟨keepsNow, -⟩ := lawful.resolve keeps handle
  cases found : store.resolve outlet.state handle with
  | mk object state =>
  rw [found] at keepsNow
  cases object with
  | none => exact Outlet.refuses lawful keeps keepsNow _
  | some object =>
      obtain ⟨cause, refused⟩ := @Codec.encode_unsettled _ outlet.queue
        outlet.storage (DisplayEvent.deleteId (UInt32.ofNat handle.id)).signature
        (DisplayEvent.deleteId (UInt32.ofNat handle.id)).opcode
        (UInt32.ofNat displayId)
        (DisplayEvent.deleteId (UInt32.ofNat handle.id)).payload room unsettled
      simp only [DisplayEvent.encode, refused]
      exact Outlet.refuses lawful keeps keepsNow cause

/-- An event has to wait. -/
theorem sendEvent_waits
    (lawful : store.Lawful Keeps)
    (keeps : Keeps outlet.state live)
    (unsettled : outlet.queue.reservationActive = true)
    (event : Event)
    (handle : Handle)
    (payload : Codec.Payload event.signature)
    (rooms : Nat → Tx.Room) :
    outlet.Refuses store
      (sendEvent store hook event outlet handle payload rooms) := by
  unfold sendEvent
  obtain ⟨keepsNow, -⟩ := lawful.resolve keeps handle
  cases found : store.resolve outlet.state handle with
  | mk object state =>
  rw [found] at keepsNow
  cases object with
  | none => exact Outlet.refuses lawful keeps keepsNow _
  | some object =>
  dsimp only
  by_cases wrong : object.interface ≠ event.interface
  · rw [if_pos wrong]
    exact Outlet.refuses lawful keeps keepsNow _
  rw [if_neg wrong]
  cases object.interface.event event.opcode object.version with
  | error cause => exact Outlet.refuses lawful keeps keepsNow cause
  | ok message =>
  obtain ⟨keepsChecked, -⟩ := checkObjects_spec lawful keepsNow
    (Codec.objectArguments event.signature payload)
  dsimp only at keepsChecked ⊢
  generalize checkObjects store
    (Codec.objectArguments event.signature payload) state = outcome
    at keepsChecked ⊢
  obtain ⟨checked, checkedState⟩ := outcome
  cases checked with
  | error cause => exact Outlet.refuses lawful keeps keepsChecked cause
  | ok _ =>
  obtain ⟨cause, refused⟩ := @Codec.encode_unsettled _ outlet.queue
    outlet.storage event.signature event.opcode (UInt32.ofNat handle.id) payload
    (rooms 1) unsettled
  cases prepared : (if message.destructor = true ∧ handle.id < serverIdStart then
      preflight event outlet.queue outlet.storage handle payload (rooms 0)
    else (.ok (), outlet.storage)) with
  | mk result storage =>
  obtain rfl : storage = outlet.storage := by
    split_ifs at prepared
    · rw [preflight] at prepared
      split at prepared
      · cases prepared
        rfl
      · dsimp only at prepared
        split at prepared
        · cases prepared
          rfl
        · rw [Tx.Queue.ensureCapacity_unsettled _ _ _ unsettled] at prepared
          cases prepared
          rfl
    · cases prepared
      rfl
  cases result with
  | error cause => exact Outlet.refuses lawful keeps keepsChecked cause
  | ok _ =>
      simp only [refused]
      exact Outlet.refuses lawful keeps keepsChecked cause

/-- An outlet with an unfinished reservation waits. -/
theorem Outlet.waits
    (lawful : store.Lawful Keeps)
    (keeps : Keeps outlet.state live)
    (unsettled : outlet.queue.reservationActive = true) :
    outlet.Waits store hook where
  sendEvent := sendEvent_waits lawful keeps unsettled
  deleteClient := deleteClient_waits lawful keeps unsettled
  finishClient handle room isClient := by
    obtain ⟨cause, after, answered, same⟩ :=
      @deleteClient_waits _ _ _ _ hook _ _ lawful keeps unsettled handle room
    refine ⟨cause, after, ?_, same⟩
    simp only [finish, Bool.not_true, Bool.false_eq_true, if_false,
      if_pos isClient, answered]
    rfl
  finishServer handle room isServer := by
    obtain ⟨reply, finished, queue, storage, does⟩ :=
      @finish_server _ _ _ hook _ _ _ _ lawful keeps isServer room
    refine ⟨reply, finished, queue, storage, ?_⟩
    cases outcome : reply.result with
    | error cause =>
        rw [outcome] at does
        exact does
    | ok _ =>
        rw [outcome] at does
        exact does.2

/-- Every call that destroys an object of the outlet is atomic, whatever is
queued. -/
structure Outlet.Destroys
    (store : Store State)
    (Keeps : State → List (Handle × Object) → Prop)
    (hook : Option (RemovalHook State))
    (outlet : Outlet State) : Prop where
  atomic : ∀ bytes fds chain fdChain, outlet.storage.WellFormed →
    outlet.queue.Stores outlet.storage bytes fds chain fdChain →
      outlet.Atomic store Keeps hook bytes fds
  waits : outlet.queue.reservationActive = true → outlet.Waits store hook

/-- The outlet of a lawful store destroys its objects as a whole. -/
theorem Outlet.destroys
    (lawful : store.Lawful Keeps)
    (keeps : Keeps outlet.state live) : outlet.Destroys store Keeps hook where
  atomic _ _ chain fdChain wellFormed stores :=
    Outlet.Holds.atomic lawful ⟨⟨live, keeps⟩, wellFormed, chain, fdChain, stores⟩
      hook
  waits := Outlet.waits lawful keeps

end Unfinished

/-- Without a hook nobody is told. -/
theorem deleteClient_notices [Native]
    {State : Type} {store : Store State} {outlet : Outlet State}
    {handle : Handle} {room : Tx.Room} {answer : Answer State Object}
    (answered : deleteClient store none outlet handle room = some answer) :
    answer.notices = [] := by
  unfold deleteClient at answered
  split_ifs at answered
  · cases answered
    rfl
  · split at answered
    · cases answered
      rfl
    · split at answered
      · cases answered
        rfl
      · unfold retire Store.remove at answered
        dsimp only at answered
        split at answered
        · cases answered
        · cases answered
          rename_i removed
          split at removed <;> cases removed
          rfl

section Standing

variable {world : SharedWorld} {slot : Nat}
  {outlet : Outlet (SharedServerObjects × SharedObjectPool)}
  {bytes : List UInt8} {fds : List Fd}

/-- A lookup and room for `delete_id` are not seen. -/
theorem Outlet.Holds.unchanged
    {storage : Storage}
    (holds : outlet.Holds
      (fun state _ => SharedServerObjects.Stands world slot state) bytes fds)
    (handle : Handle)
    (wellFormed : storage.WellFormed)
    (queued : ∃ chain fdChain,
      outlet.queue.Stores storage bytes fds chain fdChain) :
    outlet.Unchanged SharedServerObjects.store
      (fun state _ => SharedServerObjects.Stands world slot state)
      { state := (SharedServerObjects.store.resolve outlet.state handle).2
        queue := outlet.queue
        storage } bytes fds := by
  obtain ⟨_, stands⟩ := holds.objects
  obtain ⟨Kept, lawful, ⟨live, kept⟩, _⟩ := stands.lawful
  exact
    { holds :=
        { objects := ⟨[], SharedWorld.Sound.resolve stands handle⟩
          wellFormed
          queue := queued }
      queue := rfl
      found := funext fun other => stands.resolve_resolve handle other
      plain := (lawful.resolve kept handle).2 }

/-- What is deleted after a lookup and room for `delete_id` is deleted. -/
theorem Outlet.Unchanged.deleteClient [Native]
    {middle : Outlet (SharedServerObjects × SharedObjectPool)}
    {hook : Option (RemovalHook (SharedServerObjects × SharedObjectPool))}
    {handle : Handle} {object : Object} {room : Tx.Room}
    {answer : Answer (SharedServerObjects × SharedObjectPool) Object}
    (unchanged : outlet.Unchanged SharedServerObjects.store
      (fun state _ => SharedServerObjects.Stands world slot state) middle bytes
      fds)
    (answered : Server.deleteClient SharedServerObjects.store hook middle handle
      room = some answer)
    (ok : answer.result = .ok object) :
    outlet.Changed SharedServerObjects.store
      (fun state _ => SharedServerObjects.Stands world slot state) answer.outlet
      bytes fds [] (departs handle answer.notices) := by
  obtain ⟨Kept, lawful, kept, stands⟩ := unchanged.holds.lawful
  obtain ⟨reply, same, does⟩ :=
    @deleteClient_spec _ _ _ hook _ _ _ _ lawful kept handle room
  cases answered.symm.trans same
  rw [ok] at does
  obtain ⟨live, keptNow⟩ := does.holds.objects
  exact
    { holds := ⟨⟨[], stands keptNow⟩, does.holds.wellFormed, does.holds.queue⟩
      trace := unchanged.found ▸ does.trace }

end Standing

end Server

/-! ## The runtime -/

namespace Guests

/-- Nothing of a client changed that can be seen. -/
def Untouched (before after : Guests) (peer : Peer) : Prop :=
  ∀ seat, before.find peer = .ok seat →
    ∃ later, after.find peer = .ok later ∧
      ∀ bytes fds,
        seat.outlet.Holds (fun state _ =>
            SharedServerObjects.Stands before.world peer.slot state) bytes fds →
          seat.outlet.Unchanged SharedServerObjects.store (fun state _ =>
            SharedServerObjects.Stands before.world peer.slot state)
            later.outlet bytes fds

/-- The client was sent `delete_id`, and the object went with those that the
removal hook took. -/
def Deleted [Native]
    (before after : Guests)
    (peer : Peer)
    (handle : Handle)
    (object : Object) : Prop :=
  ∃ seat later,
    ∃ notices : List (RemovalNotice (SharedServerObjects × SharedObjectPool)),
      before.find peer = .ok seat ∧ after.find peer = .ok later ∧
      SharedServerObjects.resolve seat.state handle = some object ∧
      (seat.hook = none → notices = []) ∧
      ∀ bytes fds,
        seat.outlet.Holds (fun state _ =>
            SharedServerObjects.Stands before.world peer.slot state) bytes fds →
          seat.outlet.Changed SharedServerObjects.store (fun state _ =>
            SharedServerObjects.Stands before.world peer.slot state)
            later.outlet bytes fds [] (Server.departs handle notices)

variable {guests roomy : Guests} {peer : Peer} {handle : Handle}
  {object : Object} {seat : Seat guests.world peer.slot}

/-- The outlet after a lookup. -/
theorem find_resolve
    (found : guests.find peer = .ok seat) :
    ∃ later, (guests.resolve peer handle).2.find peer = .ok later ∧
      later.toGuest = seat.toGuest ∧
      later.state = (SharedServerObjects.store.resolve seat.state handle).2 := by
  rw [resolve_of_find found]
  exact find_put found (seat.resolve handle).2 rfl

/-- A lookup of a client is not seen. -/
theorem untouched_resolve :
    guests.Untouched (guests.resolve peer handle).2 peer := by
  intro seat found
  obtain ⟨later, foundNow, sameGuest, sameState⟩ :=
    @find_resolve _ _ handle _ found
  refine ⟨later, foundNow, fun bytes fds holds => ?_⟩
  have outlets : later.outlet =
      { state := (SharedServerObjects.store.resolve seat.state handle).2
        queue := seat.actor.transmit
        storage := seat.storage } := by
    simp only [Seat.outlet, sameGuest, sameState]
  rw [outlets]
  exact holds.unchanged handle holds.wellFormed holds.queue

/-- Room for `delete_id` after a lookup is not seen. -/
theorem untouched_ensureDelete
    {result : Except Error Unit}
    (made : (guests.resolve peer handle).2.onGuest peer Seat.ensureDelete =
      (result, roomy)) : guests.Untouched roomy peer := by
  intro seat found
  obtain ⟨first, foundFirst, sameGuest, sameState⟩ :=
    @find_resolve _ _ handle _ found
  obtain ⟨_, later, foundNow, roomed, kept⟩ :=
    find_ensureDelete foundFirst made
  refine ⟨later, foundNow, fun bytes fds holds => ?_⟩
  obtain ⟨chain, fdChain, stores⟩ := holds.queue
  obtain ⟨step, storesNow, -⟩ :=
    @Tx.Queue.ensureCapacity_spec _ _ _ _ _ _ Server.deleteIdSize 0 seat.room
      stores holds.wellFormed
  have outlets : later.outlet =
      { state := (SharedServerObjects.store.resolve seat.state handle).2
        queue := seat.actor.transmit
        storage := (seat.actor.transmit.ensureCapacity seat.storage
          Server.deleteIdSize 0 seat.room).2 } := by
    simp only [Seat.outlet, roomed, kept, sameState]
    simp only [Seat.ensureDelete, Seat.withOutlet, Seat.outlet, sameGuest]
  rw [outlets]
  exact holds.unchanged handle step.wellFormed ⟨_, _, storesNow⟩

variable [Native]

/-- An object of the client is deleted once there is room. -/
theorem deleted_of_ensureDelete
    (found : guests.find peer = .ok seat)
    (resolves : SharedServerObjects.resolve seat.state handle = some object)
    (range : 2 ≤ handle.id ∧ handle.id < serverIdStart)
    (made : (guests.resolve peer handle).2.onGuest peer Seat.ensureDelete =
      (.ok (), roomy)) :
    ∃ after, (roomy.onPresent peer fun seat => seat.deleteClient handle) =
      some after ∧ guests.Deleted after peer handle object := by
  obtain ⟨first, foundFirst, sameGuest, sameState⟩ :=
    @find_resolve _ _ handle _ found
  obtain ⟨enough, second, foundSecond, roomed, kept⟩ :=
    find_ensureDelete foundFirst made
  obtain ⟨answer, answered, ok⟩ := Seat.ensureDelete_deletes enough
    (by
      rw [sameState]
      exact (seat.stands.resolve_resolve handle handle).trans resolves)
    range roomed kept
  refine ⟨roomy.put peer (second.withOutlet answer.outlet
    (second.sound.deleteClient answered)), ?_, ?_⟩
  · unfold onPresent
    rw [foundSecond]
    dsimp only
    rw [Seat.deleteClient_eq answered ok]
    rfl
  · obtain ⟨last, foundLast, lastGuest, lastState⟩ := find_put foundSecond
      (second.withOutlet answer.outlet (second.sound.deleteClient answered)) rfl
    refine ⟨seat, last, answer.notices, found, foundLast, resolves,
      fun hookless => ?_, fun bytes fds holds => ?_⟩
    · have silent : second.hook = none := by
        rw [roomed]
        exact (congrArg Guest.hook sameGuest).trans hookless
      rw [silent] at answered
      exact Server.deleteClient_notices answered
    · obtain ⟨same, foundSame, unchanged⟩ :=
        untouched_ensureDelete made seat found
      cases foundSecond.symm.trans foundSame
      have outlets : last.outlet = answer.outlet := by
        simp only [Seat.outlet, lastGuest, lastState]
        rfl
      rw [outlets]
      exact (unchanged bytes fds holds).deleteClient answered ok

end Guests

namespace Publisher

/-- A registry was dropped with its subscription, or nothing was done. -/
def Drops [Native]
    (publisher : Publisher Guests)
    (peer : Peer)
    (registry : Handle)
    (reply : Reply Guests Object) : Prop :=
  match reply.result with
  | .error _ => reply.notices = [] ∧
      reply.publisher = { publisher with clients := reply.publisher.clients } ∧
      publisher.clients.Untouched reply.publisher.clients peer
  | .ok object => object.interface = wlRegistry ∧
      publisher.clients.Deleted reply.publisher.clients peer registry object ∧
      (publisher.registries.known peer registry).isSome ∧
      ∀ other name, reply.publisher.registries.known other name =
        if other = peer ∧ name = registry then none
        else publisher.registries.known other name

/-- The runtime drops a registry as a whole, or does nothing. -/
theorem Core.drops [Native]
    {publisher : Publisher Guests}
    (core : publisher.Core)
    (filter : Option (Peer → Handle → Global → Bool))
    (binder : Binder)
    (peer : Peer) (registry : Handle) :
    ∃ reply, publisher.removeRegistry (Guests.hosts filter binder) peer registry =
        some reply ∧
      publisher.Drops peer registry reply := by
  unfold Publisher.removeRegistry
  simp only [Guests.hosts, Guests.guest]
  cases found : publisher.clients.find peer with
  | error cause =>
      refine ⟨_, rfl, rfl, rfl, fun seat here => ?_⟩
      cases found.symm.trans here
  | ok seat =>
  simp only [Except.map]
  have looked : (publisher.clients.resolve peer registry).1 =
      SharedServerObjects.resolve seat.state registry := by
    rw [Guests.resolve_of_find found]
    rfl
  have untouched := @Guests.untouched_resolve publisher.clients peer registry
  cases resolves : publisher.clients.resolve peer registry with
  | mk content clients =>
  rw [resolves] at looked untouched
  cases content with
  | none => exact ⟨_, rfl, rfl, rfl, untouched⟩
  | some object =>
  dsimp only
  by_cases wrong : object.interface ≠ wlRegistry
  · rw [if_pos wrong]
    exact ⟨_, rfl, rfl, rfl, untouched⟩
  rw [if_neg wrong]
  cases made : clients.onGuest peer Seat.ensureDelete with
  | mk result roomy =>
  have ensured : (publisher.clients.resolve peer registry).2.onGuest peer
      Seat.ensureDelete = (result, roomy) := by
    rw [resolves]
    exact made
  have roomed := Guests.untouched_ensureDelete ensured
  cases result with
  | error cause => exact ⟨_, rfl, rfl, rfl, roomed⟩
  | ok _ =>
  dsimp only
  cases removed : publisher.registries.remove peer registry with
  | mk result registries =>
  rcases core.registries.remove peer registry with
    ⟨refused, -⟩ | ⟨outcome, -, known, -⟩
  · rw [refused] at removed
    cases removed
    exact ⟨_, rfl, rfl, rfl, roomed⟩
  · rw [removed] at outcome
    cases outcome
    obtain ⟨offers, isKnown⟩ := Option.isSome_iff_exists.mp known
    obtain ⟨after, deleted, gone⟩ := Guests.deleted_of_ensureDelete found
      looked.symm (core.registries.known_range isKnown) ensured
    simp only [deleted, Option.bind_eq_bind, Option.bind_some]
    refine ⟨_, rfl, not_not.mp wrong, gone, known, ?_⟩
    exact (core.registries.known_remove removed).2.2.2.2

end Publisher

/-! ## Both sides -/

/-- On every connection that a client or a server reaches, with any bytes queued,
any block sizes and budgets, any removal hook and any answers of the allocator,
no step that is marked unreachable is reached: a destructor fails and leaves
the queue, the objects and the subscriptions as they were, and the hook untold,
or all its messages are queued and its object went once. -/
theorem destructors_are_atomic [Native] :
    (∀ initial, ClientObjects.Attached initial → ∀ calls queue storage,
      Client.Connection.Destroys
        { objects := (initial.run calls).2, queue, storage }) ∧
    (∀ server, ServerObjects.Connected server → ∀ queue storage hook,
      Outlet.Destroys ServerObjects.store ServerObjects.Keeps hook
        { state := server, queue, storage }) ∧
    (∀ capacity granted pool lengths operations results world slot objects,
      SharedObjectPool.init capacity granted = .ok pool →
      (∀ slot, lengths slot < usizeLimit) →
      (∀ operation, operation ∈ operations → operation.ShowsDisplay) →
      (SharedWorld.start pool lengths).run operations = some (results, world) →
      world.namespaces slot = some objects →
      ∃ owned free, (∀ index, index ∈ owned ↔ world.OwnedBy index slot) ∧
        ∀ queue storage hook,
          Outlet.Destroys SharedServerObjects.store
            (SharedServerObjects.Keeps world.pool owned free) hook
            { state := ({ objects }, world.pool), queue, storage }) ∧
    (∀ guests maxGlobals registryCapacity globalsGranted registriesGranted
        syncsGranted start filter binder calls log publisher,
      Publisher.init guests maxGlobals registryCapacity globalsGranted
        registriesGranted syncsGranted = .ok start →
      Publisher.run (Guests.hosts filter binder) calls start =
        some (log, publisher) →
      ∀ peer registry, ∃ reply,
        publisher.removeRegistry (Guests.hosts filter binder) peer registry =
            some reply ∧
          publisher.Drops peer registry reply) ∧
    ∀ handle : Handle, handle.id < serverIdStart →
      (DisplayEvent.deleteId (UInt32.ofNat handle.id)).frame =
        .ok (Server.farewell handle) := by
  refine ⟨fun initial attached calls queue storage => ?_,
    fun server connected queue storage hook => ?_,
    fun capacity granted pool lengths operations results world slot objects
      created fits shows ran live => ?_,
    fun guests maxGlobals registryCapacity globalsGranted registriesGranted
      syncsGranted start filter binder calls log publisher created ran peer
      registry => ?_,
    fun handle isClient => Server.farewell_frame isClient⟩
  · exact Client.Connection.destroys (attached.sound.run calls)
  · obtain ⟨live, keeps⟩ := connected.keeps
    exact Outlet.destroys ServerObjects.store_lawful keeps
  · have sound : world.Sound :=
      (SharedWorld.Sound.start created fits).run shows ran
    obtain ⟨owned, free, owned_iff, lawful, listed, keeps⟩ := sound.lawful live
    exact ⟨owned, free, owned_iff, fun _ _ _ => Outlet.destroys lawful keeps⟩
  · exact (Publisher.path_of_run created ran).1.drops filter binder peer registry

section Sample

attribute [local instance] Server.historyNative

/-- An interface whose only request is its destructor. -/
def wlSurface : Interface where
  name := "wl_surface"
  version := 1
  requests := [{ since := 1, destructor := true }]
  events := []

/-- The request `wl_surface.destroy`. -/
def surfaceDestroy : Client.Request where
  interface := wlSurface
  opcode := 0
  signature := []

/-- The objects of a client that has nothing but wl_display. -/
def surfaceInitial : ClientObjects :=
  ((ClientObjects.initGrowable 4 4 wlDisplay none
    { ids := true, table := true }).toOption).getD ClientObjects.sampleGrowable

theorem surfaceInitial_attached : ClientObjects.Attached surfaceInitial :=
  .growable (show ClientObjects.initGrowable 4 4 wlDisplay none
    { ids := true, table := true } = .ok surfaceInitial from rfl)

/-- A surface is created. -/
def surfaceCalls : List ClientObjects.Call :=
  [{ operation := .createLocal wlSurface 1 none
     grants := { ids := true, table := true } }]

/-- A client with a surface and an empty queue. -/
def surfaceClient (budget : Nat) : Client.Connection where
  objects := (surfaceInitial.run surfaceCalls).2
  queue := Tx.Queue.init budget 1
  storage := Server.historyStorage

/-- The surface, and the callback of the servers below. -/
def surfaceHandle : Handle where
  id := 2
  generation := 2

/-- Room for two blocks. -/
def surfaceRoom : Tx.Room where
  blocks := 2
  fds := 1

/-- The objects of a server with a callback of the client and one of its own. -/
def serverCallbacks : ServerObjects :=
  ((Server.displayOnly.create (.client 2 Server.wlCallback 1 none)).2.create
    (.server Server.wlCallback 1 none)).2

theorem serverCallbacks_connected : ServerObjects.Connected serverCallbacks :=
  .createLocal (.insertClient
    (.init (show ServerObjects.init 4 2 wlDisplay none true true =
      .ok Server.displayOnly from rfl))
    (show Server.displayOnly.insertClient 2 Server.wlCallback 1 none =
      .ok (surfaceHandle,
        (Server.displayOnly.create (.client 2 Server.wlCallback 1 none)).2)
      from rfl))

/-- A callback is done. -/
def callbackSends
    (budget : Nat) (unsettled : Bool) (callback : Handle) :
    Option (Server.Answer ServerObjects Unit) :=
  Server.sendEvent ServerObjects.store none Server.callbackDone
    { state := serverCallbacks
      queue :=
        { Tx.Queue.init budget 1 with reservationActive := unsettled }
      storage := Server.historyStorage }
    callback ((7, ()) : UInt32 × Unit) fun _ => surfaceRoom

/-- The first client's registry can be dropped once both clients have one. -/
theorem guests_drop_registry :
    ((Publisher.run Publisher.guestHosts (Publisher.guestCalls.take 3)
        Publisher.guestBoard).bind fun later =>
      later.2.removeRegistry Publisher.guestHosts Publisher.boardPeer
        { id := 2, generation := 3 }).map (fun reply => reply.result.isOk) =
      some true := by
  rfl

/-- A request is queued and its object waits for `delete_id`, or there is no
room and the object stays.  With room for the event alone, neither the event nor
`delete_id` is queued; the server's own callback needs no `delete_id`. -/
theorem destructors_are_atomic_sample :
    (∃ after,
      Client.sendRequest surfaceDestroy (surfaceClient 64) surfaceHandle ()
          surfaceRoom = .ok (.ok (), after) ∧
        after.queue.byteCount = 8 ∧
        ClientObjects.Retired (surfaceClient 64).objects after.objects
          surfaceHandle) ∧
    (∃ cause after,
      Client.sendRequest surfaceDestroy (surfaceClient 4) surfaceHandle ()
          surfaceRoom = .ok (.error cause, after) ∧
        after.objects = (surfaceClient 4).objects ∧ after.Queues [] []) ∧
    (∃ reply, callbackSends 64 false surfaceHandle = some reply ∧
      reply.outlet.queue.byteCount = 24 ∧
      ServerObjects.store.found reply.outlet.state surfaceHandle = none) ∧
    (∃ reply, callbackSends 20 false surfaceHandle = some reply ∧
      reply.outlet.queue.byteCount = 0 ∧
      (ServerObjects.store.found reply.outlet.state surfaceHandle).isSome) ∧
    (∃ reply,
      callbackSends 64 false { id := serverIdStart, generation := 3 } =
          some reply ∧
        reply.outlet.queue.byteCount = 12) ∧
    (∃ cause after,
      callbackSends 64 true surfaceHandle = some (.failed cause after) ∧
        (ServerObjects.store.found after.state surfaceHandle).isSome) ∧
    (∃ reply,
      Server.deleteClient SharedServerObjects.store none
          { state := ({ objects := Server.callbackObjects 0 },
              Server.callbackWorld.pool)
            queue := Tx.Queue.init 64 1
            storage := Server.historyStorage }
          { id := 2, generation := 3 } surfaceRoom = some reply ∧
        reply.outlet.queue.byteCount = 12 ∧
        SharedServerObjects.store.found reply.outlet.state
          { id := 2, generation := 3 } = none) ∧
    ∃ log publisher reply object,
      Publisher.run Publisher.guestHosts (Publisher.guestCalls.take 3)
          Publisher.guestBoard = some (log, publisher) ∧
        publisher.removeRegistry Publisher.guestHosts Publisher.boardPeer
          { id := 2, generation := 3 } = some reply ∧
        reply.result = .ok object ∧
        publisher.clients.Deleted reply.publisher.clients Publisher.boardPeer
          { id := 2, generation := 3 } object := by
  obtain ⟨client, server, shared, runtime, -⟩ := destructors_are_atomic
  have requests := fun budget =>
    client surfaceInitial surfaceInitial_attached surfaceCalls
      (Tx.Queue.init budget 1) Server.historyStorage
  have empty : ∀ budget, (surfaceClient budget).Queues [] [] := fun budget =>
    ⟨Server.historyStorage_wellFormed, [], [], .init _ _ _⟩
  have events := fun budget unsettled =>
    server serverCallbacks serverCallbacks_connected
      { Tx.Queue.init budget 1 with reservationActive := unsettled }
      Server.historyStorage none
  have sends := fun budget callback =>
    ((events budget false).atomic [] [] [] [] Server.historyStorage_wellFormed
      (.init _ _ _)).sendEvent Server.callbackDone callback
      ((7, ()) : UInt32 × Unit) fun _ => surfaceRoom
  refine ⟨?_, ?_, ?_, ?_, ?_, ?_, ?_, ?_⟩
  · obtain ⟨_, after, sent, does⟩ := (requests 64).atomic [] [] surfaceDestroy
      surfaceHandle () surfaceRoom (empty 64)
    cases sent
    obtain ⟨object, _, found, _, _, _, retired⟩ := does
    cases found
    exact ⟨_, rfl, rfl, retired⟩
  · obtain ⟨_, after, sent, does⟩ := (requests 4).atomic [] [] surfaceDestroy
      surfaceHandle () surfaceRoom (empty 4)
    cases sent
    exact ⟨_, _, rfl, does.1, does.2.2⟩
  · obtain ⟨reply, sent, does⟩ := sends 64 surfaceHandle
    refine ⟨reply, sent, ?_⟩
    cases sent
    exact ⟨rfl, rfl⟩
  · obtain ⟨reply, sent, does⟩ := sends 20 surfaceHandle
    refine ⟨reply, sent, ?_⟩
    cases sent
    exact ⟨rfl, rfl⟩
  · obtain ⟨reply, sent, does⟩ := sends 64 { id := serverIdStart, generation := 3 }
    refine ⟨reply, sent, ?_⟩
    cases sent
    rfl
  · obtain ⟨cause, after, sent, _, _, same⟩ := ((events 64 true).waits rfl).sendEvent
      Server.callbackDone surfaceHandle ((7, ()) : UInt32 × Unit) fun _ => surfaceRoom
    refine ⟨cause, after, sent, ?_⟩
    rw [same]
    rfl
  · obtain ⟨owned, free, _, destroys⟩ := shared 4 true (SharedObjectPool.fresh 4)
      (fun _ => 2) Server.callbackOperations _ Server.callbackWorld 0
      (Server.callbackObjects 0) rfl (fun _ => by decide)
      Server.callbackOperations_show rfl rfl
    obtain ⟨reply, deleted, does⟩ := ((destroys (Tx.Queue.init 64 1)
      Server.historyStorage none).atomic [] [] [] []
      Server.historyStorage_wellFormed (.init _ _ _)).deleteClient
      { id := 2, generation := 3 } surfaceRoom
    refine ⟨reply, deleted, ?_⟩
    cases deleted
    exact ⟨rfl, rfl⟩
  · have evaluates := guests_drop_registry
    cases ran : Publisher.run Publisher.guestHosts (Publisher.guestCalls.take 3)
        Publisher.guestBoard with
    | none =>
        rw [ran] at evaluates
        cases evaluates
    | some later =>
        obtain ⟨log, publisher⟩ := later
        obtain ⟨reply, removed, drops⟩ := runtime Publisher.guestBoard.clients 4 4
          true true true Publisher.guestBoard none Publisher.plainBinder
          (Publisher.guestCalls.take 3) log publisher
          Publisher.guestBoard_created ran Publisher.boardPeer
          { id := 2, generation := 3 }
        rw [ran, Option.bind_some, Publisher.guestHosts, removed, Option.map_some]
          at evaluates
        unfold Publisher.Drops at drops
        cases outcome : reply.result with
        | error cause =>
            rw [outcome] at evaluates
            cases evaluates
        | ok object =>
            rw [outcome] at drops
            exact ⟨log, publisher, reply, object, rfl, removed, outcome, drops.2.1⟩

end Sample

end Wayring
