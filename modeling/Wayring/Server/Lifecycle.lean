import Wayring.Codec.Preflight
import Wayring.Foundation.Lifetimes
import Wayring.Objects.ServerStore
import Wayring.Server.Session

/-!
# Destructors

A server destroys an object with the event or the request that is its
destructor.  The client hears of an ID of its own with `wl_display.delete_id`,
which goes on the transmit queue before the object leaves the store.
-/

namespace Wayring
namespace Codec

/-- The objects that a message names, in order, each with the interface that it
must have. -/
def objectArguments :
    (signature : Signature) → Payload signature →
      List (Option String × UInt32)
  | [], _ => []
  | .object interface true :: rest, payload =>
      match (payload.1 : Option UInt32) with
      | none => objectArguments rest payload.2
      | some id => (interface, id) :: objectArguments rest payload.2
  | .object interface false :: rest, payload =>
      (interface, (payload.1 : UInt32)) :: objectArguments rest payload.2
  | _ :: rest, payload => objectArguments rest payload.2

end Codec

namespace Store

variable {State : Type} {store : Store State}
  {Keeps : State → List (Handle × Object) → Prop}
  {hook : Option (RemovalHook State)} {handle : Handle} {object : Object}
  {state : State} {live : List (Handle × Object)}

/-- What the hook was told of makes the objects that went. -/
theorem Took.trace
    {before next : State} {notices : List (RemovalNotice State)}
    {taken : List (Handle × Object)} {items : List UInt8}
    (took : store.Took hook before handle object notices next taken) :
    Lifetime.Trace (store.found before)
      (.ended handle items ::
        Lifetime.ends ((notices.drop 1).map Cascade.Notice.key))
      (store.found next) := by
  obtain ⟨rest, rfl⟩ : ∃ rest, taken = (handle, object) :: rest :=
    List.head?_eq_some_iff.mp took.first
  have keys : (notices.drop 1).map Cascade.Notice.key = rest.map Prod.fst := by
    have told := took.told
    cases hook with
    | none =>
        have alone := took.alone rfl
        rw [List.cons.injEq] at alone
        rw [Option.isSome_none, if_neg (by decide), List.map_eq_nil_iff] at told
        rw [told, alone.2]
        rfl
    | some hook =>
        rw [Option.isSome_some, if_pos rfl] at told
        have later := congrArg (fun entries => (entries.drop 1).map Prod.fst) told
        rw [← List.map_drop, List.map_map] at later
        exact later
  rw [keys]
  obtain ⟨apart, distinct⟩ := List.nodup_cons.mp took.distinct
  refine .cons ⟨?_, rfl⟩
    (Lifetime.trace_ends distinct (fun key member => ?_) fun key => ?_)
  · rw [took.present _ List.mem_cons_self]
    simp
  · have differs : key ≠ handle := by
      rintro rfl
      exact apart member
    obtain ⟨entry, inside, rfl⟩ := List.mem_map.mp member
    rw [Function.update_of_ne differs,
      took.present _ (List.mem_cons_of_mem _ inside)]
    simp
  · rw [took.found, Function.update_apply, List.map_cons]
    by_cases isFirst : key = handle
    · simp [isFirst]
    · simp only [List.mem_cons, isFirst, false_or, if_false]

/-- An object that resolves can be taken out, if it is not the display. -/
theorem Lawful.cancels
    (lawful : store.Lawful Keeps)
    (keeps : Keeps state live)
    (member : (handle, object) ∈ live)
    (notDisplay : object.interface ≠ wlDisplay) :
    ∃ next, store.cancel state
      (if handle.id < serverIdStart then .client handle
        else .server handle) = (.ok object, next) := by
  by_cases isClient : handle.id < serverIdStart
  · have lower : 2 ≤ handle.id := by
      by_contra low
      exact notDisplay (lawful.display keeps member (by omega))
    rw [if_pos isClient]
    exact lawful.client keeps member lower isClient
  · rw [if_neg isClient]
    exact lawful.server keeps member (Nat.le_of_not_lt isClient)

end Store

namespace Server

/-- An event of a generated interface. -/
structure Event where
  interface : Interface
  opcode : Nat
  signature : Codec.Signature

/-- The objects of a connection and its transmit queue. -/
structure Outlet (State : Type) where
  state : State
  queue : Tx.Queue
  storage : Storage

/-- What a call gives back, and what the removal hook was told. -/
structure Answer (State α : Type) where
  result : Except Error α
  outlet : Outlet State
  notices : List (RemovalNotice State) := []

namespace Answer

variable {State α : Type}

/-- A call that failed with nothing done. -/
def failed (cause : Error) (outlet : Outlet State) : Answer State α where
  result := .error cause
  outlet

/-- The same without a result. -/
def done (answer : Answer State α) : Answer State Unit :=
  { answer with result := answer.result.map fun _ => () }

end Answer

section Calls

variable {State : Type}

/-- Check that the objects of an event exist and have their interfaces. -/
def checkObjects
    (store : Store State) :
    List (Option String × UInt32) → State → Except Error Unit × State
  | [], state => (.ok (), state)
  | (interface, id) :: rest, state =>
      match store.get state id.toNat with
      | (none, state) => (.error .unknownObject, state)
      | (some object, state) =>
          if ∃ name ∈ interface, object.interface.name ≠ name then
            (.error .wrongInterface, state)
          else checkObjects store rest state

/-- Take an object out of the store.  A failure is marked unreachable. -/
def retire
    (store : Store State)
    (hook : Option (RemovalHook State))
    (outlet : Outlet State)
    (removal : Removal) : Option (Answer State Object) :=
  match store.remove hook outlet.state removal with
  | (.error _, _, _) => none
  | (.ok object, state, notices) =>
      some { result := .ok object, outlet := { outlet with state }, notices }

variable [Native]

/-- Queue `delete_id`, and remove the object of a client. -/
def deleteClient
    (store : Store State)
    (hook : Option (RemovalHook State))
    (outlet : Outlet State)
    (handle : Handle)
    (room : Tx.Room) : Option (Answer State Object) :=
  if handle.id < 2 ∨ handle.id ≥ serverIdStart then
    some (.failed .invalidClientId outlet)
  else
    match store.resolve outlet.state handle with
    | (none, state) => some (.failed .staleHandle { outlet with state })
    | (some _, state) =>
        match (DisplayEvent.deleteId (UInt32.ofNat handle.id)).encode
            outlet.queue outlet.storage room with
        | (.error cause, queue, storage) =>
            some (.failed cause { state, queue, storage })
        | (.ok _, queue, storage) =>
            retire store hook { state, queue, storage } (.client handle)

/-- Remove the object of a destructor once the request was handled. -/
def finish
    (store : Store State)
    (hook : Option (RemovalHook State))
    (outlet : Outlet State)
    (handle : Handle)
    (destructor : Bool)
    (room : Tx.Room) : Option (Answer State Unit) :=
  if !destructor then some { result := .ok (), outlet }
  else if handle.id < serverIdStart then
    (deleteClient store hook outlet handle room).map Answer.done
  else
    match store.remove hook outlet.state (.server handle) with
    | (.error cause, state, notices) =>
        some { result := .error cause, outlet := { outlet with state }, notices }
    | (.ok _, state, notices) =>
        some { result := .ok (), outlet := { outlet with state }, notices }

/-- Make room for an event and the `delete_id` behind it. -/
def preflight
    (event : Event)
    (queue : Tx.Queue)
    (storage : Storage)
    (handle : Handle)
    (payload : Codec.Payload event.signature)
    (room : Tx.Room) : Except Error Unit × Storage :=
  match Codec.messageSize event.signature payload with
  | .error cause => (.error cause, storage)
  | .ok eventSize =>
      let deleteId := DisplayEvent.deleteId (UInt32.ofNat handle.id)
      match Codec.messageSize deleteId.signature deleteId.payload with
      | .error cause => (.error cause, storage)
      | .ok deleteIdSize =>
          queue.ensureCapacity storage (eventSize + deleteIdSize) 0 room

/-- Send an event.  A destructor takes its object out of the store when all
its messages are on the queue. -/
def sendEvent
    (store : Store State)
    (hook : Option (RemovalHook State))
    (event : Event)
    (outlet : Outlet State)
    (handle : Handle)
    (payload : Codec.Payload event.signature)
    (rooms : Nat → Tx.Room) : Option (Answer State Unit) :=
  match store.resolve outlet.state handle with
  | (none, state) => some (.failed .staleHandle { outlet with state })
  | (some object, state) =>
      if object.interface ≠ event.interface then
        some (.failed .wrongInterface { outlet with state })
      else
        match object.interface.event event.opcode object.version with
        | .error cause => some (.failed cause { outlet with state })
        | .ok message =>
            match checkObjects store
                (Codec.objectArguments event.signature payload) state with
            | (.error cause, state) =>
                some (.failed cause { outlet with state })
            | (.ok _, state) =>
                match if message.destructor ∧ handle.id < serverIdStart then
                    preflight event outlet.queue outlet.storage handle payload
                      (rooms 0)
                  else (.ok (), outlet.storage) with
                | (.error cause, storage) =>
                    some (.failed cause { outlet with state, storage })
                | (.ok _, storage) =>
                    match Codec.encode event.signature event.opcode
                        outlet.queue storage (UInt32.ofNat handle.id) payload
                        (rooms 1) with
                    | (.error cause, queue, storage) =>
                        some (.failed cause { state, queue, storage })
                    | (.ok _, queue, storage) =>
                        if !message.destructor then
                          some
                            { result := .ok ()
                              outlet := { state, queue, storage } }
                        else if handle.id < serverIdStart then
                          match (DisplayEvent.deleteId
                              (UInt32.ofNat handle.id)).encode queue storage
                              (rooms 2) with
                          | (.error cause, queue, storage) =>
                              some (.failed cause { state, queue, storage })
                          | (.ok _, queue, storage) =>
                              (retire store hook { state, queue, storage }
                                (.client handle)).map Answer.done
                        else
                          (retire store hook { state, queue, storage }
                            (.server handle)).map Answer.done

/-- The interface of callbacks, which end with their only event. -/
def wlCallback : Interface where
  name := "wl_callback"
  version := 1
  requests := []
  events := [{ since := 1, destructor := true }]

/-- The event `wl_callback.done`. -/
def callbackDone : Event where
  interface := wlCallback
  opcode := 0
  signature := [.uint]

/-- Answer `wl_display.sync`: the callback is done. -/
def completeSync
    (store : Store State)
    (hook : Option (RemovalHook State))
    (outlet : Outlet State)
    (callback : Handle)
    (callbackData : UInt32)
    (rooms : Nat → Tx.Room) : Option (Answer State Unit) :=
  sendEvent store hook callbackDone outlet callback (callbackData, ()) rooms

end Calls

/-! ## What a call does -/

section Effects

variable {State : Type}

/-- The objects of a connection are sound, and some bytes and descriptors are
queued. -/
structure Outlet.Holds
    (Keeps : State → List (Handle × Object) → Prop)
    (outlet : Outlet State)
    (bytes : List UInt8)
    (fds : List Fd) : Prop where
  objects : ∃ live, Keeps outlet.state live
  wellFormed : outlet.storage.WellFormed
  queue : ∃ chain fdChain,
    outlet.queue.Stores outlet.storage bytes fds chain fdChain

/-- Nothing changed that can be seen. -/
structure Outlet.Unchanged
    (store : Store State)
    (Keeps : State → List (Handle × Object) → Prop)
    (before after : Outlet State)
    (bytes : List UInt8)
    (fds : List Fd) : Prop where
  holds : after.Holds Keeps bytes fds
  queue : after.queue = before.queue
  found : store.found after.state = store.found before.state
  plain : store.plain after.state = store.plain before.state

/-- Objects came and went, and the messages that say so are queued. -/
structure Outlet.Changed
    (store : Store State)
    (Keeps : State → List (Handle × Object) → Prop)
    (before after : Outlet State)
    (bytes : List UInt8)
    (fds added : List Fd)
    (entries : List (Lifetime Handle Object UInt8)) : Prop where
  holds : after.Holds Keeps (bytes ++ Lifetime.itemsOf entries) (fds ++ added)
  trace : Lifetime.Trace (store.found before.state) entries
    (store.found after.state)

/-- What the client hears of an object that goes. -/
def farewell [Native] (handle : Handle) : List UInt8 :=
  if handle.id < serverIdStart then
    ((DisplayEvent.deleteId (UInt32.ofNat handle.id)).frame.toOption).getD []
  else []

/-- An object goes, and with it those that the hook removes. -/
def departs [Native]
    (handle : Handle)
    (notices : List (RemovalNotice State)) :
    List (Lifetime Handle Object UInt8) :=
  .ended handle (farewell handle) ::
    Lifetime.ends ((notices.drop 1).map Cascade.Notice.key)

/-- The bytes of an event. -/
def Event.text [Native]
    (event : Event)
    (handle : Handle)
    (payload : Codec.Payload event.signature) : List UInt8 :=
  ((Codec.message event.signature event.opcode (UInt32.ofNat handle.id)
    payload).toOption).getD []

/-- The event is the destructor of an object. -/
def Event.destroys (event : Event) (object : Option Object) : Bool :=
  match object with
  | none => false
  | some object =>
      match object.interface.event event.opcode object.version with
      | .error _ => false
      | .ok message => message.destructor

/-- A call is served: it fails and nothing changed, or it did what the entries
say. -/
def Outlet.Serves {α : Type}
    (store : Store State)
    (Keeps : State → List (Handle × Object) → Prop)
    (before : Outlet State)
    (bytes : List UInt8)
    (fds added : List Fd)
    (entries : List (RemovalNotice State) → List (Lifetime Handle Object UInt8))
    (answer : Option (Answer State α)) : Prop :=
  ∃ reply, answer = some reply ∧
    match reply.result with
    | .error _ => before.Unchanged store Keeps reply.outlet bytes fds ∧
        reply.notices = []
    | .ok _ => before.Changed store Keeps reply.outlet bytes fds added
        (entries reply.notices)

variable {store : Store State}
  {Keeps : State → List (Handle × Object) → Prop}
  {hook : Option (RemovalHook State)} {outlet after : Outlet State}
  {bytes : List UInt8} {fds : List Fd} {handle : Handle} {object : Object}
  {state : State} {live : List (Handle × Object)}

/-- An object that is there leaves the store, and no other that stays is
touched. -/
theorem retire_spec
    {removal : Removal} {next : State} {items : List UInt8}
    (lawful : store.Lawful Keeps)
    (keeps : Keeps outlet.state live)
    (cancels : store.cancel outlet.state removal = (.ok object, next)) :
    ∃ state notices,
      retire store hook outlet removal =
        some { result := .ok object, outlet := { outlet with state }, notices } ∧
      (∃ live, Keeps state live) ∧
      Lifetime.Trace (store.found outlet.state)
        (.ended removal.handle items ::
          Lifetime.ends ((notices.drop 1).map Cascade.Notice.key))
        (store.found state) := by
  obtain ⟨removed, taken, rest, took, keepsNow⟩ :=
    @Store.Lawful.took _ _ _ _ _ _ hook _ _ lawful keeps cancels
  unfold retire
  generalize store.remove hook outlet.state removal = outcome
    at removed took keepsNow ⊢
  obtain ⟨result, state, notices⟩ := outcome
  cases removed
  exact ⟨state, notices, rfl, ⟨rest, keepsNow⟩, took.trace⟩

/-- A lookup by ID is not seen. -/
theorem checkObjects_spec
    (lawful : store.Lawful Keeps)
    (keeps : Keeps state live)
    (arguments : List (Option String × UInt32)) :
    Keeps (checkObjects store arguments state).2 live ∧
      store.plain (checkObjects store arguments state).2 =
        store.plain state := by
  induction arguments generalizing state with
  | nil => exact ⟨keeps, rfl⟩
  | cons argument rest check_ih =>
      obtain ⟨interface, id⟩ := argument
      obtain ⟨keepsNow, same⟩ := lawful.get keeps id.toNat
      unfold checkObjects
      generalize store.get state id.toNat = outcome at keepsNow same ⊢
      obtain ⟨found, stateNow⟩ := outcome
      cases found with
      | none => exact ⟨keepsNow, same⟩
      | some object =>
          simp only
          split_ifs with wrong
          · exact ⟨keepsNow, same⟩
          · obtain ⟨keepsLast, sameLast⟩ := check_ih keepsNow
            exact ⟨keepsLast, sameLast.trans same⟩

/-- What a failed call leaves behind. -/
theorem Outlet.Unchanged.of_holds
    {live : List (Handle × Object)}
    (lawful : store.Lawful Keeps)
    (keeps : Keeps outlet.state live)
    (keepsNow : Keeps after.state live)
    (same : store.plain after.state = store.plain outlet.state)
    (queue : after.queue = outlet.queue)
    (holds : after.Holds Keeps bytes fds) :
    outlet.Unchanged store Keeps after bytes fds where
  holds
  queue
  found := funext fun handle => lawful.found_eq keeps keepsNow handle
  plain := same

variable [Native]

/-- A message is queued as a whole, or the queue stays as it was. -/
theorem Outlet.Holds.encode
    {signature : Codec.Signature}
    (holds : outlet.Holds Keeps bytes fds)
    (objects : ∃ live, Keeps state live)
    (opcode : Nat)
    (objectId : UInt32)
    (payload : Codec.Payload signature)
    (room : Tx.Room) :
    let outcome := Codec.encode signature opcode outlet.queue outlet.storage
      objectId payload room
    let after : Outlet State :=
      { state, queue := outcome.2.1, storage := outcome.2.2 }
    match outcome.1 with
    | .error _ => outcome.2.1 = outlet.queue ∧ after.Holds Keeps bytes fds
    | .ok _ => ∃ text,
        Codec.message signature opcode objectId payload = .ok text ∧
          after.Holds Keeps (bytes ++ text)
            (fds ++ Codec.Payload.fds signature payload) := by
  obtain ⟨chain, fdChain, stores⟩ := holds.queue
  have spec := @Codec.encode_whole _ _ _ _ _ _ _ signature opcode objectId
    payload room stores holds.wellFormed
  simp only at spec ⊢
  generalize Codec.encode signature opcode outlet.queue outlet.storage objectId
    payload room = outcome at spec ⊢
  obtain ⟨result, queue, storage⟩ := outcome
  cases result with
  | error cause =>
      obtain ⟨wellFormed, same, storesNow⟩ := spec
      refine ⟨same, objects, wellFormed, chain, fdChain, ?_⟩
      rw [show queue = outlet.queue from same]
      exact storesNow
  | ok _ =>
      obtain ⟨wellFormed, text, chainNow, fdChainNow, framed, storesNow⟩ := spec
      exact ⟨text, framed, objects, wellFormed, chainNow, fdChainNow, storesNow⟩

/-- The client hears of an ID of its own when the object goes. -/
theorem farewell_eq
    {text : List UInt8}
    (isClient : handle.id < serverIdStart)
    (framed : (DisplayEvent.deleteId (UInt32.ofNat handle.id)).frame =
      .ok text) : farewell handle = text := by
  rw [farewell, if_pos isClient, framed]
  rfl

/-- Deleting an object of the client fails as a whole, or queues `delete_id`
and takes the object out. -/
theorem deleteClient_spec
    (lawful : store.Lawful Keeps)
    (holds : outlet.Holds Keeps bytes fds)
    (handle : Handle)
    (room : Tx.Room) :
    outlet.Serves store Keeps bytes fds [] (departs handle)
      (deleteClient store hook outlet handle room) := by
  obtain ⟨live, keeps⟩ := holds.objects
  unfold deleteClient
  by_cases outside : handle.id < 2 ∨ handle.id ≥ serverIdStart
  · rw [if_pos outside]
    exact ⟨_, rfl, .of_holds lawful keeps keeps rfl rfl holds, rfl⟩
  rw [if_neg outside]
  obtain ⟨keepsNow, same⟩ := lawful.resolve keeps handle
  have isFound : store.found outlet.state handle =
      (store.resolve outlet.state handle).1 := rfl
  generalize store.resolve outlet.state handle = outcome
    at keepsNow same isFound ⊢
  obtain ⟨found, state⟩ := outcome
  have seen : Outlet.Holds Keeps { outlet with state } bytes fds :=
    ⟨⟨live, keepsNow⟩, holds.wellFormed, holds.queue⟩
  cases found with
  | none => exact ⟨_, rfl, .of_holds lawful keeps keepsNow same rfl seen, rfl⟩
  | some object =>
      have sent := holds.encode ⟨live, keepsNow⟩
        (DisplayEvent.deleteId (UInt32.ofNat handle.id)).opcode
        (UInt32.ofNat displayId)
        (DisplayEvent.deleteId (UInt32.ofNat handle.id)).payload room
      simp only [DisplayEvent.encode] at sent ⊢
      generalize Codec.encode
        (DisplayEvent.deleteId (UInt32.ofNat handle.id)).signature
        (DisplayEvent.deleteId (UInt32.ofNat handle.id)).opcode outlet.queue
        outlet.storage (UInt32.ofNat displayId)
        (DisplayEvent.deleteId (UInt32.ofNat handle.id)).payload room = outcome
        at sent ⊢
      obtain ⟨result, queue, storage⟩ := outcome
      cases result with
      | error cause =>
          exact ⟨_, rfl,
            .of_holds lawful keeps keepsNow same sent.1 sent.2, rfl⟩
      | ok _ =>
          obtain ⟨text, framed, holdsNow⟩ := sent
          have member := ((lawful.finds keeps).2 _ _).mp isFound
          obtain ⟨next, cancels⟩ := lawful.client keepsNow member (by omega)
            (by omega)
          obtain ⟨last, notices, retired, objects, trace⟩ :=
            @retire_spec _ store Keeps hook
              { state, queue, storage } object live _ next
              (farewell handle) lawful keepsNow cancels
          refine ⟨_, retired, ⟨objects, holdsNow.wellFormed, ?_⟩, ?_⟩
          · have said : Lifetime.itemsOf
                (departs handle notices : List (Lifetime Handle Object UInt8)) =
                  text := by
              rw [departs, Lifetime.itemsOf_cons, Lifetime.itemsOf_ends,
                List.append_nil]
              exact farewell_eq (by omega) framed
            simp only
            rw [said]
            exact holdsNow.queue
          · have before : store.found outlet.state = store.found state :=
              funext fun other => (lawful.found_eq keeps keepsNow other).symm
            rw [before]
            exact trace

omit [Native] in
/-- What serves a call serves it without its result. -/
theorem Outlet.Serves.done
    {α : Type} {answer : Option (Answer State α)} {added : List Fd}
    {entries : List (RemovalNotice State) →
      List (Lifetime Handle Object UInt8)}
    (serves : outlet.Serves store Keeps bytes fds added entries answer) :
    outlet.Serves store Keeps bytes fds added entries
      (answer.map Answer.done) := by
  obtain ⟨⟨result, reply, notices⟩, rfl, does⟩ := serves
  refine ⟨_, rfl, ?_⟩
  cases result with
  | error cause => exact does
  | ok value => exact does

/-- The server removes an object of its own without a message. -/
theorem finish_server
    (lawful : store.Lawful Keeps)
    (keeps : Keeps outlet.state live)
    (isServer : ¬handle.id < serverIdStart)
    (room : Tx.Room) :
    ∃ reply, finish store hook outlet handle true room = some reply ∧
      reply.outlet.queue = outlet.queue ∧
      reply.outlet.storage = outlet.storage ∧
      match reply.result with
      | .error _ => reply.outlet.state = outlet.state ∧ reply.notices = []
      | .ok _ => (∃ live, Keeps reply.outlet.state live) ∧
          Lifetime.Trace (store.found outlet.state)
            (departs handle reply.notices)
            (store.found reply.outlet.state) := by
  simp only [finish, Bool.not_true, Bool.false_eq_true, if_false, if_neg isServer]
  cases cancels : store.cancel outlet.state (.server handle) with
  | mk result next =>
      cases result with
      | error cause =>
          have same := lawful.refused cancels
          subst same
          simp only [Store.remove, cancels]
          exact ⟨_, rfl, rfl, rfl, rfl, rfl⟩
      | ok object =>
          obtain ⟨state, notices, retired, objects, trace⟩ :=
            @retire_spec _ store Keeps hook outlet object live _ next
              (farewell handle) lawful keeps cancels
          unfold retire at retired
          generalize store.remove hook outlet.state (.server handle) =
            outcome at retired ⊢
          obtain ⟨removed, stateNow, told⟩ := outcome
          cases removed with
          | error cause => cases retired
          | ok other =>
              cases retired
              exact ⟨_, rfl, rfl, rfl, objects, trace⟩

/-- What handling a request leaves is done, or nothing is. -/
theorem finish_spec
    (lawful : store.Lawful Keeps)
    (holds : outlet.Holds Keeps bytes fds)
    (handle : Handle)
    (destructor : Bool)
    (room : Tx.Room) :
    outlet.Serves store Keeps bytes fds []
      (fun notices => if destructor then departs handle notices else [])
      (finish store hook outlet handle destructor room) := by
  cases destructor with
  | false =>
      refine ⟨_, rfl, ⟨holds.objects, holds.wellFormed, ?_⟩, .nil _⟩
      simpa only [Bool.false_eq_true, if_false, Lifetime.itemsOf_nil,
        List.append_nil] using holds.queue
  | true =>
      simp only [if_true]
      by_cases isClient : handle.id < serverIdStart
      · simp only [finish, Bool.not_true, Bool.false_eq_true, if_false,
          if_pos isClient]
        exact (deleteClient_spec lawful holds handle room).done
      obtain ⟨live, keeps⟩ := holds.objects
      obtain ⟨⟨result, ⟨state, queue, storage⟩, notices⟩, finished, sameQueue,
        sameStorage, does⟩ :=
          @finish_server _ _ _ hook _ _ _ _ lawful keeps isClient room
      obtain rfl : queue = outlet.queue := sameQueue
      obtain rfl : storage = outlet.storage := sameStorage
      refine ⟨_, finished, ?_⟩
      cases result with
      | error cause =>
          obtain ⟨same, told⟩ := does
          obtain rfl : state = outlet.state := same
          exact ⟨.of_holds lawful keeps keeps rfl rfl holds, told⟩
      | ok _ =>
          obtain ⟨objects, trace⟩ := does
          have silent : Lifetime.itemsOf (departs handle notices :
              List (Lifetime Handle Object UInt8)) = [] := by
            simp only [departs, Lifetime.itemsOf_cons, Lifetime.itemsOf_ends,
              Lifetime.items, farewell, if_neg isClient, List.append_nil]
          refine ⟨⟨objects, holds.wellFormed, ?_⟩, trace⟩
          simp only [silent, List.append_nil]
          exact holds.queue

/-! ## Events -/

/-- The bytes of `delete_id`. -/
def deleteIdSize : Nat := 12

omit [Native] in
/-- Making room changes nothing, and is for the event and `delete_id`. -/
theorem preflight_spec
    {event : Event} {payload : Codec.Payload event.signature} {room : Tx.Room}
    (holds : outlet.Holds Keeps bytes fds) :
    let outcome :=
      preflight event outlet.queue outlet.storage handle payload room
    Outlet.Holds Keeps { outlet with storage := outcome.2 } bytes fds ∧
      (outcome.1 = .ok () → ∃ size,
        Codec.messageSize event.signature payload = .ok size ∧
          outlet.queue.Affords outcome.2 bytes (size + deleteIdSize)) := by
  simp only [preflight]
  cases sized : Codec.messageSize event.signature payload with
  | error cause => exact ⟨holds, by simp⟩
  | ok size =>
      have deletes : Codec.messageSize
          (DisplayEvent.deleteId (UInt32.ofNat handle.id)).signature
          (DisplayEvent.deleteId (UInt32.ofNat handle.id)).payload =
            .ok deleteIdSize := rfl
      obtain ⟨chain, fdChain, stores⟩ := holds.queue
      simp only [deletes]
      obtain ⟨step, storesNow, _, granted⟩ :=
        @Tx.Queue.ensureCapacity_spec _ _ _ _ _ _ (size + deleteIdSize) 0 room
          stores holds.wellFormed
      refine ⟨⟨holds.objects, step.wellFormed, chain, fdChain, storesNow⟩,
        fun ok => ⟨size, rfl, ?_⟩⟩
      obtain ⟨budget, _, enough, _⟩ := granted ok
      exact ⟨budget, enough⟩

/-- An event that there was room for leaves room for `delete_id`. -/
theorem Outlet.Holds.encode_preflighted
    {event : Event} {payload : Codec.Payload event.signature} {room : Tx.Room}
    {size : Nat} {queue : Tx.Queue} {storage : Storage}
    (holds : outlet.Holds Keeps bytes fds)
    (sized : Codec.messageSize event.signature payload = .ok size)
    (affords : outlet.queue.Affords outlet.storage bytes (size + deleteIdSize))
    (encoded : Codec.encode event.signature event.opcode outlet.queue
      outlet.storage (UInt32.ofNat handle.id) payload room =
        (.ok (), queue, storage)) :
    ∃ text,
      Codec.message event.signature event.opcode (UInt32.ofNat handle.id)
        payload = .ok text ∧
      Outlet.Holds Keeps { outlet with queue, storage } (bytes ++ text)
        (fds ++ Codec.Payload.fds event.signature payload) ∧
      queue.Affords storage (bytes ++ text) deleteIdSize := by
  obtain ⟨chain, fdChain, stores⟩ := holds.queue
  obtain ⟨headerBytes, chainNow, fdChainNow, headed, _, enqueued, left⟩ :=
    Codec.encode_affords stores holds.wellFormed sized affords encoded
  refine ⟨Codec.frame event.signature headerBytes payload, ?_,
    ⟨holds.objects, enqueued.step.wellFormed, _, _, enqueued.stores⟩, left⟩
  simp only [Codec.message, sized, headed, bind, Except.bind]

/-- There is room for `delete_id`. -/
theorem Outlet.Holds.encode_deleteId
    (holds : outlet.Holds Keeps bytes fds)
    (affords : outlet.queue.Affords outlet.storage bytes deleteIdSize)
    (isClient : handle.id < serverIdStart)
    (room : Tx.Room) :
    ∃ queue storage,
      (DisplayEvent.deleteId (UInt32.ofNat handle.id)).encode outlet.queue
        outlet.storage room = (.ok (), queue, storage) ∧
      Outlet.Holds Keeps { outlet with queue, storage }
        (bytes ++ farewell handle) fds := by
  obtain ⟨chain, fdChain, stores⟩ := holds.queue
  obtain ⟨queue, storage, encoded⟩ :=
    @Codec.encode_granted _ _ _ _ _ _ _
      (DisplayEvent.deleteId (UInt32.ofNat handle.id)).signature
      (DisplayEvent.deleteId (UInt32.ofNat handle.id)).opcode deleteIdSize
      (UInt32.ofNat displayId)
      (DisplayEvent.deleteId (UInt32.ofNat handle.id)).payload room stores
      holds.wellFormed rfl affords (by decide) rfl rfl
  have sent := holds.encode holds.objects
    (DisplayEvent.deleteId (UInt32.ofNat handle.id)).opcode
    (UInt32.ofNat displayId)
    (DisplayEvent.deleteId (UInt32.ofNat handle.id)).payload room
  rw [encoded] at sent
  obtain ⟨text, framed, holdsNow⟩ := sent
  refine ⟨queue, storage, encoded, ?_⟩
  rw [farewell_eq isClient framed]
  simpa only [show Codec.Payload.fds
    (DisplayEvent.deleteId (UInt32.ofNat handle.id)).signature
    (DisplayEvent.deleteId (UInt32.ofNat handle.id)).payload = [] from rfl,
    List.append_nil] using holdsNow

/-- What an object does when an event of it is sent. -/
def Event.entries
    (event : Event)
    (handle : Handle)
    (payload : Codec.Payload event.signature)
    (object : Option Object)
    (notices : List (RemovalNotice State)) :
    List (Lifetime Handle Object UInt8) :=
  .used handle (event.text handle payload) ::
    if event.destroys object then departs handle notices else []

/-- The object of a destructor goes with its messages. -/
theorem retire_departs
    {removal : Removal} {text : List UInt8} {added : List Fd}
    {event : Event} {payload : Codec.Payload event.signature}
    {before : Outlet State} {found : Option Object}
    (lawful : store.Lawful Keeps)
    (keeps : Keeps before.state live)
    (keepsNow : Keeps outlet.state live)
    (member : (handle, object) ∈ live)
    (removes : removal.handle = handle)
    (cancels : ∃ next,
      store.cancel outlet.state removal = (.ok object, next))
    (holds : outlet.Holds Keeps (bytes ++ text) (fds ++ added))
    (said : text = event.text handle payload ++ farewell handle)
    (destroys : event.destroys found = true) :
    before.Serves store Keeps bytes fds added
      (event.entries handle payload found)
      ((retire store hook outlet removal).map Answer.done) := by
  obtain ⟨next, cancelled⟩ := cancels
  obtain ⟨state, notices, retired, objects, trace⟩ :=
    @retire_spec _ store Keeps hook outlet object live _ next
      (farewell handle) lawful keepsNow cancelled
  rw [retired]
  refine ⟨_, rfl, ⟨objects, holds.wellFormed, ?_⟩, ?_⟩
  · have whole : Lifetime.itemsOf (event.entries handle payload found notices) =
        text := by
      rw [said, Event.entries, if_pos destroys, departs, Lifetime.itemsOf_cons,
        Lifetime.itemsOf_cons, Lifetime.itemsOf_ends, List.append_nil]
      rfl
    simp only [Answer.done]
    rw [whole]
    exact holds.queue
  · have same : store.found before.state = store.found outlet.state :=
      funext fun other => (lawful.found_eq keeps keepsNow other).symm
    rw [Event.entries, if_pos destroys, same]
    rw [removes] at trace
    refine .cons ⟨?_, rfl⟩ trace
    rw [((lawful.finds keepsNow).2 _ _).mpr member]
    simp

/-- An event is sent as a whole, with all that its destructor brings, or
nothing is done. -/
theorem sendEvent_spec
    (lawful : store.Lawful Keeps)
    (holds : outlet.Holds Keeps bytes fds)
    (event : Event)
    (handle : Handle)
    (payload : Codec.Payload event.signature)
    (rooms : Nat → Tx.Room) :
    outlet.Serves store Keeps bytes fds
      (Codec.Payload.fds event.signature payload)
      (event.entries handle payload (store.found outlet.state handle))
      (sendEvent store hook event outlet handle payload rooms) := by
  obtain ⟨live, keeps⟩ := holds.objects
  unfold sendEvent
  obtain ⟨keepsNow, same⟩ := lawful.resolve keeps handle
  have isFound : store.found outlet.state handle =
      (store.resolve outlet.state handle).1 := rfl
  generalize store.resolve outlet.state handle = outcome
    at keepsNow same isFound ⊢
  obtain ⟨found, state⟩ := outcome
  simp only at isFound keepsNow same
  rw [isFound]
  have seen : Outlet.Holds Keeps { outlet with state } bytes fds :=
    ⟨⟨live, keepsNow⟩, holds.wellFormed, holds.queue⟩
  cases found with
  | none => exact ⟨_, rfl, .of_holds lawful keeps keepsNow same rfl seen, rfl⟩
  | some object =>
  have member := ((lawful.finds keeps).2 _ _).mp isFound
  simp only
  by_cases wrong : object.interface ≠ event.interface
  · rw [if_pos wrong]
    exact ⟨_, rfl, .of_holds lawful keeps keepsNow same rfl seen, rfl⟩
  rw [if_neg wrong]
  cases described : object.interface.event event.opcode object.version with
  | error cause =>
      exact ⟨_, rfl, .of_holds lawful keeps keepsNow same rfl seen, rfl⟩
  | ok message =>
  have destroys : event.destroys (some object) = message.destructor := by
    simp only [Event.destroys, described]
  obtain ⟨keepsChecked, sameChecked⟩ := checkObjects_spec lawful keepsNow
    (Codec.objectArguments event.signature payload)
  simp only
  generalize checkObjects store
    (Codec.objectArguments event.signature payload) state = outcome
    at keepsChecked sameChecked ⊢
  obtain ⟨checked, state⟩ := outcome
  have plain := sameChecked.trans same
  have current : Outlet.Holds Keeps { outlet with state } bytes fds :=
    ⟨⟨live, keepsChecked⟩, holds.wellFormed, holds.queue⟩
  cases checked with
  | error cause =>
      exact ⟨_, rfl, .of_holds lawful keeps keepsChecked plain rfl current,
        rfl⟩
  | ok _ =>
  simp only
  by_cases lasts : message.destructor = false
  · have sent := current.encode current.objects event.opcode
      (UInt32.ofNat handle.id) payload (rooms 1)
    simp only [lasts, Bool.false_eq_true, false_and, if_false, Bool.not_false,
      if_true] at sent ⊢
    generalize Codec.encode event.signature event.opcode outlet.queue
      outlet.storage (UInt32.ofNat handle.id) payload (rooms 1) = outcome
      at sent ⊢
    obtain ⟨result, queue, storage⟩ := outcome
    cases result with
    | error cause =>
        exact ⟨_, rfl,
          .of_holds lawful keeps keepsChecked plain sent.1 sent.2, rfl⟩
    | ok _ =>
        obtain ⟨text, framed, holdsNow⟩ := sent
        have said : event.text handle payload = text := by
          rw [Event.text, framed]
          rfl
        have sameFound : store.found outlet.state = store.found state :=
          funext fun other =>
            (lawful.found_eq keeps keepsChecked other).symm
        refine ⟨_, rfl, ⟨holdsNow.objects, holdsNow.wellFormed, ?_⟩, ?_⟩
        · simp only [Event.entries, destroys, lasts, Bool.false_eq_true,
            if_false, Lifetime.itemsOf_cons, Lifetime.itemsOf_nil,
            Lifetime.items, List.append_nil, said]
          exact holdsNow.queue
        · simp only [Event.entries, destroys, lasts, Bool.false_eq_true,
            if_false]
          refine .single ⟨?_, sameFound.symm⟩
          rw [((lawful.finds keeps).2 _ _).mpr member]
          simp
  have destructor : message.destructor = true := by simpa using lasts
  have notDisplay : object.interface ≠ wlDisplay := by
    intro isDisplay
    rw [isDisplay] at described
    exact lasts (wlDisplay_event described)
  have cancels := lawful.cancels keepsChecked member notDisplay
  rw [destructor] at destroys
  by_cases isClient : handle.id < serverIdStart
  · rw [if_pos isClient] at cancels
    simp only [destructor, isClient, and_self, if_true, Bool.not_true,
      Bool.false_eq_true, if_false]
    obtain ⟨ready, granted⟩ := @preflight_spec _ _ { outlet with state } _ _
      handle event payload (rooms 0) current
    simp only at ready granted
    generalize preflight event outlet.queue outlet.storage handle payload
      (rooms 0) = outcome at ready granted ⊢
    obtain ⟨result, storage⟩ := outcome
    cases result with
    | error cause =>
        exact ⟨_, rfl, .of_holds lawful keeps keepsChecked plain rfl ready, rfl⟩
    | ok _ =>
        obtain ⟨size, sized, affords⟩ := granted rfl
        have sent := ready.encode ready.objects event.opcode
          (UInt32.ofNat handle.id) payload (rooms 1)
        simp only at sent ⊢
        cases encoded : Codec.encode event.signature event.opcode outlet.queue
            storage (UInt32.ofNat handle.id) payload (rooms 1) with
        | mk result rest =>
            obtain ⟨queue, storageNow⟩ := rest
            rw [encoded] at sent
            cases result with
            | error cause =>
                exact ⟨_, rfl,
                  .of_holds lawful keeps keepsChecked plain sent.1 sent.2, rfl⟩
            | ok _ =>
                obtain ⟨text, framed, holdsNow, left⟩ :=
                  ready.encode_preflighted sized affords encoded
                have said : event.text handle payload = text := by
                  rw [Event.text, framed]
                  rfl
                obtain ⟨last, storageLast, deleted, holdsLast⟩ :=
                  holdsNow.encode_deleteId left isClient (rooms 2)
                simp only at deleted ⊢
                rw [deleted]
                rw [List.append_assoc] at holdsLast
                exact retire_departs lawful keeps keepsChecked member rfl
                  cancels holdsLast (by rw [said]) destroys
  · rw [if_neg isClient] at cancels
    have sent := current.encode current.objects event.opcode
      (UInt32.ofNat handle.id) payload (rooms 1)
    simp only [destructor, isClient, and_false, if_false, Bool.not_true,
      Bool.false_eq_true] at sent ⊢
    generalize Codec.encode event.signature event.opcode outlet.queue
      outlet.storage (UInt32.ofNat handle.id) payload (rooms 1) = outcome
      at sent ⊢
    obtain ⟨result, queue, storage⟩ := outcome
    cases result with
    | error cause =>
        exact ⟨_, rfl,
          .of_holds lawful keeps keepsChecked plain sent.1 sent.2, rfl⟩
    | ok _ =>
        obtain ⟨text, framed, holdsNow⟩ := sent
        have said : text = event.text handle payload ++ farewell handle := by
          rw [Event.text, framed, farewell, if_neg isClient, List.append_nil]
          rfl
        exact retire_departs lawful keeps keepsChecked member rfl cancels
          holdsNow said destroys

end Effects

end Server
end Wayring
