import Wayring.Objects.Namespace
import Wayring.Protocol
import Wayring.Server.Dispatch

/-!
# Event dispatch

Two loops over complete events.  The first gives every event to the handler,
also one for an object that the client has destroyed; the second skips these
with their descriptors.  The two agree exactly where the first meets none.
-/

namespace Wayring
namespace Client

open Server (Session Control)

/-- The namespace that events are looked up in, and the function that handles
them. -/
structure EventContext (σ : Type) where
  objects : σ → Namespace
  event : Dispatch → Wire.Message → Session σ → Except Error Control × Session σ

/-- A call of one of the loops: its result, the session after it, the bytes that
it did not consume, and the events that it gave to the handler. -/
structure Events (σ Result : Type) where
  result : Result
  session : Session σ
  rest : List UInt8
  handled : List (Dispatch × Wire.Message)

/-- What the application learns of a terminal error. -/
structure EventFailure where
  dispatched : Nat
  objectId : Option Nat
  cause : Error
  deriving DecidableEq, Repr

/-- What a turn of event dispatch answers. -/
inductive EventResult
  | dispatched (count : Nat)
  | terminal (failure : EventFailure)
  deriving DecidableEq, Repr

/-- An event is `wl_display.error`. -/
def serverError (target : Dispatch) (message : Wire.Message) : Bool :=
  target.object.interface = wlDisplay ∧ message.header.opcode = 0

section Loops

variable {σ : Type} [Native]

/-- The target of an event. -/
def EventContext.lookup
    (context : EventContext σ)
    (session : Session σ)
    (message : Wire.Message) : Except Error Dispatch :=
  (context.objects session.world).event message.header.objectId
    message.header.opcode

/-! ## Generic dispatch -/

/-- The loop over complete events.  Each round consumes at least one byte. -/
def eventsLoop
    (context : EventContext σ)
    (rooms : Nat → Nat) :
    Nat → Nat → Session σ → List UInt8 → Events σ (Except Error Nat)
  | 0, count, session, bytes =>
      { result := .ok count, session, rest := bytes, handled := [] }
  | fuel + 1, count, session, bytes =>
      match session.nextMessage bytes (rooms count) with
      | (.error cause, rest, session) =>
          { result := .error cause, session, rest, handled := [] }
      | (.ok none, rest, session) =>
          { result := .ok count, session, rest, handled := [] }
      | (.ok (some message), rest, session) =>
          match context.lookup session message with
          | .error cause =>
              { result := .error cause, session, rest, handled := [] }
          | .ok target =>
              match context.event target message session with
              | (.error cause, session) =>
                  { result := .error cause, session, rest
                    handled := [(target, message)] }
              | (.ok .stop, session) =>
                  { result := .ok (count + 1), session, rest
                    handled := [(target, message)] }
              | (.ok .continueDispatch, session) =>
                  let later := eventsLoop context rooms fuel (count + 1) session rest
                  { later with handled := (target, message) :: later.handled }

/-- Dispatch the complete events of some bytes (`dispatch.events`). -/
def events
    (context : EventContext σ)
    (session : Session σ)
    (bytes : List UInt8)
    (rooms : Nat → Nat) : Events σ (Except Error Nat) :=
  if session.actor.canDispatch then
    eventsLoop context rooms (session.actor.framer.pending + bytes.length + 1) 0
      session bytes
  else { result := .ok 0, session, rest := bytes, handled := [] }

/-! ## Core dispatch -/

/-- End a connection for a cause. -/
def terminalEvent
    (session : Session σ)
    (dispatched : Nat)
    (objectId : Option Nat)
    (cause : Error)
    (rest : List UInt8)
    (handled : List (Dispatch × Wire.Message)) : Events σ EventResult where
  result := .terminal { dispatched, objectId, cause }
  session := { session with actor := session.actor.beginClose }
  rest
  handled

/-- The loop over complete events, which counts those that it does not skip.
Each round consumes at least one byte. -/
def dispatchLoop
    (context : EventContext σ)
    (rooms : Nat → Nat) :
    Nat → Nat → Nat → Session σ → List UInt8 → Events σ EventResult
  | 0, _, count, session, bytes =>
      { result := .dispatched count, session, rest := bytes, handled := [] }
  | fuel + 1, round, count, session, bytes =>
      match session.nextMessage bytes (rooms round) with
      | (.error cause, rest, session) =>
          terminalEvent session count none cause rest []
      | (.ok none, rest, session) =>
          { result := .dispatched count, session, rest, handled := [] }
      | (.ok (some complete), rest, session) =>
          let objectId := some complete.header.objectId
          match context.lookup session complete with
          | .error cause => terminalEvent session count objectId cause rest []
          | .ok target =>
              if target.object.destroyed then
                let (result, receivedFds, fds) :=
                  session.actor.receivedFds.discard session.storage.fds
                    target.message.fdCount
                let session : Session σ :=
                  { session with
                    actor := { session.actor with receivedFds }
                    storage := { session.storage with fds } }
                match result with
                | .error cause =>
                    terminalEvent session count objectId cause rest []
                | .ok _ =>
                    dispatchLoop context rooms fuel (round + 1) count session rest
              else
                match context.event target complete session with
                | (.error cause, session) =>
                    terminalEvent session count objectId cause rest
                      [(target, complete)]
                | (.ok control, session) =>
                    if serverError target complete then
                      terminalEvent session (count + 1) objectId
                        .serverProtocolError rest [(target, complete)]
                    else if control = .stop then
                      { result := .dispatched (count + 1), session, rest
                        handled := [(target, complete)] }
                    else
                      let later :=
                        dispatchLoop context rooms fuel (round + 1) (count + 1)
                          session rest
                      { later with
                        handled := (target, complete) :: later.handled }

/-- Dispatch the complete events of some bytes (`Core.dispatchEvents`). -/
def dispatchEvents
    (context : EventContext σ)
    (session : Session σ)
    (bytes : List UInt8)
    (rooms : Nat → Nat) : Events σ EventResult :=
  if session.actor.canDispatch then
    dispatchLoop context rooms (session.actor.framer.pending + bytes.length + 1) 0
      0 session bytes
  else { result := .dispatched 0, session, rest := bytes, handled := [] }

/-! ## Agreement -/

/-- Two calls gave the same events to the handler, none for a destroyed object,
consumed the same bytes, and left the same descriptors. -/
structure Agree
    {Left Right : Type}
    (left : Events σ Left)
    (right : Events σ Right) : Prop where
  handled : left.handled = right.handled
  alive : ∀ event ∈ left.handled, event.1.object.destroyed = false
  rest : left.rest = right.rest
  receivedFds :
    left.session.actor.receivedFds = right.session.actor.receivedFds
  fds : left.session.storage.fds = right.session.storage.fds

/-- Whenever the generic loop is about to give an event to the handler, the
event has a property. -/
def MeetsWithin
    (property : Dispatch → Wire.Message → Prop)
    (context : EventContext σ)
    (rooms : Nat → Nat) :
    Nat → Nat → Session σ → List UInt8 → Prop
  | 0, _, _, _ => True
  | fuel + 1, round, session, bytes =>
      match session.nextMessage bytes (rooms round) with
      | (.error _, _, _) | (.ok none, _, _) => True
      | (.ok (some message), rest, session) =>
          match context.lookup session message with
          | .error _ => True
          | .ok target =>
              property target message ∧
                match context.event target message session with
                | (.ok .continueDispatch, session) =>
                    MeetsWithin property context rooms fuel (round + 1) session
                      rest
                | _ => True

/-- Every event of a batch has a property when its turn comes. -/
def Meets
    (property : Dispatch → Wire.Message → Prop)
    (context : EventContext σ)
    (session : Session σ)
    (bytes : List UInt8)
    (rooms : Nat → Nat) : Prop :=
  session.actor.canDispatch = true →
    MeetsWithin property context rooms
      (session.actor.framer.pending + bytes.length + 1) 0 session bytes

/-- The object of an event is not destroyed. -/
def Live (target : Dispatch) (_ : Wire.Message) : Prop :=
  target.object.destroyed = false

/-- An event is not `wl_display.error`. -/
def NoServerError (target : Dispatch) (message : Wire.Message) : Prop :=
  serverError target message = false

variable {context : EventContext σ} {rooms : Nat → Nat}
variable {session : Session σ} {bytes : List UInt8}

omit [Native] in
/-- A call that gave nothing to the handler agrees with another that did not. -/
theorem Agree.nothing
    {Left Right : Type}
    {left : Left} {right : Right}
    {after other : Session σ} {rest : List UInt8}
    (receivedFds : after.actor.receivedFds = other.actor.receivedFds)
    (storage : after.storage = other.storage) :
    Agree (Events.mk left after rest []) (Events.mk right other rest []) where
  handled := rfl
  alive := fun _ none => absurd none List.not_mem_nil
  rest := rfl
  receivedFds := receivedFds
  fds := congrArg Storage.fds storage

omit [Native] in
/-- Both ways to dispatch agree on a live event. -/
theorem Agree.single
    {Left Right : Type}
    {left : Left} {right : Right}
    {after other : Session σ} {rest : List UInt8}
    {target : Dispatch} {message : Wire.Message}
    (alive : Live target message)
    (receivedFds : after.actor.receivedFds = other.actor.receivedFds)
    (storage : after.storage = other.storage) :
    Agree (Events.mk left after rest [(target, message)])
      (Events.mk right other rest [(target, message)]) where
  handled := rfl
  alive := by
    intro event only
    rw [List.mem_singleton.mp only]
    exact alive
  rest := rfl
  receivedFds := receivedFds
  fds := congrArg Storage.fds storage

/-- Where no event is for a destroyed object, the loops go in lockstep. -/
theorem loops_agree
    {fuel count : Nat}
    (live : MeetsWithin Live context rooms fuel count session bytes)
    (noError : MeetsWithin NoServerError context rooms fuel count session bytes) :
    Agree (eventsLoop context rooms fuel count session bytes)
      (dispatchLoop context rooms fuel count count session bytes) := by
  induction fuel generalizing count session bytes with
  | zero => exact .nothing rfl rfl
  | succ fuel agree_ih =>
      rw [MeetsWithin] at live noError
      rw [eventsLoop, dispatchLoop]
      generalize session.nextMessage bytes (rooms count) = step at live noError ⊢
      obtain ⟨next, rest, after⟩ := step
      cases next with
      | error cause => exact .nothing rfl rfl
      | ok complete =>
          cases complete with
          | none => exact .nothing rfl rfl
          | some message =>
              simp only at live noError ⊢
              cases found : context.lookup after message with
              | error cause => exact .nothing rfl rfl
              | ok target =>
                  simp only [found] at live noError
                  obtain ⟨alive, liveLater⟩ := live
                  obtain ⟨notError, noErrorLater⟩ := noError
                  rw [Live] at alive
                  rw [NoServerError] at notError
                  simp only [alive, notError, Bool.false_eq_true, if_false]
                  generalize context.event target message after = turn
                    at liveLater noErrorLater ⊢
                  obtain ⟨control, handled⟩ := turn
                  cases control with
                  | error cause => exact .single alive rfl rfl
                  | ok control =>
                      cases control with
                      | stop => exact .single alive rfl rfl
                      | continueDispatch =>
                          have later := agree_ih liveLater noErrorLater
                          simp only [reduceCtorEq, if_false]
                          refine ⟨?_, ?_, later.rest, later.receivedFds, later.fds⟩
                          · exact congrArg (_ :: ·) later.handled
                          · intro event member
                            rcases List.mem_cons.mp member with rfl | member
                            · exact alive
                            · exact later.alive event member

/-- The generic loop gives every event that it reaches to the handler. -/
theorem meets_of_handled
    {property : Dispatch → Wire.Message → Prop}
    {fuel count : Nat}
    (met : ∀ event ∈ (eventsLoop context rooms fuel count session bytes).handled,
      property event.1 event.2) :
    MeetsWithin property context rooms fuel count session bytes := by
  induction fuel generalizing count session bytes with
  | zero => trivial
  | succ fuel meets_ih =>
      rw [eventsLoop] at met
      rw [MeetsWithin]
      generalize session.nextMessage bytes (rooms count) = step at met ⊢
      obtain ⟨next, rest, after⟩ := step
      cases next with
      | error cause => trivial
      | ok complete =>
          cases complete with
          | none => trivial
          | some message =>
              simp only at met ⊢
              cases found : context.lookup after message with
              | error cause => trivial
              | ok target =>
                  simp only [found] at met ⊢
                  generalize context.event target message after = turn at met ⊢
                  obtain ⟨control, handled⟩ := turn
                  cases control with
                  | error cause =>
                      exact ⟨met _ (List.mem_singleton_self _), trivial⟩
                  | ok control =>
                      cases control with
                      | stop => exact ⟨met _ (List.mem_singleton_self _), trivial⟩
                      | continueDispatch =>
                          refine ⟨met _ List.mem_cons_self, meets_ih ?_⟩
                          intro event member
                          exact met event (List.mem_cons_of_mem _ member)

/-- Before any error of the server, the two loops agree exactly where no event
is for an object that is destroyed when its turn comes. -/
theorem events_agree_iff
    (context : EventContext σ)
    (session : Session σ)
    (bytes : List UInt8)
    (rooms : Nat → Nat)
    (noError : Meets NoServerError context session bytes rooms) :
    Agree (events context session bytes rooms)
        (dispatchEvents context session bytes rooms) ↔
      Meets Live context session bytes rooms := by
  unfold events dispatchEvents
  constructor
  · intro agree isOpen
    rw [if_pos isOpen] at agree
    exact meets_of_handled agree.alive
  · intro live
    by_cases isOpen : session.actor.canDispatch = true
    · rw [if_pos isOpen, if_pos isOpen]
      exact loops_agree (live isOpen) (noError isOpen)
    · rw [if_neg isOpen, if_neg isOpen]
      exact .nothing rfl rfl

end Loops

/-! ## Samples -/

section Samples

local instance eventsNative : Native := ⟨.little⟩

/-- An interface with one event. -/
def sampleInterface : Interface where
  name := "sample"
  version := 1
  requests := []
  events := [{ since := 1 }]

/-- A namespace with object 2, which may be destroyed. -/
def sampleObjects (destroyed : Bool) : Namespace :=
  let made := do
    let objects ← Namespace.init 2 true
    objects.insert 2 sampleInterface 1 none true
  match made with
  | .error _ => { table := { slots := [], maxEntries := 0 } }
  | .ok (_, objects) => if destroyed then objects.markDestroyed 2 else objects

/-- A handler that goes on. -/
def sampleContext (destroyed : Bool) : EventContext Unit where
  objects _ := sampleObjects destroyed
  event _ _ session := (.ok .continueDispatch, session)

/-- A session that has received nothing. -/
def sampleSession : Session Unit where
  actor := Actor.initSharedFragments 0 1 0 64 0
  storage := { blocks := { blockSize := 64 }, fds := {} }
  fragmentBlocks := { blockSize := 64 }
  world := ()

/-- An event of object 2, with its header only. -/
def sampleEvent : List UInt8 := [2, 0, 0, 0, 0, 0, 8, 0]

theorem sampleEvent_noServerError (destroyed : Bool) :
    Meets NoServerError (sampleContext destroyed) sampleSession sampleEvent
      fun _ => 0 := by
  intro _
  apply meets_of_handled
  simp only [NoServerError]
  cases destroyed with
  | false => decide +kernel
  | true => decide +kernel

/-- A namespace in which object 2 is live and object 3 is destroyed. -/
def mixedObjects : Namespace :=
  match (sampleObjects false).insert 3 sampleInterface 1 none true with
  | .error _ => { table := { slots := [], maxEntries := 0 } }
  | .ok (_, objects) => objects.markDestroyed 3

/-- A handler that takes a descriptor with every event. -/
def takingContext : EventContext Unit where
  objects _ := mixedObjects
  event _ _ session :=
    match session.actor.receivedFds.pop session.storage.fds with
    | (taken, receivedFds, fds) =>
        (taken.map fun _ => .continueDispatch,
          { session with
            actor := { session.actor with receivedFds }
            storage := { session.storage with fds } })

/-- A connection that has received three descriptors. -/
def receivedSession : Session Unit :=
  let fds := ((SharedFds.init 4 4).toOption).getD {}
  match FdQueue.appendAll [7, 8, 9] (FdQueue.init 4) fds with
  | (_, receivedFds, fds) =>
      { sampleSession with
        actor := { sampleSession.actor with receivedFds }
        storage := { sampleSession.storage with fds } }

/-- Two events of object 2, and the beginning of one of object 3. -/
def mixedEvents : List UInt8 := sampleEvent ++ sampleEvent ++ [3, 0, 0, 0]

/-- The loops agree on events of an object that is not destroyed, whose
descriptors the handler takes.  Another one of the namespace is destroyed, and
the last event is not complete. -/
theorem events_agree_sample :
    let left := events takingContext receivedSession mixedEvents fun _ => 0
    let right :=
      dispatchEvents takingContext receivedSession mixedEvents fun _ => 0
    Agree left right ∧ left.handled.length = 2 ∧
      left.session.actor.receivedFds.count = 1 ∧
      mixedObjects.get 3 = none := by
  intro left right
  have noError : Meets NoServerError takingContext receivedSession mixedEvents
      fun _ => 0 := by
    intro _
    apply meets_of_handled
    simp only [NoServerError]
    decide +kernel
  refine ⟨(events_agree_iff _ _ _ _ noError).mpr ?_, by decide +kernel,
    by decide +kernel, by decide +kernel⟩
  intro _
  apply meets_of_handled
  simp only [Live]
  decide +kernel

/-- An event of an object that is destroyed goes to the handler of one loop
only. -/
theorem events_disagree :
    Meets NoServerError (sampleContext true) sampleSession sampleEvent
        (fun _ => 0) ∧
      (events (sampleContext true) sampleSession sampleEvent
        fun _ => 0).handled.length = 1 ∧
      (dispatchEvents (sampleContext true) sampleSession sampleEvent
        fun _ => 0).handled.length = 0 ∧
      ¬ Agree
        (events (sampleContext true) sampleSession sampleEvent fun _ => 0)
        (dispatchEvents (sampleContext true) sampleSession sampleEvent
          fun _ => 0) := by
  have once : (events (sampleContext true) sampleSession sampleEvent
      fun _ => 0).handled.length = 1 := by
    decide +kernel
  have never : (dispatchEvents (sampleContext true) sampleSession sampleEvent
      fun _ => 0).handled.length = 0 := by
    decide +kernel
  refine ⟨sampleEvent_noServerError true, once, never, ?_⟩
  intro agree
  rw [agree.handled, never] at once
  exact absurd once (by decide)

end Samples
end Client
end Wayring
