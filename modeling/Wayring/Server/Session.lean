import Wayring.Connection.Effects
import Wayring.Transport.Framing

/-!
# Sessions

What a request handler works on, and what it may do there: put events on the
connection's queue while the connection is open, take descriptors, and end the
connection.
-/

namespace Wayring

/-- The bytes of an event of the display. -/
def DisplayEvent.frame
    [Native]
    (event : DisplayEvent) : Except Error (List UInt8) :=
  Codec.message event.signature event.opcode (UInt32.ofNat displayId)
    event.payload

namespace Server

/-- A connection, the pools that it shares with others, and the rest of the
server. -/
structure Session (σ : Type) where
  actor : Actor
  storage : Storage
  fragmentBlocks : SharedBlocks
  world : σ

/-- The message that a call put on the queue, if it did. -/
def queuedBy
    (result : Except Error Unit)
    (message : Except Error (List UInt8)) : List (List UInt8) :=
  match result, message with
  | .ok _, .ok bytes => [bytes]
  | _, _ => []

variable {σ : Type}

namespace Session

/-- The connection has some bytes queued, and its queues are on entries of their
own. -/
structure Holds (session : Session σ) (queued : List UInt8) : Prop where
  wellFormed : session.storage.WellFormed
  queues : ∃ fds chain fdChain items taken,
    session.actor.transmit.Stores session.storage queued fds chain fdChain ∧
      session.actor.receivedFds.Stores session.storage.fds items taken ∧
      ∀ index ∈ taken, index ∉ fdChain

variable {session next : Session σ} {queued : List UInt8}

/-- Dispatch goes on while a connection is open. -/
theorem open_iff :
    session.actor.canDispatch = true ↔ session.actor.state.phase = .open := by
  unfold Actor.canDispatch
  exact decide_eq_true_iff

/-- A step on the connection's queue. -/
theorem Holds.transmit
    {transmit : Tx.Queue} {after : Storage} {bytes : List UInt8}
    {state : State}
    (holds : session.Holds queued)
    (step : ∀ fds chain fdChain,
      session.actor.transmit.Stores session.storage queued fds chain fdChain →
      ∃ fdsNow chainNow fdChainNow,
        transmit.Stores after bytes fdsNow chainNow fdChainNow ∧
        Storage.Step session.storage after chain chainNow fdChain fdChainNow) :
    Holds { session with
      actor := { session.actor with transmit, state }
      storage := after } bytes := by
  obtain ⟨fds, chain, fdChain, items, taken, stores, received, apart⟩ :=
    holds.queues
  obtain ⟨fdsNow, chainNow, fdChainNow, storesNow, step⟩ :=
    step fds chain fdChain stores
  refine ⟨step.wellFormed, fdsNow, chainNow, fdChainNow, items, taken, storesNow,
    received.frame step.fds apart, fun index member other => ?_⟩
  rcases step.fds.moves.fresh index other with own | free
  · exact apart index member own
  · obtain ⟨cell, found, _⟩ := received.holds.used member
    rw [free] at found
    cases found

/-- A step on the received descriptors. -/
theorem Holds.received
    {receivedFds : FdQueue} {fdsNow : SharedFds}
    (holds : session.Holds queued)
    (step : ∀ items taken,
      session.actor.receivedFds.Stores session.storage.fds items taken →
      ∃ itemsNow takenNow,
        receivedFds.Stores fdsNow itemsNow takenNow ∧
        FdQueue.Step session.storage.fds fdsNow taken takenNow) :
    Holds { session with
      actor := { session.actor with receivedFds }
      storage := { session.storage with fds := fdsNow } } queued := by
  obtain ⟨fds, chain, fdChain, items, taken, stores, received, apart⟩ :=
    holds.queues
  obtain ⟨itemsNow, takenNow, receivedNow, step⟩ := step items taken received
  refine ⟨⟨holds.wellFormed.blocks, step.wellFormed⟩, fds, chain, fdChain,
    itemsNow, takenNow, ?_, receivedNow, fun index member other => ?_⟩
  · exact
      { stores with
        descriptors := stores.descriptors.frame step
          fun index member other => apart index other member }
  · rcases step.moves.fresh index member with own | free
    · exact apart index own other
    · obtain ⟨cell, found, _⟩ := stores.descriptors.holds.used other
      rw [free] at found
      cases found

/-- Only the rest of the session changes. -/
theorem Holds.congr
    (holds : session.Holds queued)
    (transmit : next.actor.transmit = session.actor.transmit)
    (receivedFds : next.actor.receivedFds = session.actor.receivedFds)
    (storage : next.storage = session.storage) : next.Holds queued := by
  obtain ⟨wellFormed, queues⟩ := holds
  constructor
  · rw [storage]
    exact wellFormed
  · rw [transmit, receivedFds, storage]
    exact queues

/-- Room for output is asked for. -/
theorem Holds.ensureCapacity
    (holds : session.Holds queued)
    (byteCount descriptorCount : Nat) (room : Tx.Room) :
    Holds { session with
      storage := (session.actor.transmit.ensureCapacity session.storage
        byteCount descriptorCount room).2 } queued := by
  refine holds.transmit fun fds chain fdChain stores => ?_
  obtain ⟨step, storesNow, _⟩ :=
    @Tx.Queue.ensureCapacity_spec _ _ _ _ _ _ byteCount descriptorCount room
      stores holds.wellFormed
  exact ⟨fds, chain, fdChain, storesNow, step⟩

/-- A received descriptor is taken, if there is one. -/
theorem Holds.takeFd
    {result : Except Error Fd} {receivedFds : FdQueue} {fds : SharedFds}
    (holds : session.Holds queued)
    (popped : session.actor.receivedFds.pop session.storage.fds =
      (result, receivedFds, fds)) :
    Holds { session with
      actor := { session.actor with receivedFds }
      storage := { session.storage with fds } } queued := by
  refine holds.received fun items taken stores => ?_
  cases items with
  | nil =>
      rw [FdQueue.pop_empty stores] at popped
      cases popped
      exact ⟨[], taken, stores, .refl holds.wellFormed.fds taken⟩
  | cons fd items =>
      obtain ⟨receivedNow, after, isPopped, storesNow, step, _⟩ :=
        FdQueue.pop_spec stores holds.wellFormed.fds
      rw [isPopped] at popped
      cases popped
      exact ⟨items, taken.tail, storesNow, step⟩

/-- Others use the pools. -/
theorem Holds.others
    {storage : Storage} {fragmentBlocks : SharedBlocks}
    (holds : session.Holds queued)
    (wellFormed : storage.WellFormed)
    (queue : ∀ bytes fds chain fdChain,
      session.actor.transmit.Stores session.storage bytes fds chain fdChain →
        session.actor.transmit.Stores storage bytes fds chain fdChain)
    (fds : ∀ items chain,
      session.actor.receivedFds.Stores session.storage.fds items chain →
        session.actor.receivedFds.Stores storage.fds items chain) :
    Holds { session with storage, fragmentBlocks } queued := by
  obtain ⟨_, fdsHeld, chain, fdChain, items, taken, stores, received, apart⟩ :=
    holds
  exact ⟨wellFormed, fdsHeld, chain, fdChain, items, taken,
    queue _ _ _ _ stores, fds _ _ received, apart⟩

end Session

variable [Native]

/-- One thing that a handler does with a session, and the messages that it puts
on the queue as output. -/
inductive Effect : Session σ → List (List UInt8) → Session σ → Prop
  /-- The rest of the server changes. -/
  | change (session : Session σ) (world : σ) :
      Effect session [] { session with world }
  /-- Room for output is asked for. -/
  | ensureCapacity
      (session : Session σ) (byteCount descriptorCount : Nat) (room : Tx.Room) :
      Effect session []
        { session with
          storage := (session.actor.transmit.ensureCapacity session.storage
            byteCount descriptorCount room).2 }
  | enqueue
      (session : Session σ)
      {bytes : List UInt8} {descriptors : List Fd} {room : Tx.Room}
      {result : Except Error Unit} {actor : Actor} {storage : Storage}
      (enqueued : session.actor.enqueue session.storage bytes descriptors room =
        (result, actor, storage)) :
      Effect session (queuedBy result (.ok bytes))
        { session with actor, storage }
  /-- An event is encoded. -/
  | encode
      (session : Session σ) (isOpen : session.actor.canDispatch = true)
      {signature : Codec.Signature} {opcode : Nat} {objectId : UInt32}
      {payload : Codec.Payload signature} {room : Tx.Room}
      {result : Except Error Unit} {transmit : Tx.Queue} {storage : Storage}
      (encoded : Codec.encode signature opcode session.actor.transmit
        session.storage objectId payload room = (result, transmit, storage)) :
      Effect session
        (queuedBy result (Codec.message signature opcode objectId payload))
        { session with actor := { session.actor with transmit }, storage }
  | takeFd
      (session : Session σ)
      {result : Except Error Fd} {receivedFds : FdQueue} {fds : SharedFds}
      (popped : session.actor.receivedFds.pop session.storage.fds =
        (result, receivedFds, fds)) :
      Effect session []
        { session with
          actor := { session.actor with receivedFds }
          storage := { session.storage with fds } }
  | postError
      (session : Session σ)
      {objectId code : UInt32} {message : List UInt8} {room : Tx.Room}
      {result : Except Error Unit} {actor : Actor} {storage : Storage}
      (posted : session.actor.postError session.storage objectId code message
        room = (result, actor, storage)) :
      Effect session [] { session with actor, storage }
  | beginClose (session : Session σ) :
      Effect session [] { session with actor := session.actor.beginClose }
  /-- Other connections use the pools. -/
  | others
      (session : Session σ) (storage : Storage) (fragmentBlocks : SharedBlocks)
      (wellFormed : storage.WellFormed)
      (queue : ∀ bytes fds chain fdChain,
        session.actor.transmit.Stores session.storage bytes fds chain fdChain →
          session.actor.transmit.Stores storage bytes fds chain fdChain)
      (fds : ∀ items chain,
        session.actor.receivedFds.Stores session.storage.fds items chain →
          session.actor.receivedFds.Stores storage.fds items chain)
      (fragment : ∀ bytes,
        session.actor.framer.Ready session.fragmentBlocks bytes →
          session.actor.framer.Ready fragmentBlocks bytes) :
      Effect session [] { session with storage, fragmentBlocks }

/-- Any number of effects, and all their output. -/
inductive Effects : Session σ → List (List UInt8) → Session σ → Prop
  | done (session : Session σ) : Effects session [] session
  | act
      {session middle last : Session σ} {output more : List (List UInt8)}
      (effect : Effect session output middle)
      (effects : Effects middle more last) :
      Effects session (output ++ more) last

namespace Session

/-- A connection that ended with some output: it drains one complete terminal
error behind its output, or closes. -/
inductive Ended (session : Session σ) (output : List UInt8) : Prop
  | draining
      {objectId code : UInt32} {message frame : List UInt8}
      (lifecycle : session.actor.lifecycle = .draining)
      (isFrame : (DisplayEvent.error objectId code message).frame = .ok frame)
      (holds : session.Holds (output ++ frame))
  | closing
      (lifecycle : session.actor.lifecycle = .closing)
      (holds : session.Holds output)
  | drained
      {objectId code : UInt32} {message frame : List UInt8}
      (lifecycle : session.actor.lifecycle = .closing)
      (isFrame : (DisplayEvent.error objectId code message).frame = .ok frame)
      (holds : session.Holds (output ++ frame))

variable {session next : Session σ} {queued : List UInt8}

/-- A session that ended dispatches nothing. -/
theorem Ended.notOpen
    (ended : session.Ended queued) : session.actor.canDispatch = false := by
  apply Bool.eq_false_iff.mpr
  intro isOpen
  have phase := open_iff.mp isOpen
  have lifecycle : session.actor.lifecycle = .open := by
    rw [Actor.lifecycle, State.lifecycle, phase]
    rfl
  cases ended with
  | draining draining _ _ => rw [lifecycle] at draining; cases draining
  | closing closing _ => rw [lifecycle] at closing; cases closing
  | drained closing _ _ => rw [lifecycle] at closing; cases closing

/-- An ended connection that goes on holding its queue stays ended. -/
theorem Ended.keep
    (ended : session.Ended queued)
    (lifecycle : next.actor.lifecycle = session.actor.lifecycle ∨
      next.actor.lifecycle = .closing)
    (holds : ∀ bytes, session.Holds bytes → next.Holds bytes) :
    next.Ended queued := by
  cases ended with
  | draining draining isFrame before =>
      rcases lifecycle with same | closing
      · exact .draining (same.trans draining) isFrame (holds _ before)
      · exact .drained closing isFrame (holds _ before)
  | closing closing before =>
      refine .closing ?_ (holds _ before)
      rcases lifecycle with same | now
      · exact same.trans closing
      · exact now
  | drained closing isFrame before =>
      refine .drained ?_ isFrame (holds _ before)
      rcases lifecycle with same | now
      · exact same.trans closing
      · exact now

end Session

/-! ## Output -/

/-- A message is put on the queue as a whole, or not at all. -/
theorem encode_holds
    {session : Session σ} {queued : List UInt8}
    {signature : Codec.Signature} {opcode : Nat} {objectId : UInt32}
    {payload : Codec.Payload signature} {room : Tx.Room}
    {result : Except Error Unit} {transmit : Tx.Queue} {storage : Storage}
    (holds : session.Holds queued)
    (encoded : Codec.encode signature opcode session.actor.transmit
      session.storage objectId payload room = (result, transmit, storage))
    (state : State) :
    let message := Codec.message signature opcode objectId payload
    (result = .ok () → ∃ bytes, message = .ok bytes) ∧
      Session.Holds { session with
        actor := { session.actor with transmit, state }
        storage } (queued ++ (queuedBy result message).flatten) := by
  intro message
  have spec : ∀ fds chain fdChain,
      session.actor.transmit.Stores session.storage queued fds chain fdChain →
      (result = .ok () → ∃ bytes, message = .ok bytes) ∧
      ∃ fdsNow chainNow fdChainNow,
        transmit.Stores storage
          (queued ++ (queuedBy result message).flatten) fdsNow chainNow
          fdChainNow ∧
        Storage.Step session.storage storage chain chainNow fdChain
          fdChainNow := by
    intro fds chain fdChain stores
    have spec := @Codec.encode_spec _ _ _ _ _ _ _ signature opcode objectId
      payload room stores holds.wellFormed
    rw [encoded] at spec
    cases result with
    | error cause =>
        obtain ⟨rfl, storesNow, step⟩ := spec
        refine ⟨(fun ok => nomatch ok), fds, chain, fdChain, ?_, step⟩
        rw [show queuedBy (.error cause) message = [] from rfl,
          List.flatten_nil, List.append_nil]
        exact storesNow
    | ok _ =>
        obtain ⟨size, header, more, fdChainNow, sized, headed, _, enqueued⟩ :=
          spec
        have isMessage : message =
            .ok (Codec.frame signature header payload) := by
          simp only [message, Codec.message, sized, bind, Except.bind, headed]
        refine ⟨fun _ => ⟨_, isMessage⟩, fds ++ Codec.Payload.fds signature payload,
          chain ++ more, fdChainNow, ?_, enqueued.step⟩
        rw [isMessage]
        simp only [queuedBy, List.flatten_cons, List.flatten_nil,
          List.append_nil]
        exact enqueued.stores
  refine ⟨?_, holds.transmit fun fds chain fdChain stores =>
    (spec fds chain fdChain stores).2⟩
  obtain ⟨fds, chain, fdChain, _, _, stores, _⟩ := holds.queues
  exact (spec fds chain fdChain stores).1

/-- The terminal error is behind the output, or the connection closes. -/
theorem postError_ended
    {session : Session σ} {queued : List UInt8}
    {objectId code : UInt32} {message : List UInt8} {room : Tx.Room}
    {result : Except Error Unit} {actor : Actor} {storage : Storage}
    (isOpen : session.actor.canDispatch = true)
    (holds : session.Holds queued)
    (posted : session.actor.postError session.storage objectId code message
      room = (result, actor, storage)) :
    Session.Ended { session with actor, storage } queued ∧
      (result = .ok () → actor.lifecycle = .draining) := by
  have phase := Session.open_iff.mp isOpen
  have state := @Actor.postError_state session.actor session.storage _ objectId
    code message room
  have queue := @Actor.postError_transmit session.actor session.storage _
    objectId code message room
  rw [posted] at state queue
  simp only [phase, if_true] at state queue
  obtain ⟨transmit, phaseNow, rfl, phaseEq⟩ := state
  generalize encoded : (DisplayEvent.error objectId code message).encode
    session.actor.transmit session.storage room = outcome at queue
  obtain ⟨encodedResult, _, _⟩ := outcome
  cases queue
  obtain ⟨isMessage, holdsNow⟩ := encode_holds holds encoded
    { session.actor.state with phase := phaseNow }
  have agree : result = .ok () → encodedResult = .ok () := by
    intro ok
    rw [ok] at posted
    cases encodedResult with
    | ok _ => rfl
    | error cause =>
        simp only [Actor.postError, Actor.beginProtocolError, Actor.advance,
          State.step, phase, ne_eq, not_true, if_false, Except.map,
          encoded] at posted
        cases posted
  by_cases success : result = .ok ()
  · rw [if_pos success] at phaseEq
    obtain ⟨frame, isFrame⟩ := isMessage (agree success)
    refine ⟨.draining (by rw [phaseEq]; rfl) isFrame ?_,
      fun _ => by rw [phaseEq]; rfl⟩
    rw [agree success] at holdsNow
    simp only [isFrame, queuedBy, List.flatten_cons, List.flatten_nil,
      List.append_nil] at holdsNow
    exact holdsNow
  · rw [if_neg success] at phaseEq
    refine ⟨?_, fun ok => absurd ok success⟩
    have closing : (phaseNow : Phase).lifecycle = .closing := by
      rw [phaseEq]
      rfl
    cases encodedResult with
    | error cause =>
        simp only [queuedBy, List.flatten_nil, List.append_nil] at holdsNow
        exact .closing closing holdsNow
    | ok _ =>
        obtain ⟨frame, isFrame⟩ := isMessage rfl
        simp only [isFrame, queuedBy, List.flatten_cons, List.flatten_nil,
          List.append_nil] at holdsNow
        exact .drained closing isFrame holdsNow

/-! ## Effects -/

variable {session next : Session σ} {output : List (List UInt8)}
  {queued : List UInt8}

/-- No effect touches the fragment of a message. -/
theorem Effect.fragment
    (effect : Effect session output next) :
    next.actor.framer = session.actor.framer ∧
      ∀ bytes, session.actor.framer.Ready session.fragmentBlocks bytes →
        session.actor.framer.Ready next.fragmentBlocks bytes := by
  cases effect with
  | @enqueue bytes descriptors room _ _ _ enqueued =>
      have same := @Actor.enqueue_same session.actor session.storage bytes
        descriptors room
      rw [enqueued] at same
      exact ⟨same.framer, fun _ ready => ready⟩
  | @postError objectId code message room _ _ _ posted =>
      have same := @Actor.postError_same session.actor session.storage _ objectId
        code message room
      rw [posted] at same
      exact ⟨same.framer, fun _ ready => ready⟩
  | others _ _ _ _ _ fragment => exact ⟨rfl, fragment⟩
  | _ => exact ⟨rfl, fun _ ready => ready⟩

/-- An effect on an open connection queues its output, or ends the
connection. -/
theorem Effect.opened
    (effect : Effect session output next)
    (isOpen : session.actor.canDispatch = true)
    (holds : session.Holds queued) :
    next.actor.canDispatch = true ∧ next.Holds (queued ++ output.flatten) ∨
      next.Ended (queued ++ output.flatten) := by
  have phase := Session.open_iff.mp isOpen
  cases effect with
  | change world =>
      rw [List.flatten_nil, List.append_nil]
      exact .inl ⟨isOpen, holds.congr rfl rfl rfl⟩
  | ensureCapacity byteCount descriptorCount room =>
      rw [List.flatten_nil, List.append_nil]
      refine .inl ⟨isOpen, holds.transmit fun fds chain fdChain stores => ?_⟩
      obtain ⟨step, storesNow, _⟩ :=
        @Tx.Queue.ensureCapacity_spec _ _ _ _ _ _ byteCount descriptorCount
          room stores holds.wellFormed
      exact ⟨fds, chain, fdChain, storesNow, step⟩
  | @enqueue bytes descriptors room result actor storage enqueued =>
      simp only [Actor.enqueue, phase, ne_eq, not_true, if_false] at enqueued
      generalize queueing : session.actor.transmit.enqueue session.storage bytes
        descriptors room = outcome at enqueued
      obtain ⟨queueResult, transmit, after⟩ := outcome
      cases enqueued
      refine .inl ⟨isOpen, holds.transmit fun fds chain fdChain stores => ?_⟩
      have spec := @Tx.Queue.enqueue_spec _ _ _ _ _ _ bytes descriptors room
        stores holds.wellFormed
      rw [queueing] at spec
      cases queueResult with
      | error cause =>
          obtain ⟨_, rfl, storesNow, step⟩ := spec
          refine ⟨fds, chain, fdChain, ?_, step⟩
          rw [show queuedBy (.error cause) (.ok bytes) = [] from rfl,
            List.flatten_nil, List.append_nil]
          exact storesNow
      | ok _ =>
          obtain ⟨more, fdChainNow, enqueued⟩ := spec
          refine ⟨fds ++ descriptors, chain ++ more, fdChainNow, ?_,
            enqueued.step⟩
          simp only [queuedBy, List.flatten_cons, List.flatten_nil,
            List.append_nil]
          exact enqueued.stores
  | encode _ encoded =>
      exact .inl ⟨isOpen, (encode_holds holds encoded _).2⟩
  | takeFd popped =>
      rw [List.flatten_nil, List.append_nil]
      refine .inl ⟨isOpen, holds.received fun items taken stores => ?_⟩
      cases items with
      | nil =>
          rw [FdQueue.pop_empty stores] at popped
          cases popped
          exact ⟨[], taken, stores, .refl holds.wellFormed.fds taken⟩
      | cons fd items =>
          obtain ⟨receivedNow, after, isPopped, storesNow, step, _⟩ :=
            FdQueue.pop_spec stores holds.wellFormed.fds
          rw [isPopped] at popped
          cases popped
          exact ⟨items, taken.tail, storesNow, step⟩
  | postError posted =>
      rw [List.flatten_nil, List.append_nil]
      exact .inr (postError_ended isOpen holds posted).1
  | beginClose =>
      rw [List.flatten_nil, List.append_nil]
      exact .inr (.closing session.actor.lifecycle_beginClose
        (holds.congr rfl rfl rfl))
  | others storage fragmentBlocks wellFormed queue fds fragment =>
      rw [List.flatten_nil, List.append_nil]
      exact .inl ⟨isOpen, holds.others wellFormed queue fds⟩

/-- A connection that has left the open phase never returns to it. -/
theorem Effect.closed
    (effect : Effect session output next)
    (closed : session.actor.canDispatch = false) :
    next.actor.canDispatch = false ∧ output = [] := by
  have phase : session.actor.state.phase ≠ .open := by
    intro isOpen
    rw [Session.open_iff.mpr isOpen] at closed
    cases closed
  cases effect with
  | enqueue enqueued =>
      simp only [Actor.enqueue, phase, ne_eq, not_false_eq_true,
        if_true] at enqueued
      cases enqueued
      exact ⟨closed, rfl⟩
  | encode isOpen _ =>
      rw [closed] at isOpen
      cases isOpen
  | @postError objectId code message room result actor storage posted =>
      have spec := @Actor.postError_state session.actor session.storage _
        objectId code message room
      rw [posted] at spec
      simp only [phase, if_false] at spec
      obtain ⟨_, phaseNow, rfl, _, _, same⟩ := spec
      refine ⟨?_, rfl⟩
      unfold Actor.canDispatch
      rw [same]
      exact closed
  | beginClose =>
      refine ⟨decide_eq_false ?_, rfl⟩
      rw [Actor.beginClose]
      revert phase
      cases session.actor.state.phase <;> simp [Phase.closed]
  | _ => exact ⟨closed, rfl⟩

/-- An ended connection stays as it ended, or closes. -/
theorem Effect.ended
    (effect : Effect session output next)
    (ended : session.Ended queued) : next.Ended queued := by
  have phase : session.actor.state.phase ≠ .open := by
    intro isOpen
    have notOpen := ended.notOpen
    rw [Session.open_iff.mpr isOpen] at notOpen
    cases notOpen
  cases effect with
  | change world =>
      exact ended.keep (.inl rfl) fun _ holds => holds.congr rfl rfl rfl
  | ensureCapacity byteCount descriptorCount room =>
      exact ended.keep (.inl rfl) fun _ holds =>
        holds.ensureCapacity byteCount descriptorCount room
  | enqueue enqueued =>
      simp only [Actor.enqueue, phase, ne_eq, not_false_eq_true,
        if_true] at enqueued
      cases enqueued
      exact ended
  | encode isOpen _ => exact absurd (Session.open_iff.mp isOpen) phase
  | takeFd popped =>
      exact ended.keep (.inl rfl) fun _ holds => holds.takeFd popped
  | @postError objectId code message room result actor storage posted =>
      have spec := @Actor.postError_transmit session.actor session.storage _
        objectId code message room
      rw [posted] at spec
      simp only [phase, if_false] at spec
      obtain ⟨rfl, rfl⟩ := spec
      exact ended
  | beginClose =>
      exact ended.keep (.inr session.actor.lifecycle_beginClose)
        fun _ holds => holds.congr rfl rfl rfl
  | others storage fragmentBlocks wellFormed queue fds fragment =>
      exact ended.keep (.inl rfl) fun _ holds =>
        holds.others wellFormed queue fds

/-- A handler leaves the framer alone. -/
theorem Effects.fragment
    (effects : Effects session output next) :
    next.actor.framer = session.actor.framer ∧
      ∀ bytes, session.actor.framer.Ready session.fragmentBlocks bytes →
        session.actor.framer.Ready next.fragmentBlocks bytes := by
  induction effects with
  | done session => exact ⟨rfl, fun _ ready => ready⟩
  | act effect _ effects_ih =>
      obtain ⟨framer, ready⟩ := effect.fragment
      obtain ⟨framerLater, readyLater⟩ := effects_ih
      rw [framer] at framerLater readyLater
      exact ⟨framerLater, fun bytes before =>
        readyLater bytes (ready bytes before)⟩

/-- Once dispatch stopped, a handler has no effect on it. -/
theorem Effects.closed
    (effects : Effects session output next)
    (closed : session.actor.canDispatch = false) :
    next.actor.canDispatch = false ∧ output = [] := by
  induction effects with
  | done session => exact ⟨closed, rfl⟩
  | act effect _ effects_ih =>
      obtain ⟨closedNow, none⟩ := effect.closed closed
      obtain ⟨closedLast, noneLater⟩ := effects_ih closedNow
      exact ⟨closedLast, by rw [none, noneLater]; rfl⟩

/-- A session that ended stays so. -/
theorem Effects.ended
    (effects : Effects session output next)
    (ended : session.Ended queued) : next.Ended queued := by
  induction effects with
  | done session => exact ended
  | act effect _ effects_ih => exact effects_ih (effect.ended ended)

/-- The effects on an open connection queue their output, or end it. -/
theorem Effects.opened
    (effects : Effects session output next)
    (isOpen : session.actor.canDispatch = true)
    (holds : session.Holds queued) :
    next.actor.canDispatch = true ∧ next.Holds (queued ++ output.flatten) ∨
      next.Ended (queued ++ output.flatten) := by
  induction effects generalizing queued with
  | done session =>
      rw [List.flatten_nil, List.append_nil]
      exact .inl ⟨isOpen, holds⟩
  | act effect effects effects_ih =>
      rw [List.flatten_append, ← List.append_assoc]
      rcases effect.opened isOpen holds with ⟨isOpenNow, holdsNow⟩ | ended
      · exact effects_ih isOpenNow holdsNow
      · rw [(effects.closed ended.notOpen).2, List.flatten_nil, List.append_nil]
        exact .inr (effects.ended ended)

end Server
end Wayring
