import Wayring.Server.Requests
import Wayring.Transport.Rights

/-!
# Streams of requests

A connection receives its byte stream in pieces of any size.  Between them it
sends, completes operations and takes descriptors in, and other connections use
the pools.
-/

namespace Wayring

/-! ## The statechart -/

/-- No step leads back to the open phase. -/
theorem State.step_closed
    {state next : State} {input : Input}
    (closed : state.phase ≠ .open)
    (steps : state.step input = .ok next) : next.phase ≠ .open := by
  cases input with
  | armReceive =>
      rw [State.step, if_pos closed] at steps
      cases steps
  | beginProtocolError =>
      rw [State.step, if_pos closed] at steps
      cases steps
  | beginClose =>
      cases steps
      revert closed
      cases state.phase <;> simp [Phase.closed]
  | sendFails =>
      cases steps
      revert closed
      cases state.phase <;> simp [Phase.closed]
  | receiveCloses =>
      simp only [State.step] at steps
      split_ifs at steps
      cases steps
      revert closed
      cases state.phase <;> simp [Phase.closed]
  | _ =>
      simp only [State.step] at steps
      split_ifs at steps
      all_goals
        cases steps
        first
          | exact closed
          | simp

namespace Actor

variable {actor next : Actor} {storage after : Storage}

/-- The statechart stays where it is, or takes a step. -/
def Turns (actor next : Actor) : Prop :=
  next.state = actor.state ∨
    ∃ input, actor.state.step input = .ok next.state

/-- A connection that stopped dispatch does not start again. -/
theorem Turns.closed
    (turns : Turns actor next)
    (closed : actor.canDispatch = false) : next.canDispatch = false := by
  have phase : actor.state.phase ≠ .open := of_decide_eq_false closed
  apply decide_eq_false
  rcases turns with same | ⟨input, steps⟩
  · rw [same]
    exact phase
  · exact State.step_closed phase steps

/-- Every input turns a connection on its way to the end. -/
theorem advance_turns
    {input : Input}
    (advances : actor.advance input = .ok next) : Turns actor next := by
  obtain ⟨state, steps, rfl⟩ := advance_eq_ok_iff.mp advances
  exact .inr ⟨input, steps⟩

theorem settle_turns
    (input : Input) (event : Except Error CompletionEvent) :
    Turns actor (actor.settle input event).2 := by
  have spec := @settle_spec actor input event
  cases steps : actor.state.step input with
  | error cause =>
      rw [steps] at spec
      rw [spec]
      exact .inl rfl
  | ok state =>
      rw [steps] at spec
      rw [spec]
      exact .inr ⟨input, steps⟩

/-- Only the state changes. -/
theorem settle_state
    (actor : Actor) (input : Input) (event : Except Error CompletionEvent) :
    ∃ state, (actor.settle input event).2 = { actor with state } := by
  have spec := @settle_spec actor input event
  cases steps : actor.state.step input with
  | error cause =>
      rw [steps] at spec
      exact ⟨actor.state, by rw [spec]⟩
  | ok state =>
      rw [steps] at spec
      exact ⟨state, by rw [spec]⟩

/-- A receive that completes changes the state alone. -/
theorem completeReceive_state (actor : Actor) (cqe : Cqe) :
    ∃ state, (actor.completeReceive cqe).2 = { actor with state } := by
  unfold completeReceive
  cases cqe.result with
  | count length => cases length <;> exact settle_state _ _ _
  | failed cause =>
      simp only
      split_ifs <;> exact settle_state _ _ _

/-- A cancellation that completes changes the state alone. -/
theorem completeCancel_state (actor : Actor) (cqe : Cqe) :
    ∃ state, (actor.completeCancel cqe).2 = { actor with state } :=
  settle_state _ _ _

/-- A failed send leaves the queue, or ends its flight. -/
theorem failSend_state (actor : Actor) (canceled : Bool) :
    ∃ transmit state,
      (actor.failSend canceled).2 = { actor with transmit, state } ∧
      (transmit = actor.transmit ∨ actor.transmit.failed = .ok transmit) := by
  unfold failSend
  cases failed : actor.transmit.failed with
  | error cause => exact ⟨actor.transmit, actor.state, rfl, .inl rfl⟩
  | ok transmit =>
      simp only
      split_ifs
      · exact ⟨transmit, actor.state, rfl, .inr rfl⟩
      · obtain ⟨state, settled⟩ := settle_state { actor with transmit }
          .sendFails (.error .ioFailure)
        exact ⟨transmit, state, settled, .inr rfl⟩

/-- A receive that completes does not restart dispatch. -/
theorem completeReceive_turns (cqe : Cqe) :
    Turns actor (actor.completeReceive cqe).2 := by
  unfold completeReceive
  cases cqe.result with
  | count length => cases length <;> exact settle_turns _ _
  | failed cause =>
      simp only
      split_ifs <;> exact settle_turns _ _

/-- A failed send does not restart dispatch. -/
theorem failSend_turns (canceled : Bool) :
    Turns actor (actor.failSend canceled).2 := by
  unfold failSend
  cases actor.transmit.failed with
  | error cause => exact .inl rfl
  | ok transmit =>
      simp only
      split_ifs
      · exact .inl rfl
      · exact settle_turns _ _

/-- A send that completes does not restart dispatch. -/
theorem completeSend_turns (storage : Storage) (cqe : Cqe) :
    Turns actor (actor.completeSend storage cqe).2.1 := by
  unfold completeSend
  cases cqe.result with
  | failed cause => exact failSend_turns _
  | count length =>
      cases length with
      | zero => exact failSend_turns _
      | succ written =>
          simp only
          generalize actor.transmit.complete storage (written + 1) = outcome
          obtain ⟨result, transmit, after⟩ := outcome
          cases result with
          | error cause => exact .inl rfl
          | ok _ =>
              simp only
              split_ifs
              · exact .inl rfl
              · exact settle_turns _ _

/-- No completion restarts dispatch. -/
theorem completeRouted_turns
    (storage : Storage) (operation : Operation) (cqe : Cqe) :
    Turns actor (actor.completeRouted storage operation cqe).2.1 := by
  cases operation with
  | receive => exact completeReceive_turns cqe
  | send => exact completeSend_turns storage cqe
  | cancel => exact settle_turns _ _
  | accept => exact .inl rfl
  | acceptCancel => exact .inl rfl

/-- A send that starts changes the queue alone. -/
theorem beginSend_spec
    {snapshot : Tx.Snapshot}
    (begins : actor.beginSend snapshot = .ok next) :
    ∃ transmit, actor.transmit.begin snapshot = .ok transmit ∧
      next = { actor with transmit } := by
  have started : ∀ result,
      (actor.transmit.begin snapshot).map
        (fun transmit => { actor with transmit }) = result →
      result = .ok next →
      ∃ transmit, actor.transmit.begin snapshot = .ok transmit ∧
        next = { actor with transmit } := by
    rintro _ rfl isNext
    cases begun : actor.transmit.begin snapshot with
    | error cause =>
        rw [begun] at isNext
        cases isNext
    | ok transmit =>
        rw [begun] at isNext
        cases isNext
        exact ⟨transmit, rfl, rfl⟩
  unfold beginSend at begins
  cases phase : actor.lifecycle with
  | protocolError =>
      rw [phase] at begins
      cases begins
  | closing =>
      rw [phase] at begins
      cases begins
  | «open» =>
      rw [phase] at begins
      exact started _ rfl begins
  | draining =>
      rw [phase] at begins
      exact started _ rfl begins

end Actor

namespace Server

section Streams

variable [Native] {σ Target : Type}

/-- What happens to a connection between the pieces of its stream. -/
inductive Between : Session σ → Session σ → Prop
  | effect
      {session next : Session σ} {output : List (List UInt8)}
      (effect : Effect session output next) : Between session next
  | armReceive
      {session : Session σ} {actor : Actor}
      (armed : session.actor.armReceive = .ok actor) :
      Between session { session with actor }
  | beginSend
      {session : Session σ} {snapshot : Tx.Snapshot} {actor : Actor}
      (begins : session.actor.beginSend snapshot = .ok actor) :
      Between session { session with actor }
  | requestCancel
      {session : Session σ} {actor : Actor}
      (requested : session.actor.requestCancel = .ok actor) :
      Between session { session with actor }
  | complete
      {session : Session σ} {operation : Operation} {cqe : Cqe}
      {result : Except Error CompletionEvent} {actor : Actor}
      {storage : Storage}
      (completed : session.actor.completeRouted session.storage operation cqe =
        (result, actor, storage)) :
      Between session { session with actor, storage }
  | ingestControl
      {session : Session σ} {control : List UInt8} {room : Nat}
      {result : Except Error Nat} {actor : Actor} {storage : Storage}
      (ingested : session.actor.ingestControl session.storage control room =
        (result, actor, storage)) :
      Between session { session with actor, storage }

/-- A connection, what it received and did not consume, and its history: all
that it received, and the requests that went to the handler. -/
structure Feed (σ : Type) where
  session : Session σ
  rest : List UInt8 := []
  received : List UInt8 := []
  handled : List Wire.Message := []

/-- Dispatch the requests of the stream's next piece. -/
def Feed.dispatch
    (context : Context σ Target)
    (feed : Feed σ)
    (piece : List UInt8)
    (rooms : Nat → Nat)
    (room : Tx.Room) : Feed σ :=
  let outcome :=
    dispatchRequests context feed.session (feed.rest ++ piece) rooms room
  { session := outcome.session
    rest := outcome.rest
    received := feed.received ++ piece
    handled := feed.handled ++ outcome.handled }

/-- The bytes of the stream that no request was made of. -/
def Feed.pending (feed : Feed σ) : List UInt8 :=
  feed.session.actor.framer.buffered ++ feed.rest

/-- The next piece of the stream is dispatched, or something else happens. -/
inductive Feed.Step (context : Context σ Target) : Feed σ → Feed σ → Prop
  | dispatch
      (feed : Feed σ) (piece : List UInt8) (rooms : Nat → Nat)
      (room : Tx.Room) :
      Feed.Step context feed (feed.dispatch context piece rooms room)
  | other
      {feed : Feed σ} {next : Session σ}
      (between : Between feed.session next) :
      Feed.Step context feed { feed with session := next }

/-! ## Between the pieces -/

section Between

variable {session next : Session σ} {queued : List UInt8}

/-- Nothing between two turns restarts dispatch. -/
theorem Between.closed
    (between : Between session next)
    (closed : session.actor.canDispatch = false) :
    next.actor.canDispatch = false := by
  cases between with
  | effect effect => exact (effect.closed closed).1
  | armReceive armed => exact (Actor.advance_turns armed).closed closed
  | beginSend begins =>
      obtain ⟨transmit, _, rfl⟩ := Actor.beginSend_spec begins
      exact closed
  | requestCancel requested => exact (Actor.advance_turns requested).closed closed
  | @complete operation cqe _ _ _ completed =>
      have turns := @Actor.completeRouted_turns session.actor session.storage
        operation cqe
      rw [completed] at turns
      exact turns.closed closed
  | ingestControl ingested =>
      unfold Actor.ingestControl at ingested
      cases ingested
      exact closed

omit [Native] in
/-- A failed send leaves the queues as they are. -/
theorem failSend_holds
    (canceled : Bool)
    (holds : session.Holds queued) :
    Session.Holds { session with actor := (session.actor.failSend canceled).2 }
      queued := by
  obtain ⟨transmit, state, after, same | failed⟩ :=
    Actor.failSend_state session.actor canceled
  · rw [after, same]
    exact holds.congr rfl rfl rfl
  · rw [after]
    exact holds.transmit fun fds chain fdChain stores => ⟨fds, chain, fdChain,
      (stores.failed_spec failed).1, .refl holds.wellFormed _ _⟩

omit [Native] in
/-- A completed send drops what was sent, or leaves the queue. -/
theorem completeSend_holds
    (cqe : Cqe)
    (holds : session.Holds queued) :
    let outcome := session.actor.completeSend session.storage cqe
    ∃ queuedNow, Session.Holds
      { session with actor := outcome.2.1, storage := outcome.2.2 }
      queuedNow := by
  cases result : cqe.result with
  | failed cause =>
      unfold Actor.completeSend
      rw [result]
      exact ⟨queued, failSend_holds _ holds⟩
  | count length =>
      cases length with
      | zero =>
          unfold Actor.completeSend
          rw [result]
          exact ⟨queued, failSend_holds _ holds⟩
      | succ written =>
          have spec := @Actor.completeSend_written session.actor cqe written
            session.storage result
          generalize completed : session.actor.transmit.complete session.storage
            (written + 1) = outcome at spec
          obtain ⟨result, transmit, after⟩ := outcome
          have kept := fun fds chain fdChain stores =>
            @Tx.Queue.complete_spec session.actor.transmit session.storage queued
              fds chain fdChain (written + 1) stores holds.wellFormed
          simp only [completed] at kept
          simp only at spec ⊢
          rw [spec]
          cases result with
          | error cause =>
              refine ⟨queued, holds.transmit fun fds chain fdChain stores => ?_⟩
              obtain ⟨_, same⟩ := kept fds chain fdChain stores
              cases same
              exact ⟨fds, chain, fdChain, stores, .refl holds.wellFormed _ _⟩
          | ok _ =>
              refine ⟨queued.drop (written + 1),
                holds.transmit fun fds chain fdChain stores => ?_⟩
              obtain ⟨_, chainNow, fdChainNow, _, _, _, _, done⟩ :=
                kept fds chain fdChain stores
              exact ⟨_, chainNow, fdChainNow, done.stores, done.step⟩

omit [Native] in
/-- A completion drops what was sent, or leaves the queue. -/
theorem completeRouted_holds
    (operation : Operation) (cqe : Cqe)
    (holds : session.Holds queued) :
    let outcome := session.actor.completeRouted session.storage operation cqe
    ∃ queuedNow, Session.Holds
      { session with actor := outcome.2.1, storage := outcome.2.2 }
      queuedNow := by
  cases operation with
  | receive =>
      obtain ⟨state, after⟩ := Actor.completeReceive_state session.actor cqe
      simp only [Actor.completeRouted, after]
      exact ⟨queued, holds.congr rfl rfl rfl⟩
  | send => exact completeSend_holds cqe holds
  | cancel =>
      obtain ⟨state, after⟩ := Actor.completeCancel_state session.actor cqe
      simp only [Actor.completeRouted, after]
      exact ⟨queued, holds.congr rfl rfl rfl⟩
  | accept => exact ⟨queued, holds⟩
  | acceptCancel => exact ⟨queued, holds⟩

/-- An open connection stays sound while it is open. -/
theorem Between.sound
    (between : Between session next)
    (isOpen : session.actor.canDispatch = true)
    (sound : session.Sound)
    (still : next.actor.canDispatch = true) :
    next.Sound ∧
      next.actor.framer.buffered = session.actor.framer.buffered := by
  obtain ⟨⟨queued, holds⟩, ready, incomplete⟩ := sound
  have key : next.actor.framer = session.actor.framer ∧
      (∀ bytes, session.actor.framer.Ready session.fragmentBlocks bytes →
        session.actor.framer.Ready next.fragmentBlocks bytes) ∧
      ∃ queuedNow, next.Holds queuedNow := by
    cases between with
    | effect effect =>
        obtain ⟨framer, keeps⟩ := effect.fragment
        refine ⟨framer, keeps, ?_⟩
        rcases effect.opened isOpen holds with ⟨_, holdsNow⟩ | ended
        · exact ⟨_, holdsNow⟩
        · rw [ended.notOpen] at still
          cases still
    | armReceive armed =>
        obtain ⟨state, _, rfl⟩ := Actor.advance_eq_ok_iff.mp armed
        exact ⟨rfl, fun _ ready => ready, queued, holds.congr rfl rfl rfl⟩
    | beginSend begins =>
        obtain ⟨transmit, begun, rfl⟩ := Actor.beginSend_spec begins
        exact ⟨rfl, fun _ ready => ready, queued, holds.transmit
          fun fds chain fdChain stores => ⟨fds, chain, fdChain,
            (stores.begin_spec begun).1, .refl holds.wellFormed _ _⟩⟩
    | requestCancel requested =>
        obtain ⟨state, _, rfl⟩ := Actor.advance_eq_ok_iff.mp requested
        exact ⟨rfl, fun _ ready => ready, queued, holds.congr rfl rfl rfl⟩
    | @complete operation cqe _ _ _ completed =>
        have same := @Actor.completeRouted_same session.actor session.storage
          operation cqe
        rw [completed] at same
        have holdsNow := completeRouted_holds operation cqe holds
        rw [completed] at holdsNow
        exact ⟨same.framer, fun _ ready => ready, holdsNow⟩
    | @ingestControl control room _ _ _ ingested =>
        simp only [Actor.ingestControl] at ingested
        generalize enqueued : Ancillary.enqueueRights control
          session.actor.receivedFds session.storage.fds room = outcome
          at ingested
        obtain ⟨result, closed, receivedFds, fds⟩ := outcome
        cases ingested
        refine ⟨rfl, fun _ ready => ready, queued, holds.received
          fun items taken stores => ?_⟩
        have spec := @Ancillary.enqueueRights_spec _ _ _ _ _ control room stores
          holds.wellFormed.fds
        rw [enqueued] at spec
        cases result with
        | error cause =>
            obtain ⟨_, rfl, storesNow, step⟩ := spec
            exact ⟨items, taken, storesNow, step⟩
        | ok count =>
            obtain ⟨takenNow, _, _, _, storesNow, step, _⟩ := spec
            exact ⟨_, takenNow, storesNow, step⟩
  obtain ⟨framer, keeps, holdsNow⟩ := key
  refine ⟨⟨holdsNow, ?_, ?_⟩, by rw [framer]⟩
  · rw [framer]
    exact keeps _ ready
  · rw [framer]
    exact incomplete

end Between

/-! ## Runs -/

/-- A session that starts with an empty connection. -/
def Session.start
    (slot generation receivedFdBudget transmitByteBudget transmitFdBudget : Nat)
    (storage : Storage)
    (fragmentBlocks : SharedBlocks)
    (world : σ) : Session σ where
  actor := Actor.initSharedFragments slot generation receivedFdBudget
    transmitByteBudget transmitFdBudget
  storage
  fragmentBlocks
  world

/-- A new session is sound. -/
theorem Session.start_sound
    (slot generation receivedFdBudget transmitByteBudget transmitFdBudget : Nat)
    {storage : Storage} {fragmentBlocks : SharedBlocks}
    (world : σ)
    (wellFormed : storage.WellFormed)
    (fragments : fragmentBlocks.WellFormed) :
    (Session.start slot generation receivedFdBudget transmitByteBudget
      transmitFdBudget storage fragmentBlocks world).Sound where
  holds := ⟨[], wellFormed, [], [], [], [], [], Tx.Queue.Stores.init _ _ _,
    FdQueue.Stores.init _ _, fun _ none => nomatch none⟩
  ready := Framer.Ready.initShared fragments
  incomplete := rfl

/-- The handler got the first requests of the stream.  While the connection is
open, the others are pending. -/
structure Feed.Sound (feed : Feed σ) : Prop where
  first : feed.handled <+: (Wire.frames feed.received).1
  going : feed.session.actor.canDispatch = true →
    feed.session.Sound ∧
      Wire.frames feed.received =
        (feed.handled ++ (Wire.frames feed.pending).1,
          (Wire.frames feed.pending).2)

section Runs

variable {handler : Handler σ Target} {feed next later : Feed σ}

/-- A stream whose first messages are known goes on. -/
theorem frames_extend
    {stream rest : List UInt8} {handled : List Wire.Message}
    (frames : Wire.frames stream =
      (handled ++ (Wire.frames rest).1, (Wire.frames rest).2))
    (piece : List UInt8) :
    Wire.frames (stream ++ piece) =
      (handled ++ (Wire.frames (rest ++ piece)).1,
        (Wire.frames (rest ++ piece)).2) := by
  rw [Wire.frames_append stream, Wire.frames_append rest, frames]
  cases (Wire.frames rest).2 with
  | error cause => rfl
  | ok tail => simp only [List.append_assoc]

/-- The messages of a stream begin those of a longer one. -/
theorem frames_begin (stream piece : List UInt8) :
    (Wire.frames stream).1 <+: (Wire.frames (stream ++ piece)).1 := by
  rw [Wire.frames_append stream]
  cases (Wire.frames stream).2 with
  | error cause => exact List.prefix_refl _
  | ok tail => exact List.prefix_append _ _

/-- A call on an open connection. -/
theorem dispatchRequests_served
    {session : Session σ}
    (isOpen : session.actor.canDispatch = true)
    (sound : session.Sound)
    (bytes : List UInt8) (rooms : Nat → Nat) (room : Tx.Room) :
    Served handler session (session.actor.framer.buffered ++ bytes) 0 rooms room
      (dispatchRequests handler.toContext session bytes rooms room) := by
  rw [dispatchRequests, if_pos isOpen]
  exact dispatchLoop_served handler rooms room _ 0 session bytes isOpen sound
    (Nat.lt_succ_self _)

/-- A call on a connection that is not open does nothing. -/
theorem Feed.dispatch_closed
    (closed : feed.session.actor.canDispatch = false)
    (context : Context σ Target)
    (piece : List UInt8) (rooms : Nat → Nat) (room : Tx.Room) :
    feed.dispatch context piece rooms room =
      { feed with
        rest := feed.rest ++ piece
        received := feed.received ++ piece } := by
  simp only [Feed.dispatch, dispatchRequests, closed, Bool.false_eq_true,
    if_false, List.append_nil]

/-- Every step keeps a feed sound. -/
theorem Feed.Sound.step
    (sound : feed.Sound)
    (step : Feed.Step handler.toContext feed next) : next.Sound := by
  cases step with
  | dispatch piece rooms room =>
      cases isOpen : feed.session.actor.canDispatch with
      | false =>
          rw [Feed.dispatch_closed isOpen]
          refine ⟨sound.first.trans (frames_begin _ _), fun open' => ?_⟩
          rw [isOpen] at open'
          cases open'
      | true =>
          obtain ⟨holding, frames⟩ := sound.going isOpen
          have served := @dispatchRequests_served _ _ _ handler _ isOpen holding
            (feed.rest ++ piece) rooms room
          rw [← List.append_assoc] at served
          have extended := frames_extend frames piece
          refine ⟨?_, fun still => ?_⟩
          · change feed.handled ++ _ <+: (Wire.frames (feed.received ++ piece)).1
            rw [extended]
            exact (List.prefix_append_right_inj _).mpr served.first
          · obtain ⟨holdingNow, rest⟩ := served.kept holding still
            refine ⟨holdingNow, ?_⟩
            change Wire.frames (feed.received ++ piece) = _
            rw [extended]
            unfold Feed.pending
            rw [rest, ← List.append_assoc]
            rfl
  | other between =>
      refine ⟨sound.first, fun still => ?_⟩
      cases isOpen : feed.session.actor.canDispatch with
      | false =>
          rw [between.closed isOpen] at still
          cases still
      | true =>
          obtain ⟨holding, frames⟩ := sound.going isOpen
          obtain ⟨holdingNow, buffered⟩ := between.sound isOpen holding still
          refine ⟨holdingNow, ?_⟩
          unfold Feed.pending at frames ⊢
          rw [buffered]
          exact frames

/-- Every run keeps a feed sound. -/
theorem Feed.Sound.run
    (sound : feed.Sound)
    (run : Relation.ReflTransGen (Feed.Step handler.toContext) feed next) :
    next.Sound := by
  induction run with
  | refl => exact sound
  | tail _ step run_ih => exact run_ih.step step

/-- Once a connection is not open, its handler gets no more requests, and no
byte of its stream is consumed. -/
theorem Feed.closed_run
    {context : Context σ Target}
    (closed : feed.session.actor.canDispatch = false)
    (run : Relation.ReflTransGen (Feed.Step context) feed later) :
    later.session.actor.canDispatch = false ∧ later.handled = feed.handled ∧
      ∃ more, later.rest = feed.rest ++ more ∧
        later.received = feed.received ++ more := by
  induction run with
  | refl => exact ⟨closed, rfl, [], by simp, by simp⟩
  | tail _ step run_ih =>
      obtain ⟨closedNow, handled, more, rest, received⟩ := run_ih
      cases step with
      | dispatch piece rooms room =>
          rw [Feed.dispatch_closed closedNow]
          exact ⟨closedNow, handled, more ++ piece, by simp [rest],
            by simp [received]⟩
      | other between =>
          exact ⟨between.closed closedNow, handled, more, rest, received⟩

end Runs

/-- However the stream of a connection is cut, and whatever happens between its
pieces, the handler gets the first requests of the stream in order.  While the
connection is open, every call goes on where the last one stopped, and ends at
the first request that the handler stops or fails on, that is invalid, or whose
fragment there is no scratch space for.  A call with a terminal result leaves
the connection draining, with one complete error behind its output, or closing
with no part of an error.  A connection that is not open consumes nothing. -/
theorem requests_are_dispatched_in_order
    (handler : Handler σ Target)
    (slot generation receivedFdBudget transmitByteBudget transmitFdBudget : Nat)
    (storage : Storage) (fragmentBlocks : SharedBlocks) (world : σ)
    (wellFormed : storage.WellFormed)
    (fragments : fragmentBlocks.WellFormed)
    (feed : Feed σ)
    (run : Relation.ReflTransGen (Feed.Step handler.toContext)
      { session := .start slot generation receivedFdBudget transmitByteBudget
          transmitFdBudget storage fragmentBlocks world } feed) :
    feed.handled <+: (Wire.frames feed.received).1 ∧
      (feed.session.actor.canDispatch = true →
        (∃ queued, feed.session.Holds queued) ∧
        ∀ piece rooms room,
          Wire.frames (feed.received ++ piece) =
            (feed.handled ++ (Wire.frames (feed.pending ++ piece)).1,
              (Wire.frames (feed.pending ++ piece)).2) ∧
          Served handler feed.session (feed.pending ++ piece) 0 rooms room
            (dispatchRequests handler.toContext feed.session
              (feed.rest ++ piece) rooms room)) ∧
      (feed.session.actor.canDispatch = false →
        ∀ later, Relation.ReflTransGen (Feed.Step handler.toContext) feed later →
          later.session.actor.canDispatch = false ∧
          later.handled = feed.handled ∧
          ∃ more, later.rest = feed.rest ++ more ∧
            later.received = feed.received ++ more) := by
  have start : Feed.Sound
      { session := .start slot generation receivedFdBudget transmitByteBudget
          transmitFdBudget storage fragmentBlocks world } :=
    ⟨List.nil_prefix, fun _ => ⟨Session.start_sound slot generation
      receivedFdBudget transmitByteBudget transmitFdBudget world wellFormed
      fragments, rfl⟩⟩
  have sound := start.run run
  refine ⟨sound.first, fun isOpen => ?_, fun closed later run =>
    Feed.closed_run closed run⟩
  obtain ⟨holding, frames⟩ := sound.going isOpen
  refine ⟨holding.holds, fun piece rooms room =>
    ⟨frames_extend frames piece, ?_⟩⟩
  have served := @dispatchRequests_served _ _ _ handler _ isOpen holding
    (feed.rest ++ piece) rooms room
  rw [← List.append_assoc] at served
  exact served

end Streams

/-! ## Small streams -/

section Sample

local instance bigEndian : Native := ⟨.big⟩

/-- One block of a size. -/
def sampleBlocks (blockSize : Nat) : SharedBlocks :=
  ((SharedBlocks.init blockSize 1 1).toOption).getD { blockSize }

/-- Room for one descriptor. -/
def sampleFds : SharedFds :=
  ((SharedFds.init 1 1).toOption).getD {}

/-- A connection whose fragments have blocks of some size. -/
def sampleSession (blockSize : Nat) : Session Unit :=
  .start 0 1 0 64 0 { blocks := sampleBlocks 64, fds := sampleFds }
    (sampleBlocks blockSize) ()

/-- All requests of one object are taken. -/
def sampleHandler : Handler Unit Unit where
  lookup _ objectId _ :=
    if objectId = 4 then .ok () else .error .unknownObject
  request _ _ session :=
    (if session.actor.canDispatch then .ok .continueDispatch else .ok .stop,
      session)
  acts _ _ session := ⟨[], .done session⟩
  continues _ _ session goesOn := by
    cases isOpen : session.actor.canDispatch with
    | true => rfl
    | false => simp [isOpen] at goesOn

/-- The header of a message of 68 bytes. -/
def longHeader : List UInt8 := [0, 0, 0, 4, 0, 68, 0, 0]

/-- The rest of a long message, and a message of an object that does not
exist. -/
def lastPiece : List UInt8 :=
  List.replicate 60 0 ++ [0, 0, 0, 5, 0, 8, 0, 0]

/-- The handler of a long message has seen nothing after its header.  Then the
rest of the message goes to it, and the message behind ends the connection: a
later piece is not consumed. -/
theorem requests_are_dispatched_in_order_sample :
    let none : Tx.Room := { blocks := 0, fds := 0 }
    let feed := Feed.dispatch sampleHandler.toContext
      { session := sampleSession 256 } longHeader (fun _ => 1) none
    let last := feed.dispatch sampleHandler.toContext lastPiece (fun _ => 1) none
    let later := last.dispatch sampleHandler.toContext longHeader (fun _ => 1) none
    (feed.handled <+: (Wire.frames longHeader).1 ∧
      Wire.frames (longHeader ++ lastPiece) =
        (feed.handled ++ (Wire.frames (feed.pending ++ lastPiece)).1,
          (Wire.frames (feed.pending ++ lastPiece)).2) ∧
      Served sampleHandler feed.session (feed.pending ++ lastPiece) 0
        (fun _ => 1) none
        (dispatchRequests sampleHandler.toContext feed.session
          (feed.rest ++ lastPiece) (fun _ => 1) none)) ∧
    last.handled.map (fun message => message.header) =
      [{ objectId := 4, opcode := 0, size := 68 }] ∧
    later.session.actor.canDispatch = false ∧
    later.handled = last.handled ∧
    ∃ more, later.rest = last.rest ++ more ∧
      later.received = last.received ++ more := by
  intro none feed last later
  have ran := requests_are_dispatched_in_order sampleHandler 0 1 0 64 0
    { blocks := sampleBlocks 64, fds := sampleFds } (sampleBlocks 256) ()
    ⟨(@SharedBlocks.init_spec (sampleBlocks 64) 64 1 1 rfl).1,
      @SharedFds.init_spec 1 1 sampleFds rfl⟩
    (@SharedBlocks.init_spec (sampleBlocks 256) 256 1 1 rfl).1
  have step : Relation.ReflTransGen (Feed.Step sampleHandler.toContext)
      { session := sampleSession 256 } feed :=
    .single (.dispatch _ longHeader (fun _ => 1) none)
  have steps := step.tail (.dispatch feed lastPiece (fun _ => 1) none)
  obtain ⟨first, going, _⟩ := ran feed step
  obtain ⟨_, _, closed⟩ := ran last steps
  obtain ⟨frames, served⟩ :=
    (going (by decide +kernel)).2 lastPiece (fun _ => 1) none
  exact ⟨⟨first, frames, served⟩, by decide +kernel,
    closed (by decide +kernel) later
      (.single (.dispatch last longHeader (fun _ => 1) none))⟩

/-- A handler that posts an error itself, queues one more event behind it, and
fails. -/
def lateContext : Context Unit Unit where
  lookup _ _ _ := .ok ()
  request _ _ session :=
    let (_, actor, storage) := session.actor.postError session.storage 4 0 []
      { blocks := 0, fds := 0 }
    let (_, transmit, storage) := (DisplayEvent.deleteId 4).encode
      actor.transmit storage { blocks := 0, fds := 0 }
    (.error .unexpectedEnd,
      { session with actor := { actor with transmit }, storage })

/-- What the first blocks of a queue hold. -/
def queuedBytes (session : Session Unit) : Except Error (List UInt8) :=
  (session.actor.transmit.snapshot session.storage 0 0).map fun snapshot =>
    snapshot.read session.storage.blocks

/-- A complete request of a known object does not reach the handler if it comes
in two pieces and is longer than a fragment's block.  And an event that is
queued directly is behind the terminal error. -/
theorem requests_dispatched_otherwise :
    (let first := dispatchRequests sampleHandler.toContext (sampleSession 4)
        longHeader (fun _ => 1) { blocks := 1, fds := 0 }
      let second := dispatchRequests sampleHandler.toContext first.session
        (first.rest ++ List.replicate 60 0) (fun _ => 1) { blocks := 1, fds := 0 }
      (Wire.frames (longHeader ++ List.replicate 60 0)).1.map
          (fun message => message.header) =
        [{ objectId := 4, opcode := 0, size := 68 }] ∧
      first.result = .terminal
        { dispatched := 0, objectId := none, cause := .messageTooLarge
          errorQueued := true } ∧
      first.handled = [] ∧ second.handled = []) ∧
      (let outcome := dispatchRequests lateContext (sampleSession 4)
        [0, 0, 0, 4, 0, 8, 0, 0] (fun _ => 1) { blocks := 1, fds := 0 }
      outcome.result = .terminal
        { dispatched := 0, objectId := some 4, cause := .unexpectedEnd
          errorQueued := true } ∧
      outcome.session.actor.lifecycle = .draining ∧
      (DisplayEvent.error 4 0 []).frame = .ok
        [0, 0, 0, 1, 0, 24, 0, 0, 0, 0, 0, 4, 0, 0, 0, 0, 0, 0, 0, 1, 0, 0, 0,
          0] ∧
      queuedBytes outcome.session = .ok
        [0, 0, 0, 1, 0, 24, 0, 0, 0, 0, 0, 4, 0, 0, 0, 0, 0, 0, 0, 1, 0, 0, 0, 0,
          0, 0, 0, 1, 0, 12, 0, 1, 0, 0, 0, 4]) := by
  decide +kernel

end Sample

end Server
end Wayring
