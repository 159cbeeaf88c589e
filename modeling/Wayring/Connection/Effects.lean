import Wayring.Connection.ProtocolError

/-!
# Effects on an actor

What each operation may change.  The identity of an actor never changes, and
the flags change only with the kernel operations they stand for.
-/

namespace Wayring
namespace Actor

variable {actor next : Actor} {storage : Storage} {cqe : Cqe}

/-- The same connection. -/
structure Same (actor next : Actor) : Prop where
  slot : next.slot = actor.slot
  generation : next.generation = actor.generation
  framer : next.framer = actor.framer
  receivedFds : next.receivedFds = actor.receivedFds

theorem Same.refl (actor : Actor) : Same actor actor := ⟨rfl, rfl, rfl, rfl⟩

/-- A step of the statechart changes the state alone. -/
theorem advance_eq_ok_iff
    {input : Input} :
    actor.advance input = .ok next ↔
      ∃ state, actor.state.step input = .ok state ∧
        { actor with state } = next := by
  unfold advance
  cases actor.state.step input <;> simp [Except.map]

/-- A completion brings its event where the statechart takes it. -/
theorem settle_spec
    (input : Input) (event : Except Error CompletionEvent) :
    match actor.state.step input with
    | .error cause => actor.settle input event = (.error cause, actor)
    | .ok state => actor.settle input event = (event, { actor with state }) := by
  unfold settle advance
  cases actor.state.step input <;> rfl

/-! ## Receives -/

/-- What a step of the statechart settles. -/
theorem settle_eq
    {input : Input} {event : Except Error CompletionEvent} {state : State}
    (steps : actor.state.step input = .ok state) :
    actor.settle input event = (event, { actor with state }) := by
  have spec := @settle_spec actor input event
  rw [steps] at spec
  exact spec

/-- An active receive can stop. -/
theorem step_receiveStops
    {state : State}
    (receiving : state.receiving = true) :
    state.step .receiveStops = .ok { state with receiving := false } :=
  if_pos receiving

/-- An active receive can end with its connection. -/
theorem step_receiveCloses
    {state : State}
    (receiving : state.receiving = true) :
    state.step .receiveCloses =
      .ok { phase := state.phase.closed, receiving := false } :=
  if_pos receiving

/-- The last completion of a receive disarms it, and only a failure or an end
of file closes the connection. -/
theorem completeReceive_spec
    (cqe : Cqe)
    (receiving : actor.receiveActive = true) :
    ∃ phase,
      (actor.completeReceive cqe).2 =
        { actor with state := { phase, receiving := cqe.continues } } ∧
      match (actor.completeReceive cqe).1 with
      | .error cause => cause = .ioFailure ∧ phase = actor.state.phase.closed
      | .ok .disconnected => phase = actor.state.phase.closed
      | .ok _ => phase = actor.state.phase := by
  have stops := @step_receiveStops actor.state receiving
  have closes := @step_receiveCloses actor.state receiving
  unfold completeReceive Cqe.continues
  cases cqe.result with
  | count length =>
      cases length with
      | zero =>
          refine ⟨actor.state.phase.closed, ?_⟩
          simp only [settle_eq closes]
          exact ⟨by simp, trivial⟩
      | succ length =>
          refine ⟨actor.state.phase, ?_⟩
          cases more : cqe.more with
          | false =>
              simp only [Bool.false_eq_true, if_false, settle_eq stops,
                Bool.and_false]
              exact ⟨trivial, trivial⟩
          | true =>
              have continues : actor.state.step .receiveContinues =
                  .ok actor.state := if_pos receiving
              simp only [if_true, settle_eq continues, Nat.succ_pos,
                decide_true, Bool.and_true]
              refine ⟨?_, trivial⟩
              rw [← receiving]
              rfl
  | failed cause =>
      simp only
      split_ifs
      · refine ⟨actor.state.phase, ?_⟩
        simp only [settle_eq stops]
        exact ⟨trivial, trivial⟩
      · refine ⟨actor.state.phase, ?_⟩
        simp only [settle_eq stops]
        exact ⟨trivial, trivial⟩
      · refine ⟨actor.state.phase.closed, ?_⟩
        simp only [settle_eq closes]
        exact ⟨trivial, trivial, trivial⟩

/-- A completion without a receive is refused. -/
theorem completeReceive_idle
    (cqe : Cqe)
    (idle : actor.receiveActive = false) :
    actor.completeReceive cqe = (.error .receiveNotActive, actor) := by
  unfold receiveActive at idle
  unfold completeReceive settle advance State.step
  cases cqe.result with
  | count length =>
      cases length with
      | zero => simp [idle, Except.map]
      | succ length => cases cqe.more <;> simp [idle, Except.map]
  | failed cause =>
      simp only [idle, Except.map, Bool.false_eq_true, if_false]
      split_ifs <;> rfl

/-- A receive that completes changes the state alone. -/
theorem completeReceive_same (cqe : Cqe) :
    Same actor (actor.completeReceive cqe).2 := by
  cases receiving : actor.receiveActive with
  | false =>
      rw [completeReceive_idle cqe receiving]
      exact .refl _
  | true =>
      obtain ⟨phase, after, _⟩ := completeReceive_spec cqe receiving
      rw [after]
      exact ⟨rfl, rfl, rfl, rfl⟩

/-! ## Cancellations -/

/-- The completion of a cancellation ends it, also when it failed. -/
theorem completeCancel_spec
    (cqe : Cqe)
    (canceling : actor.state.phase = .canceling) :
    (actor.completeCancel cqe).2 =
        { actor with state := { actor.state with phase := .canceled } } ∧
      ((actor.completeCancel cqe).1 = .ok .cancelComplete ∨
        (actor.completeCancel cqe).1 = .error .ioFailure) := by
  have steps : actor.state.step .cancelCompletes =
      .ok { actor.state with phase := .canceled } := by
    simp [State.step, canceling]
  unfold completeCancel
  rw [settle_eq steps]
  refine ⟨rfl, ?_⟩
  cases cqe.result with
  | count length => exact .inl rfl
  | failed cause =>
      simp only
      split_ifs
      · exact .inl rfl
      · exact .inr rfl

/-- Without a cancellation in flight nothing completes. -/
theorem completeCancel_idle
    (cqe : Cqe)
    (other : actor.state.phase ≠ .canceling) :
    actor.completeCancel cqe = (.error .cancelNotActive, actor) := by
  simp [completeCancel, settle, advance, State.step, other, Except.map]

/-- A cancellation that completes changes the state alone. -/
theorem completeCancel_same (cqe : Cqe) :
    Same actor (actor.completeCancel cqe).2 := by
  by_cases canceling : actor.state.phase = .canceling
  · rw [(completeCancel_spec cqe canceling).1]
    exact ⟨rfl, rfl, rfl, rfl⟩
  · rw [completeCancel_idle cqe canceling]
    exact .refl _

/-! ## Sends -/

/-- A send that failed is over, and the connection closes unless it was
canceled. -/
theorem failSend_spec
    {transmit : Tx.Queue}
    (canceled : Bool)
    (failed : actor.transmit.failed = .ok transmit) :
    ∃ phase,
      (actor.failSend canceled).2 =
        { actor with transmit, state := { actor.state with phase } } ∧
      phase.lifecycle = .closing ∧
      (phase = actor.state.phase ∨ phase = actor.state.phase.closed) ∧
      ((actor.failSend canceled).1 = .ok .sendStopped ∨
        (actor.failSend canceled).1 = .error .ioFailure) := by
  unfold failSend
  rw [failed]
  simp only
  split_ifs with stopped
  · exact ⟨actor.state.phase, rfl, stopped.1, .inl rfl, .inl rfl⟩
  · refine ⟨actor.state.phase.closed, rfl, ?_, .inr rfl, .inr rfl⟩
    cases actor.state.phase <;> rfl

/-- A send that is not in flight cannot fail. -/
theorem failSend_error
    {cause : Error}
    (canceled : Bool)
    (failed : actor.transmit.failed = .error cause) :
    actor.failSend canceled = (.error cause, actor) := by
  unfold failSend
  rw [failed]

theorem failSend_same (canceled : Bool) :
    Same actor (actor.failSend canceled).2 := by
  cases failed : actor.transmit.failed with
  | error cause =>
      rw [failSend_error canceled failed]
      exact .refl _
  | ok transmit =>
      obtain ⟨phase, after, _⟩ := failSend_spec canceled failed
      rw [after]
      exact ⟨rfl, rfl, rfl, rfl⟩

/-- The phase after output was sent. -/
def drainedPhase (phase : Phase) (moreQueued : Bool) : Phase :=
  if !moreQueued ∧ phase = .draining then .closing else phase

/-- A send that wrote something. -/
theorem completeSend_written
    {written : Nat}
    (storage : Storage)
    (result : cqe.result = .count (written + 1)) :
    let (result, transmit, after) :=
      actor.transmit.complete storage (written + 1)
    actor.completeSend storage cqe =
      match result with
      | .error cause => (.error cause, { actor with transmit }, after)
      | .ok _ =>
          let moreQueued : Bool := transmit.queuedBytes > 0
          (.ok (.sent (written + 1) moreQueued),
            { actor with
              transmit
              state := { actor.state with
                phase := drainedPhase actor.state.phase moreQueued } },
            after) := by
  unfold completeSend
  rw [result]
  simp only
  generalize actor.transmit.complete storage (written + 1) = outcome
  obtain ⟨result, transmit, after⟩ := outcome
  cases result with
  | error cause => rfl
  | ok _ =>
      simp only
      split_ifs with more
      · rw [more]
        rfl
      · have drained : ({ actor with transmit } : Actor).state.step .sendDrained =
            .ok { actor.state with
              phase := drainedPhase actor.state.phase false } := by
          simp only [State.step, drainedPhase, Bool.not_false, true_and]
          split_ifs <;> rfl
        have none : decide (transmit.queuedBytes > 0) = false := by
          simpa using more
        rw [settle_eq drained, none]

theorem completeSend_same (storage : Storage) (cqe : Cqe) :
    Same actor (actor.completeSend storage cqe).2.1 := by
  cases result : cqe.result with
  | failed cause =>
      unfold completeSend
      rw [result]
      exact failSend_same _
  | count length =>
      cases length with
      | zero =>
          unfold completeSend
          rw [result]
          exact failSend_same _
      | succ written =>
          have spec := @completeSend_written actor _ _ storage result
          generalize actor.transmit.complete storage (written + 1) = outcome
            at spec
          obtain ⟨outcome, transmit, after⟩ := outcome
          simp only at spec
          rw [spec]
          cases outcome <;> exact ⟨rfl, rfl, rfl, rfl⟩

theorem completeRouted_same
    (storage : Storage) (operation : Operation) (cqe : Cqe) :
    Same actor (actor.completeRouted storage operation cqe).2.1 := by
  cases operation with
  | receive => exact completeReceive_same cqe
  | send => exact completeSend_same storage cqe
  | cancel => exact completeCancel_same cqe
  | accept => exact .refl _
  | acceptCancel => exact .refl _

/-! ## Output -/

theorem lifecycle_beginClose (actor : Actor) :
    actor.beginClose.lifecycle = .closing := by
  unfold beginClose lifecycle State.lifecycle
  cases actor.state.phase <;> rfl

theorem enqueue_same
    (storage : Storage)
    (bytes : List UInt8)
    (descriptors : List Fd)
    (room : Tx.Room) :
    Same actor (actor.enqueue storage bytes descriptors room).2.1 := by
  unfold enqueue
  split_ifs
  · exact .refl _
  · exact ⟨rfl, rfl, rfl, rfl⟩

variable [Native]

/-- The terminal error is queued on an open connection, which then drains, or
closes. -/
theorem postError_state
    (objectId code : UInt32) (message : List UInt8) (room : Tx.Room) :
    let (result, next, _) := actor.postError storage objectId code message room
    ∃ transmit phase,
      next = { actor with transmit, state := { actor.state with phase } } ∧
      if actor.state.phase = .open then
        phase = if result = .ok () then .draining else .closing
      else result = .error .closing ∧ transmit = actor.transmit ∧
        phase = actor.state.phase := by
  by_cases isOpen : actor.state.phase = .open
  swap
  · simp only [postError, beginProtocolError, advance, State.step, isOpen,
      ne_eq, not_false_eq_true, if_true, Except.map, if_false]
    exact ⟨actor.transmit, actor.state.phase, rfl, trivial, rfl, rfl⟩
  simp only [postError, beginProtocolError, advance, State.step, isOpen,
    ne_eq, not_true, if_false, Except.map, if_true]
  generalize (DisplayEvent.error objectId code message).encode actor.transmit
    storage room = outcome
  obtain ⟨result, transmit, after⟩ := outcome
  cases result with
  | error cause => exact ⟨transmit, .closing, rfl, rfl⟩
  | ok _ =>
      unfold commitProtocolError advance State.step
      by_cases empty : transmit.queuedBytes = 0
      · simp only [ne_eq, not_true, if_false, Except.map, empty, if_true]
        exact ⟨transmit, .closing, rfl, rfl⟩
      · simp only [ne_eq, not_true, if_false, Except.map, empty]
        exact ⟨transmit, .draining, rfl, rfl⟩

/-- The queue is as encoding the error leaves it. -/
theorem postError_transmit
    (objectId code : UInt32) (message : List UInt8) (room : Tx.Room) :
    let (_, next, after) := actor.postError storage objectId code message room
    if actor.state.phase = .open then
      ((DisplayEvent.error objectId code message).encode actor.transmit storage
        room).2 = (next.transmit, after)
    else next = actor ∧ after = storage := by
  by_cases isOpen : actor.state.phase = .open
  swap
  · simp only [postError, beginProtocolError, advance, State.step, isOpen,
      ne_eq, not_false_eq_true, if_true, Except.map, if_false]
    exact ⟨trivial, trivial⟩
  simp only [postError, beginProtocolError, advance, State.step, isOpen,
    ne_eq, not_true, if_false, Except.map, if_true]
  generalize (DisplayEvent.error objectId code message).encode actor.transmit
    storage room = outcome
  obtain ⟨result, transmit, after⟩ := outcome
  cases result with
  | error cause => rfl
  | ok _ =>
      unfold commitProtocolError advance State.step
      simp only [ne_eq, not_true, if_false, Except.map]
      by_cases empty : transmit.queuedBytes = 0
      · simp only [empty, if_true]
        rfl
      · simp only [empty, if_false]

theorem postError_same
    (objectId code : UInt32) (message : List UInt8) (room : Tx.Room) :
    Same actor
      (actor.postError storage objectId code message room).2.1 := by
  have spec := @postError_state actor storage _ objectId code message room
  generalize actor.postError storage objectId code message room = outcome
    at spec ⊢
  obtain ⟨_, _, _⟩ := outcome
  obtain ⟨_, _, rfl, _⟩ := spec
  exact ⟨rfl, rfl, rfl, rfl⟩

end Actor
end Wayring
