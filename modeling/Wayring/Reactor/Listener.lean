import Wayring.Reactor.Reactor

/-!
# Listener

One multishot accept on a listening socket.  Its completions carry the
listener's generation, and a descriptor that nobody waits for is closed.
-/

namespace Wayring

/-- A queued operation that belongs to no connection record, or that cancels by
a tag. -/
inductive TaggedSubmission
  | accept (userData : Nat) (fd : Fd)
  | cancel (userData target : Nat)
  deriving DecidableEq, Repr

/-- A submission queue that holds both kinds of operations. -/
structure SharedRing where
  ring : Ring
  tagged : List TaggedSubmission := []
  deriving DecidableEq, Repr

/-- Queue a submission. -/
def SharedRing.queue
    (shared : SharedRing)
    (submission : TaggedSubmission) : Except Error SharedRing :=
  match shared.ring.free with
  | 0 => .error .submissionQueueFull
  | free + 1 =>
      .ok
        { ring := { shared.ring with free }
          tagged := shared.tagged ++ [submission] }

namespace Listener

/-- How far a listener is from its end. -/
inductive Phase
  | open
  | closing
  | canceling
  deriving DecidableEq, Repr

/-- The phase of a listener, and whether its accept is armed. -/
structure State where
  phase : Phase := .open
  accepting : Bool := false
  deriving DecidableEq, Repr

/-- What happens to a listener. -/
inductive Input
  | arm
  | beginClose
  | requestCancel
  /-- Multishot accept delivered a descriptor and remains armed. -/
  | acceptContinues
  /-- Accept terminated by its final completion. -/
  | acceptStops
  | cancelCompletes
  deriving DecidableEq, Repr

/-- The transition table.  Closing is never left. -/
def State.step (state : State) : Input → Except Error State
  | .arm =>
      if state.phase ≠ .open then .error .closing
      else if state.accepting then .error .acceptAlreadyActive
      else .ok { state with accepting := true }
  | .beginClose =>
      if state.phase = .open then .ok { state with phase := .closing }
      else .ok state
  | .requestCancel =>
      if state.phase = .canceling then .error .cancelAlreadyActive
      else .ok { state with phase := .canceling }
  | .acceptContinues =>
      if state.accepting then .ok state else .error .acceptNotActive
  | .acceptStops =>
      if state.accepting then .ok { state with accepting := false }
      else .error .acceptNotActive
  | .cancelCompletes =>
      if state.phase ≠ .canceling then .error .cancelNotActive
      else .ok { state with phase := .closing }

end Listener

/-- A listening socket and its state. -/
structure Listener where
  generation : Nat := 0
  acceptTag : Nat := 0
  state : Listener.State := {}
  deriving DecidableEq, Repr

namespace Listener

/-- A descriptor that was accepted, and whether the accept remains armed. -/
structure Accepted where
  fd : Fd
  more : Bool
  deriving DecidableEq, Repr

/-- What a completion brings. -/
inductive Event
  | accepted (accepted : Accepted)
  | acceptStopped
  | cancelComplete
  deriving DecidableEq, Repr

/-- The tags of a listener are those of slot zero. -/
def token (generation : Nat) (operation : Operation) : Token where
  operation
  slot := 0
  generation

/-- Arm the accept and queue it. -/
def prepare
    (listener : Listener)
    (shared : SharedRing)
    (fd : Fd) : Except Error Unit × SharedRing × Listener :=
  match listener.state.step .arm with
  | .error cause => (.error cause, shared, listener)
  | .ok next =>
      let generation := Completion.nextGeneration listener.generation
      let tag := (token generation .accept).encode
      match shared.queue (.accept tag fd) with
      | .error cause => (.error cause, shared, listener)
      | .ok shared =>
          (.ok (), shared, { generation, acceptTag := tag, state := next })

/-- Close, and cancel the accept if it is armed. -/
def prepareStop
    (listener : Listener)
    (shared : SharedRing) : Except Error Bool × SharedRing × Listener :=
  if !listener.state.accepting then
    match listener.state.step .beginClose with
    | .error _ => (.error .unreachable, shared, listener)
    | .ok state => (.ok false, shared, { listener with state })
  else
    match listener.state.step .requestCancel with
    | .error cause => (.error cause, shared, listener)
    | .ok next =>
        match shared.queue
            (.cancel (token listener.generation .acceptCancel).encode
              listener.acceptTag) with
        | .error cause => (.error cause, shared, listener)
        | .ok shared => (.ok true, shared, { listener with state := next })

/-- Whether nothing of the listener is in flight. -/
def canDeinit (listener : Listener) : Bool :=
  !listener.state.accepting && listener.state.phase ≠ .canceling

/-- Whether the listener is closing. -/
def closing (listener : Listener) : Bool := listener.state.phase ≠ .open

/-- The descriptor that an accept delivers. -/
def accepted (completion : Cqe) : Option Fd :=
  match completion.result with
  | .count fd => some (UInt32.ofNat fd)
  | .failed _ => none

/-- Close the descriptor that an accept delivers.  The result lists it. -/
def closeAccepted (completion : Cqe) : List Fd := (accepted completion).toList

/-- The second result lists the closed descriptors. -/
def completeAccept
    (listener : Listener)
    (completion : Cqe) : Except Error Event × List Fd × Listener :=
  let more := (accepted completion).isSome && completion.more
  match listener.state.step
      (if more then .acceptContinues else .acceptStops) with
  | .error cause => (.error cause, closeAccepted completion, listener)
  | .ok state =>
      let listener := { listener with state }
      match completion.result with
      | .failed cause =>
          if listener.closing ∧ cause = .canceled then
            (.ok .acceptStopped, [], listener)
          else (.error .ioFailure, [], listener)
      | .count fd =>
          (.ok (.accepted { fd := UInt32.ofNat fd, more }), [], listener)

/-- What the completion of a cancellation brings. -/
def completeCancel
    (listener : Listener)
    (completion : Cqe) : Except Error Event × List Fd × Listener :=
  match listener.state.step .cancelCompletes with
  | .error cause => (.error cause, [], listener)
  | .ok state =>
      let listener := { listener with state }
      match completion.result with
      | .count _ => (.ok .cancelComplete, [], listener)
      | .failed cause =>
          if cause = .noEntry ∨ cause = .already then
            (.ok .cancelComplete, [], listener)
          else (.error .ioFailure, [], listener)

/-- Apply a completion of the listener's current generation. -/
def complete
    (listener : Listener)
    (completion : Cqe) : Except Error Event × List Fd × Listener :=
  match Token.decode completion.userData with
  | .error _ => (.error .unexpectedCompletion, [], listener)
  | .ok token =>
      if token.slot ≠ 0 ∨ token.generation ≠ listener.generation then
        (.error .staleCompletion,
          if token.operation = .accept then closeAccepted completion else [],
          listener)
      else
        match token.operation with
        | .accept => listener.completeAccept completion
        | .acceptCancel => listener.completeCancel completion
        | .receive | .send | .cancel =>
            (.error .unexpectedCompletion, [], listener)

/-- A token is one that the listener waits for. -/
def owns (listener : Listener) (token : Token) : Bool :=
  if token.slot ≠ 0 ∨ token.generation ≠ listener.generation then false
  else
    match token.operation with
    | .accept => listener.state.accepting
    | .acceptCancel => listener.state.phase = .canceling
    | .receive | .send | .cancel => false

end Listener

/-- Where a completion goes. -/
inductive CompletionTarget
  | listener
  | connection (routed : Routed)
  deriving DecidableEq, Repr

/-- Route a completion.  A descriptor for which no listener waits is closed, and
the second result lists it. -/
def Reactor.routeAny
    (reactor : Reactor)
    (listener : Option Listener)
    (completion : Cqe) : Option CompletionTarget × List Fd :=
  match Token.decode completion.userData with
  | .error _ => (none, [])
  | .ok token =>
      match token.operation with
      | .accept | .acceptCancel =>
          if listener.any fun listener => listener.owns token then
            (some .listener, [])
          else
            (none,
              if token.operation = .accept then
                Listener.closeAccepted completion
              else [])
      | .receive | .send | .cancel =>
          ((reactor.slots.routeToken token).map .connection, [])

end Wayring
