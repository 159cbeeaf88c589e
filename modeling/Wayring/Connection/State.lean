import Wayring.Error

/-!
# Connection statechart

The phase of a connection, and whether its receive is armed.  Send activity
belongs to the transmit queue.
-/

namespace Wayring

/-- Top-level connection phase. -/
inductive Lifecycle
  | open
  | protocolError
  | draining
  | closing
  deriving DecidableEq, Repr

/-- The last three track the cancellation of a connection that closes. -/
inductive Phase
  | open
  | protocolError
  | draining
  | closing
  | canceling
  | canceled
  deriving DecidableEq, Repr

namespace Phase

/-- Entering the closing superstate keeps a closing substate. -/
def closed : Phase → Phase
  | .open | .protocolError | .draining => .closing
  | phase => phase

/-- The lifecycle that a phase is of. -/
def lifecycle : Phase → Lifecycle
  | .open => .open
  | .protocolError => .protocolError
  | .draining => .draining
  | .closing | .canceling | .canceled => .closing

/-- Whether a cancellation was asked for. -/
def cancelRequested (phase : Phase) : Bool :=
  phase = .canceling ∨ phase = .canceled

/-- Whether a cancellation is outstanding. -/
def cancelActive (phase : Phase) : Bool := phase = .canceling

end Phase

/-- The state of a connection. -/
structure State where
  phase : Phase := .open
  receiving : Bool := false
  deriving DecidableEq, Repr

/-- What happens to a connection. -/
inductive Input
  | armReceive
  | beginProtocolError
  | commitProtocolError
  | beginClose
  | requestCancel
  /-- Multishot receive delivered data and remains armed. -/
  | receiveContinues
  /-- Receive terminated without changing the phase. -/
  | receiveStops
  /-- Receive terminated by end of file or failure. -/
  | receiveCloses
  /-- The last queued byte was sent. -/
  | sendDrained
  | sendFails
  | cancelCompletes
  deriving DecidableEq, Repr

namespace State

/-- The transition table. -/
def step (state : State) : Input → Except Error State
  | .armReceive =>
      if state.phase ≠ .open then .error .closing
      else if state.receiving then .error .receiveAlreadyActive
      else .ok { state with receiving := true }
  | .beginProtocolError =>
      if state.phase ≠ .open then .error .closing
      else .ok { state with phase := .protocolError }
  | .commitProtocolError =>
      if state.phase ≠ .protocolError then .error .noProtocolError
      else .ok { state with phase := .draining }
  | .beginClose => .ok { state with phase := state.phase.closed }
  | .requestCancel =>
      if state.phase.cancelRequested then .error .cancelAlreadyActive
      else .ok { state with phase := .canceling }
  | .receiveContinues =>
      if state.receiving then .ok state else .error .receiveNotActive
  | .receiveStops =>
      if state.receiving then .ok { state with receiving := false }
      else .error .receiveNotActive
  | .receiveCloses =>
      if state.receiving then
        .ok { phase := state.phase.closed, receiving := false }
      else .error .receiveNotActive
  | .sendDrained =>
      if state.phase = .draining then .ok { state with phase := .closing }
      else .ok state
  | .sendFails => .ok { state with phase := state.phase.closed }
  | .cancelCompletes =>
      if state.phase ≠ .canceling then .error .cancelNotActive
      else .ok { state with phase := .canceled }

/-- The lifecycle that a state is of. -/
def lifecycle (state : State) : Lifecycle := state.phase.lifecycle

end State
end Wayring
