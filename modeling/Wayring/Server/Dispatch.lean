import Wayring.Server.Session

/-!
# Request dispatch

Complete requests go to a handler in order.  A request that is invalid, or that
the handler fails on, ends the connection with a terminal error.
-/

namespace Wayring
namespace Server

/-- Whether a handler goes on with the next request. -/
inductive Control
  | continueDispatch
  | stop
  deriving DecidableEq, Repr

/-- The codes of `wl_display.error`. -/
inductive DisplayErrorCode
  | invalidObject
  | invalidMethod
  | noMemory
  | implementation
  deriving DecidableEq, Repr

/-- The number of an error code. -/
def DisplayErrorCode.code : DisplayErrorCode → UInt32
  | .invalidObject => 0
  | .invalidMethod => 1
  | .noMemory => 2
  | .implementation => 3

/-- The error code that tells a client of a cause. -/
def displayErrorCode (cause : Error) : DisplayErrorCode :=
  match cause with
  | .unknownObject => .invalidObject
  | .unknownOpcode | .unsupportedVersion => .invalidMethod
  | .outOfMemory | .full => .noMemory
  | _ => .implementation

/-- What the application learns of a terminal error. -/
structure RequestFailure where
  dispatched : Nat
  objectId : Option Nat
  cause : Error
  errorQueued : Bool
  deriving DecidableEq, Repr

/-- What a turn of request dispatch answers. -/
inductive RequestResult
  | dispatched (count : Nat)
  | terminal (failure : RequestFailure)
  deriving DecidableEq, Repr

/-- The namespace that requests are looked up in, and the functions that handle
them. -/
structure Context (σ Target : Type) where
  lookup : σ → Nat → Nat → Except Error Target
  request : Target → Wire.Message → Session σ → Except Error Control × Session σ

/-- A call of `dispatchRequests`: its result, the session after it, the bytes
that it did not consume, and the requests that it gave to the handler. -/
structure Dispatch (σ : Type) where
  result : RequestResult
  session : Session σ
  rest : List UInt8
  handled : List Wire.Message

variable {σ Target : Type}

/-- The session with another fragment. -/
def Session.framed
    (session : Session σ)
    (framer : Framer)
    (fragmentBlocks : SharedBlocks) : Session σ :=
  { session with actor := { session.actor with framer }, fragmentBlocks }

variable [Native]

namespace Session

/-- Take the next message off a stream. -/
def nextMessage
    (session : Session σ)
    (bytes : List UInt8)
    (room : Nat) :
    Except Error (Option Wire.Message) × List UInt8 × Session σ :=
  let (result, rest, framer, fragmentBlocks) :=
    session.actor.framer.next session.fragmentBlocks bytes room
  (result, rest, session.framed framer fragmentBlocks)

/-- End a connection for a cause. -/
def terminalRequest
    (session : Session σ)
    (dispatched : Nat)
    (objectId : Option Nat)
    (cause : Error)
    (room : Tx.Room) : RequestFailure × Session σ :=
  if cause = .disconnected then
    ({ dispatched, objectId, cause, errorQueued := false },
      { session with actor := session.actor.beginClose })
  else if session.actor.canDispatch then
    match session.actor.postError session.storage
        (UInt32.ofNat (objectId.getD displayId))
        (displayErrorCode cause).code cause.nameBytes room with
    | (.ok _, actor, storage) =>
        ({ dispatched, objectId, cause
           errorQueued := actor.lifecycle = .draining },
          { session with actor, storage })
    | (.error _, actor, storage) =>
        ({ dispatched, objectId, cause
           errorQueued := actor.beginClose.lifecycle = .draining },
          { session with actor := actor.beginClose, storage })
  else
    ({ dispatched, objectId, cause
       errorQueued := session.actor.lifecycle = .draining }, session)

end Session

/-- A call that ends the connection. -/
def Dispatch.terminal
    (session : Session σ)
    (dispatched : Nat)
    (objectId : Option Nat)
    (cause : Error)
    (room : Tx.Room)
    (rest : List UInt8)
    (handled : List Wire.Message) : Dispatch σ :=
  let (failure, session) :=
    session.terminalRequest dispatched objectId cause room
  { result := .terminal failure, session, rest, handled }

/-- The loop over complete requests.  Each round consumes at least one byte. -/
def dispatchLoop
    (context : Context σ Target)
    (rooms : Nat → Nat)
    (room : Tx.Room) :
    Nat → Nat → Session σ → List UInt8 → Dispatch σ
  | 0, count, session, bytes =>
      { result := .dispatched count, session, rest := bytes, handled := [] }
  | fuel + 1, count, session, bytes =>
      match session.nextMessage bytes (rooms count) with
      | (.error cause, rest, session) =>
          .terminal session count none cause room rest []
      | (.ok none, rest, session) =>
          { result := .dispatched count, session, rest, handled := [] }
      | (.ok (some complete), rest, session) =>
          match context.lookup session.world complete.header.objectId
              complete.header.opcode with
          | .error cause =>
              .terminal session count (some complete.header.objectId) cause room
                rest []
          | .ok target =>
              match context.request target complete session with
              | (.error cause, session) =>
                  .terminal session count (some complete.header.objectId) cause
                    room rest [complete]
              | (.ok .stop, session) =>
                  { result := .dispatched (count + 1), session, rest
                    handled := [complete] }
              | (.ok .continueDispatch, session) =>
                  let later :=
                    dispatchLoop context rooms room fuel (count + 1) session rest
                  { later with handled := complete :: later.handled }

/-- Dispatch the complete requests of some bytes. -/
def dispatchRequests
    (context : Context σ Target)
    (session : Session σ)
    (bytes : List UInt8)
    (rooms : Nat → Nat)
    (room : Tx.Room) : Dispatch σ :=
  if session.actor.canDispatch then
    dispatchLoop context rooms room
      (session.actor.framer.pending + bytes.length + 1) 0 session bytes
  else
    { result := .dispatched 0, session, rest := bytes, handled := [] }

end Server
end Wayring
