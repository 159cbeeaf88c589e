import Wayring.Server.Dispatch

/-!
# Requests of a stream

A handler gets the requests of a connection's byte stream in order, however the
stream is cut, until one of them ends the connection.
-/

namespace Wayring
namespace Server

variable [Native] {σ Target : Type}

/-- A handler works on a session by effects alone, and goes on only while the
connection is open. -/
structure Handler (σ Target : Type) extends Context σ Target where
  acts : ∀ target message session,
    ∃ output, Effects session output (request target message session).2
  continues : ∀ target message session,
    (request target message session).1 = .ok .continueDispatch →
      (request target message session).2.actor.canDispatch = true

namespace Session

/-- An open connection holds its output, and the start of a message. -/
structure Sound (session : Session σ) : Prop where
  holds : ∃ queued, session.Holds queued
  ready : session.actor.framer.Ready session.fragmentBlocks
    session.actor.framer.buffered
  incomplete : Wire.Message.decode session.actor.framer.buffered = .ok none

end Session

/-! ## What a call does -/

/-- The handler gets some messages in order and goes on after each.  Between
them, only the fragment changes. -/
inductive Continued (handler : Handler σ Target) :
    Session σ → List Wire.Message → List (List UInt8) → Session σ → Prop
  | nil (session : Session σ) : Continued handler session [] [] session
  | cons
      {session middle last : Session σ} {framer : Framer}
      {fragmentBlocks : SharedBlocks} {message : Wire.Message}
      {rest : List Wire.Message} {output more : List (List UInt8)}
      {target : Target}
      (found : handler.lookup session.world message.header.objectId
        message.header.opcode = .ok target)
      (continues : handler.request target message
        (session.framed framer fragmentBlocks) =
          (.ok .continueDispatch, middle))
      (acts : Effects (session.framed framer fragmentBlocks) output middle)
      (later : Continued handler middle rest more last) :
      Continued handler session (message :: rest) (output ++ more) last

/-- Why a call ends, with some requests of the stream left.  `output` is what
the last request put on the queue.  The pool of fragments can grow by `memory`
blocks. -/
inductive Last
    (handler : Handler σ Target)
    (session : Session σ)
    (stream : List UInt8)
    (count memory : Nat)
    (room : Tx.Room) : List (List UInt8) → Dispatch σ → Prop
  /-- No request is complete. -/
  | waiting
      {framer : Framer} {fragmentBlocks : SharedBlocks}
      (incomplete : Wire.Message.decode stream = .ok none)
      (ready : framer.Ready fragmentBlocks stream) :
      Last handler session stream count memory room []
        { result := .dispatched count
          session := session.framed framer fragmentBlocks
          rest := []
          handled := [] }
  /-- The handler stops. -/
  | stopped
      {framer : Framer} {fragmentBlocks : SharedBlocks} {message : Wire.Message}
      {target : Target} {next : Session σ} {output : List (List UInt8)}
      (decoded : Wire.Message.decode stream = .ok (some message))
      (ready : framer.Ready fragmentBlocks [])
      (found : handler.lookup session.world message.header.objectId
        message.header.opcode = .ok target)
      (stops : handler.request target message
        (session.framed framer fragmentBlocks) = (.ok .stop, next))
      (acts : Effects (session.framed framer fragmentBlocks) output next) :
      Last handler session stream count memory room output
        { result := .dispatched (count + 1)
          session := next
          rest := stream.drop message.header.size
          handled := [message] }
  /-- The handler fails. -/
  | failed
      {framer : Framer} {fragmentBlocks : SharedBlocks} {message : Wire.Message}
      {target : Target} {next : Session σ} {output : List (List UInt8)}
      {cause : Error}
      (decoded : Wire.Message.decode stream = .ok (some message))
      (found : handler.lookup session.world message.header.objectId
        message.header.opcode = .ok target)
      (fails : handler.request target message
        (session.framed framer fragmentBlocks) = (.error cause, next))
      (acts : Effects (session.framed framer fragmentBlocks) output next) :
      Last handler session stream count memory room output
        (.terminal next count (some message.header.objectId) cause room
          (stream.drop message.header.size) [message])
  /-- The object, the opcode or the version is invalid. -/
  | unknown
      {framer : Framer} {fragmentBlocks : SharedBlocks} {message : Wire.Message}
      {cause : Error}
      (decoded : Wire.Message.decode stream = .ok (some message))
      (missing : handler.lookup session.world message.header.objectId
        message.header.opcode = .error cause) :
      Last handler session stream count memory room []
        (.terminal (session.framed framer fragmentBlocks) count
          (some message.header.objectId) cause room
          (stream.drop message.header.size) [])
  /-- The header is invalid. -/
  | malformed
      {framer : Framer} {fragmentBlocks : SharedBlocks} {cause : Error}
      {rest : List UInt8}
      (decoded : Wire.Message.decode stream = .error cause) :
      Last handler session stream count memory room []
        (.terminal (session.framed framer fragmentBlocks) count none cause room
          rest [])
  /-- A part of a message arrived without the rest, and there is no scratch
  space for the message. -/
  | crowded
      {framer : Framer} {fragmentBlocks : SharedBlocks} {cause : Error}
      {rest : List UInt8} {header : Wire.Header}
      (parted : Framer.Parted session.actor.framer.buffered stream)
      (decoded : Wire.Header.decode stream = .ok (some header))
      (crowded : session.actor.framer.Crowded session.fragmentBlocks header.size
        memory cause) :
      Last handler session stream count memory room []
        (.terminal (session.framed framer fragmentBlocks) count none cause room
          rest [])

section Calls

variable {handler : Handler σ Target} {session next : Session σ}
  {stream : List UInt8} {count memory : Nat} {rooms : Nat → Nat}
  {room : Tx.Room} {outcome : Dispatch σ}

omit [Native] in
/-- The fragment is not part of what is queued. -/
theorem Session.Holds.framed
    {queued : List UInt8}
    (holds : session.Holds queued)
    (framer : Framer) (fragmentBlocks : SharedBlocks) :
    (session.framed framer fragmentBlocks).Holds queued :=
  holds.congr rfl rfl rfl

/-! ## The end of a connection -/

/-- A cause ends an open connection, behind the output that is queued. -/
theorem Session.terminalRequest_open
    {queued : List UInt8} {objectId : Option Nat} {cause : Error}
    (isOpen : session.actor.canDispatch = true)
    (holds : session.Holds queued) :
    let outcome := session.terminalRequest count objectId cause room
    outcome.2.Ended queued ∧
      outcome.1.errorQueued = decide (outcome.2.actor.lifecycle = .draining) := by
  intro outcome
  by_cases disconnected : cause = .disconnected
  · have same : outcome =
        ({ dispatched := count, objectId, cause, errorQueued := false },
          { session with actor := session.actor.beginClose }) := by
      simp only [outcome, terminalRequest, if_pos disconnected]
    have closing := session.actor.lifecycle_beginClose
    rw [same]
    refine ⟨.closing closing (holds.congr rfl rfl rfl), ?_⟩
    simp only [closing]
    rfl
  · generalize posted : session.actor.postError session.storage
      (UInt32.ofNat (objectId.getD displayId)) (displayErrorCode cause).code
      cause.nameBytes room = post
    obtain ⟨result, actor, storage⟩ := post
    have ended := (postError_ended isOpen holds posted).1
    cases result with
    | ok _ =>
        have same : outcome =
            ({ dispatched := count, objectId, cause
               errorQueued := actor.lifecycle = .draining },
              { session with actor, storage }) := by
          simp only [outcome, terminalRequest, if_neg disconnected, isOpen,
            if_true, posted]
        rw [same]
        exact ⟨ended, rfl⟩
    | error _ =>
        have same : outcome =
            ({ dispatched := count, objectId, cause
               errorQueued := actor.beginClose.lifecycle = .draining },
              { session with actor := actor.beginClose, storage }) := by
          simp only [outcome, terminalRequest, if_neg disconnected, isOpen,
            if_true, posted]
        rw [same]
        exact ⟨(Effect.beginClose _).ended ended, rfl⟩

/-- A connection that ended already stays as it ended, or closes. -/
theorem Session.terminalRequest_ended
    {queued : List UInt8} {objectId : Option Nat} {cause : Error}
    (ended : session.Ended queued) :
    let outcome := session.terminalRequest count objectId cause room
    outcome.2.Ended queued ∧
      outcome.1.errorQueued = decide (outcome.2.actor.lifecycle = .draining) := by
  intro outcome
  by_cases disconnected : cause = .disconnected
  · have same : outcome =
        ({ dispatched := count, objectId, cause, errorQueued := false },
          { session with actor := session.actor.beginClose }) := by
      simp only [outcome, terminalRequest, if_pos disconnected]
    rw [same]
    refine ⟨(Effect.beginClose _).ended ended, ?_⟩
    simp only [session.actor.lifecycle_beginClose]
    rfl
  · have same : outcome =
        ({ dispatched := count, objectId, cause
           errorQueued := session.actor.lifecycle = .draining }, session) := by
      simp only [outcome, terminalRequest, if_neg disconnected, ended.notOpen,
        Bool.false_eq_true, if_false]
    rw [same]
    exact ⟨ended, rfl⟩

/-! ## The loop -/

/-- A call of `dispatchRequests` on a stream, which begins with the fragment.
The handler gets the first requests of the stream and goes on after each; then
the call ends.  A terminal result ends the connection behind the output of all
these requests. -/
def Served
    (handler : Handler σ Target)
    (session : Session σ)
    (stream : List UInt8)
    (count : Nat)
    (rooms : Nat → Nat)
    (room : Tx.Room)
    (outcome : Dispatch σ) : Prop :=
  ∃ handled output middle remaining lastOutput last,
    Wire.frames stream =
      (handled ++ (Wire.frames remaining).1, (Wire.frames remaining).2) ∧
    Continued handler session handled output middle ∧
    Last handler middle remaining (count + handled.length)
      (rooms (count + handled.length)) room lastOutput last ∧
    outcome = { last with handled := handled ++ last.handled } ∧
    middle.actor.canDispatch = true ∧
    ∀ queued, session.Holds queued →
      middle.Holds (queued ++ output.flatten) ∧
      ∀ failure, outcome.result = .terminal failure →
        outcome.session.Ended (queued ++ (output ++ lastOutput).flatten) ∧
        failure.errorQueued =
          decide (outcome.session.actor.lifecycle = .draining)

/-- The last request of a call, with a terminal result. -/
theorem Last.terminal
    {output : List (List UInt8)} {queued : List UInt8}
    {failure : RequestFailure}
    (last : Last handler session stream count memory room output outcome)
    (isOpen : session.actor.canDispatch = true)
    (holds : session.Holds queued)
    (isTerminal : outcome.result = .terminal failure) :
    outcome.session.Ended (queued ++ output.flatten) ∧
      failure.errorQueued =
        decide (outcome.session.actor.lifecycle = .draining) := by
  cases last with
  | waiting => cases isTerminal
  | stopped => cases isTerminal
  | failed decoded found fails acts =>
      cases isTerminal
      rcases acts.opened isOpen (holds.framed _ _) with
        ⟨isOpenNow, holdsNow⟩ | ended
      · exact Session.terminalRequest_open isOpenNow holdsNow
      · exact Session.terminalRequest_ended ended
  | unknown =>
      cases isTerminal
      rw [List.flatten_nil, List.append_nil]
      exact Session.terminalRequest_open isOpen (holds.framed _ _)
  | malformed =>
      cases isTerminal
      rw [List.flatten_nil, List.append_nil]
      exact Session.terminalRequest_open isOpen (holds.framed _ _)
  | crowded =>
      cases isTerminal
      rw [List.flatten_nil, List.append_nil]
      exact Session.terminalRequest_open isOpen (holds.framed _ _)

/-- The last request of a call. -/
theorem Served.last
    {output : List (List UInt8)}
    (isOpen : session.actor.canDispatch = true)
    (last : Last handler session stream count (rooms count) room output
      outcome) :
    Served handler session stream count rooms room outcome := by
  refine ⟨[], [], session, stream, output, outcome, rfl, .nil session, last, rfl,
    isOpen, fun queued holds => ⟨?_, fun failure isTerminal =>
      last.terminal isOpen holds isTerminal⟩⟩
  rw [List.flatten_nil, List.append_nil]
  exact holds

/-- One more request before those of a call. -/
theorem Served.cons
    {framer : Framer} {fragmentBlocks : SharedBlocks} {message : Wire.Message}
    {target : Target} {output : List (List UInt8)}
    (decoded : Wire.Message.decode stream = .ok (some message))
    (found : handler.lookup session.world message.header.objectId
      message.header.opcode = .ok target)
    (continues : handler.request target message
      (session.framed framer fragmentBlocks) = (.ok .continueDispatch, next))
    (acts : Effects (session.framed framer fragmentBlocks) output next)
    (holds : ∀ queued, session.Holds queued →
      next.Holds (queued ++ output.flatten))
    (later : Served handler next (stream.drop message.header.size) (count + 1)
      rooms room outcome) :
    Served handler session stream count rooms room
      { outcome with handled := message :: outcome.handled } := by
  obtain ⟨handled, more, middle, remaining, lastOutput, last, frames, ran,
    ends, rfl, isOpen, later⟩ := later
  refine ⟨message :: handled, output ++ more, middle, remaining, lastOutput,
    last, ?_, .cons found continues acts ran, ?_, rfl, isOpen,
    fun queued before => ?_⟩
  · rw [Wire.frames_of_some decoded, frames]
    rfl
  · rw [List.length_cons, show count + (handled.length + 1) =
      count + 1 + handled.length by omega]
    exact ends
  · rw [List.append_assoc, List.flatten_append, List.flatten_append,
      ← List.append_assoc, ← List.append_assoc]
    exact later _ (holds queued before)

/-- A handler that goes on leaves an open connection with its output queued. -/
theorem Handler.continued
    {framer : Framer} {fragmentBlocks : SharedBlocks} {message : Wire.Message}
    {target : Target} {output : List (List UInt8)}
    (isOpen : session.actor.canDispatch = true)
    (ready : framer.Ready fragmentBlocks [])
    (continues : handler.request target message
      (session.framed framer fragmentBlocks) = (.ok .continueDispatch, next))
    (acts : Effects (session.framed framer fragmentBlocks) output next) :
    next.actor.canDispatch = true ∧
      next.actor.framer.Ready next.fragmentBlocks [] ∧
      ∀ queued, session.Holds queued →
        next.Holds (queued ++ output.flatten) := by
  have isOpenNow : next.actor.canDispatch = true := by
    have goesOn := handler.continues target message
      (session.framed framer fragmentBlocks)
    rw [continues] at goesOn
    exact goesOn rfl
  obtain ⟨sameFramer, keeps⟩ := acts.fragment
  refine ⟨isOpenNow, ?_, fun queued holds => ?_⟩
  · rw [sameFramer]
    exact keeps [] ready
  · rcases acts.opened isOpen (holds.framed framer fragmentBlocks) with
      ⟨_, holdsNow⟩ | ended
    · exact holdsNow
    · rw [ended.notOpen] at isOpenNow
      cases isOpenNow

/-- A loop of dispatch serves the complete messages, in order. -/
theorem dispatchLoop_served
    (handler : Handler σ Target)
    (rooms : Nat → Nat) (room : Tx.Room)
    (fuel count : Nat)
    (session : Session σ)
    (bytes : List UInt8)
    (isOpen : session.actor.canDispatch = true)
    (sound : session.Sound)
    (enough : session.actor.framer.buffered.length + bytes.length < fuel) :
    Served handler session (session.actor.framer.buffered ++ bytes) count rooms
      room (dispatchLoop handler.toContext rooms room fuel count session bytes) := by
  induction fuel generalizing count session bytes with
  | zero => exact absurd enough (Nat.not_lt_zero _)
  | succ fuel loop_ih =>
      have serves := Framer.next_spec sound.ready sound.incomplete bytes
        (rooms count)
      generalize isTaken : session.actor.framer.next session.fragmentBlocks
        bytes (rooms count) = taken at serves
      obtain ⟨result, rest, framer, fragmentBlocks⟩ := taken
      have next : session.nextMessage bytes (rooms count) =
          (result, rest, session.framed framer fragmentBlocks) := by
        rw [Session.nextMessage, isTaken]
      rw [dispatchLoop, next]
      cases result with
      | error cause =>
          rcases serves with malformed | ⟨parted, header, decoded, crowded⟩
          · exact .last isOpen (.malformed malformed)
          · exact .last isOpen (.crowded parted decoded crowded)
      | ok found =>
          cases found with
          | none =>
              obtain ⟨incomplete, rfl, ready⟩ := serves
              exact .last isOpen (.waiting incomplete ready)
          | some message =>
              obtain ⟨decoded, rfl, ready⟩ := serves
              simp only [Session.framed]
              cases found : handler.lookup session.world
                message.header.objectId message.header.opcode with
              | error cause => exact .last isOpen (.unknown decoded found)
              | ok target =>
                  obtain ⟨output, acts⟩ := handler.acts target message
                    (session.framed framer fragmentBlocks)
                  simp only [Session.framed] at acts ⊢
                  generalize handled : handler.request target message _ = answer
                    at acts ⊢
                  obtain ⟨result, next⟩ := answer
                  cases result with
                  | error cause =>
                      exact .last isOpen (.failed decoded found handled acts)
                  | ok control =>
                      cases control with
                      | stop =>
                          exact .last isOpen
                            (.stopped decoded ready found handled acts)
                      | continueDispatch =>
                          obtain ⟨isOpenNow, readyNow, holds⟩ :=
                            Handler.continued isOpen ready handled acts
                          obtain ⟨queued, before⟩ := sound.holds
                          have empty := readyNow.buffered
                          have later := loop_ih (count + 1) next
                            ((session.actor.framer.buffered ++ bytes).drop
                              message.header.size) isOpenNow
                            { holds := ⟨_, holds queued before⟩
                              ready := by
                                rw [empty]
                                exact readyNow
                              incomplete := by
                                rw [empty]
                                rfl } (by
                              obtain ⟨size, within⟩ :=
                                Wire.Message.size_le decoded
                              unfold Wire.headerLen at size
                              rw [List.length_append] at within
                              rw [empty, List.length_drop, List.length_append,
                                List.length_nil]
                              omega)
                          rw [empty, List.nil_append] at later
                          exact .cons decoded found handled acts holds later

/-! ## After a call -/

/-- The handler gets the first requests of the stream. -/
theorem Served.first
    (served : Served handler session stream count rooms room outcome) :
    outcome.handled <+: (Wire.frames stream).1 := by
  obtain ⟨handled, _, middle, remaining, _, last, frames, _, ends, rfl, _⟩ :=
    served
  rw [frames]
  refine (List.prefix_append_right_inj handled).mpr ?_
  cases ends with
  | stopped decoded =>
      rw [Wire.frames_of_some decoded]
      exact ⟨_, rfl⟩
  | failed decoded =>
      rw [Wire.frames_of_some decoded]
      exact ⟨_, rfl⟩
  | _ => exact List.nil_prefix

/-- What the rest of a call leaves of the stream, if the connection is still
open. -/
theorem Last.kept
    {output : List (List UInt8)} {queued : List UInt8}
    (last : Last handler session stream count memory room output outcome)
    (isOpen : session.actor.canDispatch = true)
    (holds : session.Holds queued)
    (still : outcome.session.actor.canDispatch = true) :
    outcome.session.Sound ∧
      let rest := outcome.session.actor.framer.buffered ++ outcome.rest
      Wire.frames stream =
        (outcome.handled ++ (Wire.frames rest).1, (Wire.frames rest).2) := by
  have ends : ∀ failure, outcome.result ≠ .terminal failure := by
    intro failure isTerminal
    have ended := (last.terminal isOpen holds isTerminal).1
    rw [ended.notOpen] at still
    cases still
  cases last with
  | @waiting framer fragmentBlocks incomplete ready =>
      have buffered : framer.buffered = stream := ready.buffered
      have holding : framer.Ready fragmentBlocks framer.buffered := by
        rw [buffered]
        exact ready
      refine ⟨⟨⟨queued, holds.framed _ _⟩, holding, ?_⟩, ?_⟩
      · rw [show (session.framed framer fragmentBlocks).actor.framer.buffered =
          stream from buffered]
        exact incomplete
      · simp only [Session.framed, buffered, List.append_nil, List.nil_append]
  | @stopped framer fragmentBlocks message target next output decoded ready
      found stops acts =>
      obtain ⟨sameFramer, keeps⟩ := acts.fragment
      have readyNow := keeps [] ready
      have buffered : next.actor.framer.buffered = [] := by
        rw [sameFramer]
        exact ready.buffered
      have holdsNow : ∃ queued, next.Holds queued := by
        rcases acts.opened isOpen (holds.framed framer fragmentBlocks) with
          ⟨_, holdsNow⟩ | ended
        · exact ⟨_, holdsNow⟩
        · rw [ended.notOpen] at still
          cases still
      refine ⟨⟨holdsNow, ?_, ?_⟩, ?_⟩
      · rw [buffered, sameFramer]
        exact readyNow
      · rw [buffered]
        rfl
      · simp only [buffered, List.nil_append]
        exact Wire.frames_of_some decoded
  | failed => exact absurd rfl (ends _)
  | unknown => exact absurd rfl (ends _)
  | malformed => exact absurd rfl (ends _)
  | crowded => exact absurd rfl (ends _)

/-- What a call leaves of the stream, if the connection is still open. -/
theorem Served.kept
    (served : Served handler session stream count rooms room outcome)
    (sound : session.Sound)
    (still : outcome.session.actor.canDispatch = true) :
    outcome.session.Sound ∧
      let rest := outcome.session.actor.framer.buffered ++ outcome.rest
      Wire.frames stream =
        (outcome.handled ++ (Wire.frames rest).1, (Wire.frames rest).2) := by
  obtain ⟨handled, output, middle, remaining, _, last, frames, _, ends, rfl,
    isOpen, later⟩ := served
  obtain ⟨queued, holds⟩ := sound.holds
  obtain ⟨soundNow, framesNow⟩ :=
    ends.kept isOpen (later queued holds).1 still
  refine ⟨soundNow, ?_⟩
  rw [frames, framesNow]
  simp only [List.append_assoc]

end Calls
end Server
end Wayring
