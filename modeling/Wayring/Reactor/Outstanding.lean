import Wayring.Reactor.Wakeups
import Wayring.Transport.Shared

/-!
# Outstanding operations

What the ring and the actors know of the operations in the kernel, and what
each call does to both.
-/

namespace Wayring

/-! ## The ring -/

namespace Ring

variable {ring next : Ring}

/-- The outstanding operations that carry a token. -/
def kinds (ring : Ring) (userData : Nat) : List Submission.Kind :=
  (ring.outstanding.filter fun submission =>
    submission.userData = userData).map Submission.kind

/-- A submission is outstanding under its token. -/
theorem kinds_queue
    {submission : Submission}
    (queued : ring.queue submission = .ok next) (userData : Nat) :
    next.kinds userData =
      if userData = submission.userData then
        ring.kinds userData ++ [submission.kind]
      else ring.kinds userData := by
  unfold kinds
  rw [(queue_eq_ok_iff.mp queued).2, List.filter_append, List.map_append]
  split_ifs with same
  · rw [same, List.filter_cons_of_pos (by simp)]
    rfl
  · rw [List.filter_cons_of_neg (by simpa using Ne.symm same)]
    exact List.append_nil _

/-- A completion ends the first operation of its token, or none. -/
theorem deliver_spec
    {completion : Cqe}
    (delivered : ring.deliver completion = some next) :
    ∃ submission ∈ ring.outstanding,
      submission.userData = completion.userData ∧
      allows submission completion = true ∧
      ∃ later, ring.kinds completion.userData = submission.kind :: later ∧
        if completion.more = true then next = ring
        else
          next.kinds completion.userData = later ∧
            (∀ other, other ≠ completion.userData →
              next.kinds other = ring.kinds other) ∧
            ∀ other ∈ next.outstanding, other ∈ ring.outstanding := by
  unfold deliver at delivered
  cases found : ring.outstanding.find? fun submission =>
      submission.userData = completion.userData with
  | none =>
      rw [found] at delivered
      cases delivered
  | some submission =>
      rw [found] at delivered
      simp only at delivered
      obtain ⟨carries, front, back, split, before⟩ :=
        List.find?_eq_some_iff_append.mp found
      have isToken : submission.userData = completion.userData := by
        simpa using carries
      have notBefore : front.filter (fun submission =>
          submission.userData = completion.userData) = [] := by
        rw [List.filter_eq_nil_iff]
        intro other member
        simpa using before other member
      have kindsEq : ring.kinds completion.userData = submission.kind ::
          (back.filter fun submission =>
            submission.userData = completion.userData).map
              Submission.kind := by
        rw [kinds, split, List.filter_append, notBefore, List.nil_append,
          List.filter_cons, if_pos carries]
        rfl
      split_ifs at delivered with refused continues
      · cases delivered
        exact ⟨submission, by simp [split], isToken, by simpa using refused, _,
          kindsEq, by rw [if_pos continues]⟩
      · cases delivered
        refine ⟨submission, by simp [split], isToken, by simpa using refused, _,
          kindsEq, ?_⟩
        rw [if_neg continues]
        have erased : ring.outstanding.eraseP (fun submission =>
            submission.userData = completion.userData) = front ++ back := by
          rw [split, List.eraseP_append_right _ (by simpa using before),
            List.eraseP_cons, carries]
          rfl
        rw [erased]
        refine ⟨?_, fun other differs => ?_, fun other member => ?_⟩
        · simp only [kinds, List.filter_append, notBefore, List.nil_append]
        · have unlike : ¬ submission.userData = other := fun same =>
            differs (same.symm.trans isToken)
          simp only [kinds]
          rw [split, List.filter_append, List.filter_append,
            List.filter_cons_of_neg (by simpa using unlike)]
        · rw [split, List.mem_append, List.mem_cons]
          rw [List.mem_append] at member
          tauto

end Ring

/-! ## The actors -/

/-- An event is put behind what is queued, or not at all. -/
theorem DisplayEvent.encode_keeps
    [Native]
    {queue : Tx.Queue} {storage : Storage} {bytes : List UInt8} {fds : List Fd}
    {chain fdChain : List Nat}
    (event : DisplayEvent)
    (room : Tx.Room)
    (stores : queue.Stores storage bytes fds chain fdChain)
    (wellFormed : storage.WellFormed) :
    let outcome := event.encode queue storage room
    outcome.2.1.active = queue.active ∧
      ∃ bytesNow fdsNow chainNow fdChainNow,
        outcome.2.1.Stores outcome.2.2 bytesNow fdsNow chainNow fdChainNow ∧
        Storage.Step storage outcome.2.2 chain chainNow fdChain fdChainNow := by
  have spec := @Codec.encode_spec queue storage bytes fds chain fdChain _
    event.signature event.opcode (UInt32.ofNat displayId) event.payload room
    stores wellFormed
  unfold DisplayEvent.encode
  generalize Codec.encode event.signature event.opcode queue storage
    (UInt32.ofNat displayId) event.payload room = outcome at spec ⊢
  obtain ⟨result, next, after⟩ := outcome
  cases result with
  | error cause =>
      obtain ⟨rfl, storesNow, step⟩ := spec
      exact ⟨rfl, bytes, fds, chain, fdChain, storesNow, step⟩
  | ok _ =>
      obtain ⟨_, _, _, _, _, _, _, enqueued⟩ := spec
      exact ⟨enqueued.active, _, _, _, _, enqueued.stores, enqueued.step⟩

namespace Token

/-- Tokens within their words are told apart. -/
theorem encode_inj
    {token other : Token}
    (slotBelow : token.slot < slotLimit)
    (generationBelow : token.generation < generationLimit)
    (otherSlotBelow : other.slot < slotLimit)
    (otherGenerationBelow : other.generation < generationLimit)
    (same : token.encode = other.encode) : token = other := by
  have decoded := decode_encode slotBelow generationBelow
  rw [same, decode_encode otherSlotBelow otherGenerationBelow] at decoded
  exact (Except.ok.inj decoded).symm

end Token

namespace Actor

variable {actor next : Actor} {storage after : Storage}

/-- What an actor expects of the kernel. -/
def expected (actor : Actor) : Operation → List Submission.Kind
  | .receive => if actor.receiveActive then [.receive] else []
  | .send =>
      match actor.transmit.active with
      | none => []
      | some flight => [.send flight.byteCount]
  | .cancel => if actor.cancelActive then [.cancel] else []
  | .accept => []
  | .acceptCancel => []

/-- Whether the flags of an actor say that the kernel has an operation. -/
def inKernel (actor : Actor) : Operation → Bool
  | .receive => actor.receiveActive
  | .send => actor.transmit.sendActive
  | .cancel => actor.cancelActive
  | .accept | .acceptCancel => false

/-- An operation is expected at most once. -/
theorem length_expected (actor : Actor) (operation : Operation) :
    (actor.expected operation).length =
      if actor.inKernel operation then 1 else 0 := by
  cases operation with
  | receive =>
      cases receiving : actor.receiveActive <;>
        simp [expected, inKernel, receiving]
  | send =>
      cases active : actor.transmit.active <;>
        simp [expected, inKernel, Tx.Queue.sendActive, active]
  | cancel =>
      cases canceling : actor.cancelActive <;>
        simp [expected, inKernel, canceling]
  | accept => rfl
  | acceptCancel => rfl

theorem expected_congr
    (receiving : next.state.receiving = actor.state.receiving)
    (active : next.transmit.active = actor.transmit.active)
    (canceling : next.cancelActive = actor.cancelActive) :
    next.expected = actor.expected := by
  funext operation
  unfold expected receiveActive
  rw [receiving, active, canceling]

theorem cancelActive_closed (phase : Phase) :
    phase.closed.cancelActive = phase.cancelActive := by
  cases phase <;> rfl

/-- An operation keeps the queue of an actor on entries of its own, and leaves
some operations in the kernel. -/
def Keeps
    (actor next : Actor)
    (storage after : Storage)
    (expected : Operation → List Submission.Kind) : Prop :=
  ∀ bytes fds chain fdChain,
    actor.transmit.Stores storage bytes fds chain fdChain →
    storage.WellFormed →
    next.expected = expected ∧
      ∃ bytesNow fdsNow chainNow fdChainNow,
        next.transmit.Stores after bytesNow fdsNow chainNow fdChainNow ∧
        Storage.Step storage after chain chainNow fdChain fdChainNow

/-- The queue stays as it is. -/
theorem Keeps.state
    (same : next.transmit = actor.transmit) :
    Keeps actor next storage storage next.expected := by
  intro bytes fds chain fdChain stores wellFormed
  exact ⟨rfl, bytes, fds, chain, fdChain, same ▸ stores,
    .refl wellFormed _ _⟩

/-- A send that begins is expected. -/
theorem Keeps.began
    {snapshot : Tx.Snapshot}
    (begins : actor.transmit.begin snapshot = .ok next.transmit) :
    Keeps actor next storage storage next.expected := by
  intro bytes fds chain fdChain stores wellFormed
  exact ⟨rfl, bytes, fds, chain, fdChain, (stores.begin_spec begins).1,
    .refl wellFormed _ _⟩

/-- Queueing expects nothing new. -/
theorem Keeps.enqueue
    (actor : Actor)
    (storage : Storage)
    (bytes : List UInt8)
    (descriptors : List Fd)
    (room : Tx.Room) :
    let outcome := actor.enqueue storage bytes descriptors room
    Keeps actor outcome.2.1 storage outcome.2.2 actor.expected := by
  unfold Actor.enqueue
  split_ifs
  · exact .state rfl
  have spec := @Tx.Queue.enqueue_spec actor.transmit storage
  generalize outcome : actor.transmit.enqueue storage bytes descriptors room =
    result
  obtain ⟨result, transmit, after⟩ := result
  intro _ held fds chain fdChain stores wellFormed
  have enqueued := @spec held fds chain fdChain bytes descriptors room stores
    wellFormed
  rw [outcome] at enqueued
  cases result with
  | error cause =>
      obtain ⟨_, rfl, storesNow, step⟩ := enqueued
      exact ⟨rfl, held, fds, chain, fdChain, storesNow, step⟩
  | ok _ =>
      obtain ⟨more, fdChainNow, enqueued⟩ := enqueued
      exact ⟨expected_congr rfl enqueued.active rfl, _, _, _, _,
        enqueued.stores, enqueued.step⟩

/-- Posting an error expects nothing new. -/
theorem Keeps.postError
    [Native]
    (actor : Actor)
    (storage : Storage)
    (objectId code : UInt32)
    (message : List UInt8)
    (room : Tx.Room) :
    let outcome := actor.postError storage objectId code message room
    Keeps actor outcome.2.1 storage outcome.2.2 actor.expected := by
  have state := @postError_state actor storage _ objectId code message room
  have queue := @postError_transmit actor storage _ objectId code message room
  generalize actor.postError storage objectId code message room = outcome
    at state queue ⊢
  obtain ⟨result, next, after⟩ := outcome
  simp only at state queue ⊢
  obtain ⟨transmit, phase, rfl, phaseEq⟩ := state
  by_cases isOpen : actor.state.phase = .open
  · rw [if_pos isOpen] at queue phaseEq
    intro bytes fds chain fdChain stores wellFormed
    have canceling : phase.cancelActive = actor.state.phase.cancelActive := by
      rw [phaseEq, isOpen]
      split_ifs <;> rfl
    have encoded := (DisplayEvent.error objectId code message).encode_keeps room
      stores wellFormed
    generalize (DisplayEvent.error objectId code message).encode actor.transmit
      storage room = outcome at queue encoded
    obtain ⟨_, _, _⟩ := outcome
    cases queue
    exact ⟨expected_congr rfl encoded.1 canceling, encoded.2⟩
  · rw [if_neg isOpen] at queue
    obtain ⟨same, rfl⟩ := queue
    rw [same]
    exact .state rfl

/-! ## Completions -/

/-- The last completion of a receive. -/
theorem Keeps.completeReceive
    {completion : Cqe}
    (receiving : actor.receiveActive = true) :
    let next := (actor.completeReceive completion).2
    Keeps actor next storage storage next.expected ∧
      ∀ operation, next.expected operation =
        if operation = .receive ∧ completion.continues = false then []
        else actor.expected operation := by
  obtain ⟨phase, after, result⟩ := completeReceive_spec completion receiving
  have canceling : phase.cancelActive = actor.state.phase.cancelActive := by
    generalize (actor.completeReceive completion).1 = outcome at result
    cases outcome with
    | error cause => rw [result.2, cancelActive_closed]
    | ok event =>
        cases event
        case disconnected => rw [result, cancelActive_closed]
        all_goals rw [result]
  intro next
  refine ⟨.state (by rw [show next = _ from after]), fun operation => ?_⟩
  rw [show next = _ from after]
  split_ifs with stopped
  · rw [stopped.1, expected, receiveActive, stopped.2]
    rfl
  cases operation with
  | receive =>
      have continues : completion.continues = true := by
        simpa using stopped
      rw [expected, expected, receiving, receiveActive, continues]
  | send => rfl
  | cancel =>
      rw [expected, expected, cancelActive, canceling]
      rfl
  | accept => rfl
  | acceptCancel => rfl

/-- The completion of a cancellation. -/
theorem Keeps.completeCancel
    {completion : Cqe}
    (canceling : actor.cancelActive = true) :
    let next := (actor.completeCancel completion).2
    Keeps actor next storage storage next.expected ∧
      ∀ operation, next.expected operation =
        if operation = .cancel then [] else actor.expected operation := by
  have isCanceling : actor.state.phase = .canceling := by
    simpa [cancelActive, Phase.cancelActive] using canceling
  have after := (completeCancel_spec completion isCanceling).1
  intro next
  refine ⟨.state (by rw [show next = _ from after]), fun operation => ?_⟩
  rw [show next = _ from after]
  split_ifs with ended
  · rw [ended]
    rfl
  · cases operation with
    | cancel => exact absurd rfl ended
    | _ => rfl

/-- The completion of a send. -/
theorem Keeps.completeSend
    {completion : Cqe} {flight : Tx.Flight}
    (sending : actor.transmit.active = some flight)
    (within : ∀ length, completion.result = .count length →
      length ≤ flight.byteCount) :
    let outcome := actor.completeSend storage completion
    Keeps actor outcome.2.1 storage outcome.2.2 fun operation =>
      if operation = .send then [] else actor.expected operation := by
  have ended : ∀ (transmit : Tx.Queue) (phase : Phase),
      transmit.active = none →
      phase.cancelActive = actor.state.phase.cancelActive →
      expected { actor with transmit, state := { actor.state with phase } } =
        fun operation =>
          if operation = .send then [] else actor.expected operation := by
    intro transmit phase idle canceling
    funext operation
    split_ifs with isSend
    · rw [isSend, expected, idle]
    · cases operation with
      | send => exact absurd rfl isSend
      | cancel =>
          rw [expected, expected, cancelActive, canceling]
          rfl
      | _ => rfl
  have failing : ∀ canceled bytes fds chain fdChain,
      actor.transmit.Stores storage bytes fds chain fdChain →
      storage.WellFormed →
      (actor.failSend canceled).2.expected = (fun operation =>
          if operation = .send then [] else actor.expected operation) ∧
        ∃ bytesNow fdsNow chainNow fdChainNow,
          (actor.failSend canceled).2.transmit.Stores storage bytesNow fdsNow
            chainNow fdChainNow ∧
          Storage.Step storage storage chain chainNow fdChain fdChainNow := by
    intro canceled bytes fds chain fdChain stores wellFormed
    have failed : actor.transmit.failed =
        .ok { actor.transmit with active := none } := by
      simp [Tx.Queue.failed, stores.settled, Tx.Queue.sendActive, sending]
    obtain ⟨phase, after, _, phaseEq, _⟩ := failSend_spec canceled failed
    rw [after]
    refine ⟨ended _ phase rfl ?_, bytes, fds, chain, fdChain,
      (stores.failed_spec failed).1, .refl wellFormed _ _⟩
    rcases phaseEq with rfl | rfl
    · rfl
    · exact cancelActive_closed _
  cases result : completion.result with
  | failed cause =>
      unfold Actor.completeSend
      rw [result]
      exact failing _
  | count length =>
      cases length with
      | zero =>
          unfold Actor.completeSend
          rw [result]
          exact failing _
      | succ written =>
          have spec := @completeSend_written actor completion written storage
            result
          generalize actor.completeSend storage completion = outcome at spec ⊢
          change Keeps actor outcome.2.1 storage outcome.2.2 _
          intro bytes fds chain fdChain stores wellFormed
          obtain ⟨transmit, after, dropped, completed, spec', _⟩ :=
            Tx.Queue.complete_active stores wellFormed sending
              (Nat.succ_pos written) (within _ result)
          rw [completed] at spec
          simp only at spec
          subst spec
          refine ⟨ended transmit _ spec'.active ?_, _, _, _, _, spec'.stores,
            spec'.step⟩
          unfold drainedPhase
          split_ifs with drained
          · rw [drained.2]
            rfl
          · rfl

end Actor
end Wayring
