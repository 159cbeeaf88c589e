import Wayring.Reactor.Listener
import Wayring.Reactor.Operations

/-!
# Preparation

What is done to an actor before its operation is queued, and how that is undone
when the operation cannot be queued.  The operations of the reactor are these
on a record.
-/

namespace Wayring

/-- The state of a receive: the tag that its last operation carries. -/
structure Receiver where
  receiveTag : Nat := 0
  deriving DecidableEq, Repr

namespace Receiver

/-- Arm a receive, queue it, and disarm it if it cannot be queued. -/
def prepareOperation
    (receiver : Receiver)
    (ring : Ring)
    (fd : Fd)
    (actor : Actor) : Except Error Unit × Receiver × Ring × Actor :=
  match actor.armReceive with
  | .error cause => (.error cause, receiver, ring, actor)
  | .ok actor =>
      let receiveTag := (actor.token .receive).encode
      match ring.queue { userData := receiveTag, fd, kind := .receive } with
      | .error cause =>
          (.error cause, receiver, ring,
            { actor with state := { actor.state with receiving := false } })
      | .ok ring => (.ok (), { receiveTag }, ring, actor)

/-- Close, cancel the receive, and open again if that cannot be queued. -/
def prepareStop
    (receiver : Receiver)
    (shared : SharedRing)
    (actor : Actor) : Except Error Bool × SharedRing × Actor :=
  let previous := actor.state
  let actor := actor.beginClose
  if !actor.receiveActive then (.ok false, shared, actor)
  else
    match actor.requestCancel with
    | .error cause => (.error cause, shared, { actor with state := previous })
    | .ok actor =>
        match shared.queue
            (.cancel (actor.token .cancel).encode receiver.receiveTag) with
        | .error cause =>
            (.error cause, shared, { actor with state := previous })
        | .ok shared => (.ok true, shared, actor)

end Receiver

/-- Begin a send, queue it, and end it if it cannot be queued. -/
def prepareSendOperation
    [Native]
    (descriptorScratch controlStorage : Nat)
    (storage : Storage)
    (ring : Ring)
    (fd : Fd)
    (actor : Actor) : Except Error Unit × Ring × Actor :=
  if actor.transmit.sendActive then (.error .sendAlreadyActive, ring, actor)
  else
    match actor.transmit.snapshot storage descriptorScratch controlStorage with
    | .error cause => (.error cause, ring, actor)
    | .ok snapshot =>
        match actor.beginSend snapshot with
        | .error cause => (.error cause, ring, actor)
        | .ok actor =>
            match ring.queue
                { userData := (actor.token .send).encode
                  fd
                  kind := .send snapshot.byteCount } with
            | .error cause =>
                match actor.transmit.failed with
                | .error _ => (.error .unreachable, ring, actor)
                | .ok transmit => (.error cause, ring, { actor with transmit })
            | .ok ring => (.ok (), ring, actor)

/-- Close, cancel every operation of a socket, and open again if that cannot be
queued. -/
def prepareCloseOperation
    (ring : Ring)
    (fd : Fd)
    (actor : Actor) : Except Error Bool × Ring × Actor :=
  let previous := actor.state
  let actor := actor.beginClose
  if !actor.receiveActive ∧ !actor.transmit.sendActive then
    (.ok false, ring, actor)
  else
    match actor.requestCancel with
    | .error cause => (.error cause, ring, { actor with state := previous })
    | .ok actor =>
        match ring.queue
            { userData := (actor.token .cancel).encode, fd, kind := .cancel } with
        | .error cause => (.error cause, ring, { actor with state := previous })
        | .ok ring => (.ok true, ring, actor)

/-! ## Undoing -/

/-- Disarming a receive that was just armed leaves the actor as it was. -/
theorem disarm_armReceive
    {actor armed : Actor}
    (arms : actor.armReceive = .ok armed) :
    { armed with state := { armed.state with receiving := false } } = actor := by
  rw [Reactor.armReceive_eq] at arms
  by_cases waits : Reactor.Waits actor
  · rw [if_pos waits] at arms
    cases arms
    have idle : actor.state.receiving = false := waits.2
    obtain ⟨slot, generation, framer, receivedFds, transmit, phase, receiving⟩ :=
      actor
    cases idle
    rfl
  · rw [if_neg waits] at arms
    split at arms
    · cases arms
    · cases arms

/-- A send that begins changes the transmit queue only. -/
theorem beginSend_eq
    {actor begun : Actor} {snapshot : Tx.Snapshot}
    (begins : actor.beginSend snapshot = .ok begun) :
    ∃ transmit, actor.transmit.begin snapshot = .ok transmit ∧
      begun = { actor with transmit } := by
  unfold Actor.beginSend at begins
  cases transmitted : actor.transmit.begin snapshot with
  | error cause =>
      rw [transmitted] at begins
      cases lifecycle : actor.lifecycle <;> rw [lifecycle] at begins <;>
        cases begins
  | ok transmit =>
      rw [transmitted] at begins
      cases lifecycle : actor.lifecycle <;> rw [lifecycle] at begins <;>
        cases begins <;> exact ⟨transmit, rfl, rfl⟩

/-- Requesting a cancellation changes the state only. -/
theorem requestCancel_state
    {actor requested : Actor}
    (requests : actor.requestCancel = .ok requested) (state : State) :
    { requested with state } = { actor with state } := by
  unfold Actor.requestCancel Actor.advance at requests
  cases stepped : actor.state.step .requestCancel with
  | error cause =>
      rw [stepped] at requests
      cases requests
  | ok next =>
      rw [stepped] at requests
      cases requests
      rfl

theorem beginClose_state
    (actor : Actor) :
    { actor.beginClose with state := actor.state } = actor := rfl

/-! ## Failures -/

/-- A receive that is not queued leaves everything as it was. -/
theorem Receiver.prepareOperation_failed
    (receiver : Receiver) (ring : Ring) (fd : Fd) (actor : Actor) :
    match receiver.prepareOperation ring fd actor with
    | (.error _, receiverNow, ringNow, actorNow) =>
        receiverNow = receiver ∧ ringNow = ring ∧ actorNow = actor
    | (.ok _, _, _, _) => True := by
  unfold Receiver.prepareOperation
  cases arms : actor.armReceive with
  | error cause => exact ⟨rfl, rfl, rfl⟩
  | ok armed =>
      dsimp only
      cases ring.queue
          { userData := (armed.token .receive).encode, fd, kind := .receive } with
      | error cause => exact ⟨rfl, rfl, disarm_armReceive arms⟩
      | ok ring => trivial

/-- A stop that is not queued leaves everything as it was. -/
theorem Receiver.prepareStop_failed
    (receiver : Receiver) (shared : SharedRing) (actor : Actor) :
    match receiver.prepareStop shared actor with
    | (.error _, sharedNow, actorNow) => sharedNow = shared ∧ actorNow = actor
    | (.ok _, _, _) => True := by
  unfold Receiver.prepareStop
  dsimp only
  by_cases idle : (!actor.beginClose.receiveActive) = true
  · rw [if_pos idle]
    trivial
  · rw [if_neg idle]
    cases requests : actor.beginClose.requestCancel with
    | error cause => exact ⟨rfl, beginClose_state actor⟩
    | ok requested =>
        dsimp only
        cases shared.queue
            (.cancel (requested.token .cancel).encode receiver.receiveTag) with
        | error cause =>
            refine ⟨rfl, ?_⟩
            exact (requestCancel_state requests actor.state).trans
              (beginClose_state actor)
        | ok shared => trivial

/-- A send that is not queued leaves everything as it was. -/
theorem prepareSendOperation_failed
    [Native]
    (descriptorScratch controlStorage : Nat)
    (storage : Storage) (ring : Ring) (fd : Fd) (actor : Actor) :
    match prepareSendOperation descriptorScratch controlStorage storage ring fd
        actor with
    | (.error _, ringNow, actorNow) => ringNow = ring ∧ actorNow = actor
    | (.ok _, _, _) => True := by
  unfold prepareSendOperation
  by_cases sending : actor.transmit.sendActive = true
  · rw [if_pos sending]
    exact ⟨rfl, rfl⟩
  rw [if_neg sending]
  cases actor.transmit.snapshot storage descriptorScratch controlStorage with
  | error cause => exact ⟨rfl, rfl⟩
  | ok snapshot =>
      dsimp only
      cases begins : actor.beginSend snapshot with
      | error cause => exact ⟨rfl, rfl⟩
      | ok begun =>
          obtain ⟨transmit, transmitted, rfl⟩ := beginSend_eq begins
          dsimp only
          cases queued : ring.queue _ with
          | error cause =>
              dsimp only
              rw [Reactor.failed_begin transmitted]
              exact ⟨rfl, rfl⟩
          | ok ring => trivial

/-- A close that is not queued leaves everything as it was. -/
theorem prepareCloseOperation_failed
    (ring : Ring) (fd : Fd) (actor : Actor) :
    match prepareCloseOperation ring fd actor with
    | (.error _, ringNow, actorNow) => ringNow = ring ∧ actorNow = actor
    | (.ok _, _, _) => True := by
  unfold prepareCloseOperation
  dsimp only
  by_cases idle :
      (!actor.beginClose.receiveActive) = true ∧
        (!actor.beginClose.transmit.sendActive) = true
  · rw [if_pos idle]
    trivial
  · rw [if_neg idle]
    cases requests : actor.beginClose.requestCancel with
    | error cause => exact ⟨rfl, beginClose_state actor⟩
    | ok requested =>
        dsimp only
        cases ring.queue
            { userData := (requested.token .cancel).encode, fd
              kind := .cancel } with
        | error cause =>
            refine ⟨rfl, ?_⟩
            exact (requestCancel_state requests actor.state).trans
              (beginClose_state actor)
        | ok ring => trivial

/-- An accept that is not queued leaves everything as it was. -/
theorem Listener.prepare_failed
    (listener : Listener) (shared : SharedRing) (fd : Fd) :
    match listener.prepare shared fd with
    | (.error _, sharedNow, listenerNow) =>
        sharedNow = shared ∧ listenerNow = listener
    | (.ok _, _, _) => True := by
  unfold Listener.prepare
  cases listener.state.step .arm with
  | error cause => exact ⟨rfl, rfl⟩
  | ok next =>
      dsimp only
      cases shared.queue _ with
      | error cause => exact ⟨rfl, rfl⟩
      | ok shared => trivial

/-- A cancellation of the accept that is not queued leaves everything as it
was. -/
theorem Listener.prepareStop_failed
    (listener : Listener) (shared : SharedRing) :
    match listener.prepareStop shared with
    | (.error _, sharedNow, listenerNow) =>
        sharedNow = shared ∧ listenerNow = listener
    | (.ok _, _, _) => True := by
  unfold Listener.prepareStop
  by_cases idle : (!listener.state.accepting) = true
  · rw [if_pos idle]
    cases listener.state.step .beginClose with
    | error cause => exact ⟨rfl, rfl⟩
    | ok state => trivial
  · rw [if_neg idle]
    cases listener.state.step .requestCancel with
    | error cause => exact ⟨rfl, rfl⟩
    | ok next =>
        dsimp only
        cases shared.queue _ with
        | error cause => exact ⟨rfl, rfl⟩
        | ok shared => trivial

/-! ## The reactor -/

namespace Reactor

variable {reactor : Reactor}

/-- A record whose actor is written back, with another ring. -/
theorem setActor_record
    (consistent : reactor.Consistent)
    {peer : Peer} {record : ConnectionRecord}
    (found : reactor.getRecord peer = .ok record) :
    setActor { reactor with ring := reactor.ring } peer.slot record.actor =
      reactor :=
  setActor_self (consistent.present found).1

/-- When a receive is prepared, and what stops it. -/
theorem prepareReceive_eq
    (consistent : reactor.Consistent)
    (peer : Peer) (receiver : Receiver) :
    reactor.prepareReceive peer =
      match reactor.getRecord peer with
      | .error cause => (.error cause, reactor)
      | .ok record =>
          let (result, _, ring, actor) :=
            receiver.prepareOperation reactor.ring record.fd record.actor
          (result, setActor { reactor with ring } peer.slot actor) := by
  rw [prepareReceive]
  cases found : reactor.getRecord peer with
  | error cause => rfl
  | ok record =>
      have failed :=
        receiver.prepareOperation_failed reactor.ring record.fd record.actor
      dsimp only
      unfold Receiver.prepareOperation at failed ⊢
      cases arms : record.actor.armReceive with
      | error cause =>
          simp only [setActor_record consistent found]
      | ok armed =>
          simp only [arms] at failed ⊢
          cases queued : reactor.ring.queue _ with
          | error cause =>
              simp only [queued] at failed ⊢
              rw [failed.2.2, setActor_record consistent found]
          | ok ring => rfl

/-- When a send is prepared, and what stops it. -/
theorem prepareSend_eq
    [Native]
    (consistent : reactor.Consistent)
    (peer : Peer) :
    reactor.prepareSend peer =
      match reactor.getRecord peer with
      | .error cause => (.error cause, reactor)
      | .ok record =>
          let (result, ring, actor) :=
            prepareSendOperation reactor.sendDescriptorCapacity
              reactor.sendControlStride reactor.storage reactor.ring record.fd
              record.actor
          (result, setActor { reactor with ring } peer.slot actor) := by
  rw [prepareSend]
  cases found : reactor.getRecord peer with
  | error cause => rfl
  | ok record =>
      have failed :=
        prepareSendOperation_failed reactor.sendDescriptorCapacity
          reactor.sendControlStride reactor.storage reactor.ring record.fd
          record.actor
      have same := setActor_record consistent found
      dsimp only
      unfold prepareSendOperation at failed ⊢
      by_cases sending : record.actor.transmit.sendActive = true
      · rw [if_pos sending, if_pos sending]
        simp only [same]
      rw [if_neg sending] at failed
      rw [if_neg sending, if_neg sending]
      cases snapped : record.actor.transmit.snapshot reactor.storage
          reactor.sendDescriptorCapacity reactor.sendControlStride with
      | error cause => simp only [same]
      | ok snapshot =>
          simp only [snapped] at failed ⊢
          cases begins : record.actor.beginSend snapshot with
          | error cause => simp only [same]
          | ok begun =>
              obtain ⟨transmit, transmitted, rfl⟩ := beginSend_eq begins
              have ended := failed_begin transmitted
              simp only [begins] at failed ⊢
              cases queued : reactor.ring.queue _ with
              | error cause => simp only [ended]
              | ok ring => rfl

/-- When a cancellation is prepared, and what stops it. -/
theorem prepareClose_eq
    (consistent : reactor.Consistent)
    (peer : Peer) :
    reactor.prepareClose peer =
      match reactor.getRecord peer with
      | .error cause => (.error cause, reactor)
      | .ok record =>
          let (result, ring, actor) :=
            prepareCloseOperation reactor.ring record.fd record.actor
          (result, setActor { reactor with ring } peer.slot actor) := by
  rw [prepareClose]
  cases found : reactor.getRecord peer with
  | error cause => rfl
  | ok record =>
      have failed :=
        prepareCloseOperation_failed reactor.ring record.fd record.actor
      have same := setActor_record consistent found
      dsimp only
      unfold prepareCloseOperation at failed ⊢
      dsimp only at failed ⊢
      by_cases idle :
          (!record.actor.beginClose.receiveActive) = true ∧
            (!record.actor.beginClose.transmit.sendActive) = true
      · rw [if_pos idle, if_pos idle]
      rw [if_neg idle] at failed
      rw [if_neg idle, if_neg idle]
      cases requests : record.actor.beginClose.requestCancel with
      | error cause =>
          simp only [requests] at failed ⊢
          rw [failed.2, same]
      | ok requested =>
          simp only [requests] at failed ⊢
          cases queued : reactor.ring.queue _ with
          | error cause =>
              simp only [queued] at failed ⊢
              rw [failed.2, same]
          | ok ring => rfl

end Reactor

/-- A preparation that fails, for whatever reason, leaves the submission queue,
the actor with its queues, and the listener as they were. -/
theorem failed_preparation_changes_nothing
    [Native]
    (receiver : Receiver) (listener : Listener) (shared : SharedRing)
    (descriptorScratch controlStorage : Nat)
    (storage : Storage) (ring : Ring) (fd : Fd) (actor : Actor) :
    (match receiver.prepareOperation ring fd actor with
      | (.error _, receiverNow, ringNow, actorNow) =>
          receiverNow = receiver ∧ ringNow = ring ∧ actorNow = actor
      | (.ok _, _, _, _) => True) ∧
    (match prepareSendOperation descriptorScratch controlStorage storage ring fd
        actor with
      | (.error _, ringNow, actorNow) => ringNow = ring ∧ actorNow = actor
      | (.ok _, _, _) => True) ∧
    (match prepareCloseOperation ring fd actor with
      | (.error _, ringNow, actorNow) => ringNow = ring ∧ actorNow = actor
      | (.ok _, _, _) => True) ∧
    (match receiver.prepareStop shared actor with
      | (.error _, sharedNow, actorNow) => sharedNow = shared ∧ actorNow = actor
      | (.ok _, _, _) => True) ∧
    (match listener.prepare shared fd with
      | (.error _, sharedNow, listenerNow) =>
          sharedNow = shared ∧ listenerNow = listener
      | (.ok _, _, _) => True) ∧
    (match listener.prepareStop shared with
      | (.error _, sharedNow, listenerNow) =>
          sharedNow = shared ∧ listenerNow = listener
      | (.ok _, _, _) => True) :=
  ⟨receiver.prepareOperation_failed ring fd actor,
    prepareSendOperation_failed descriptorScratch controlStorage storage ring fd
      actor,
    prepareCloseOperation_failed ring fd actor,
    receiver.prepareStop_failed shared actor,
    listener.prepare_failed shared fd,
    listener.prepareStop_failed shared⟩

end Wayring
