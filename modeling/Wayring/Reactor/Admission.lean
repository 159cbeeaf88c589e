import Wayring.Reactor.Listener
import Wayring.Reactor.Operations

/-!
# Attaching sockets

Attaching a connected socket and releasing it, with the descriptors that are
closed on the way.  A socket that was handed over ends up in one record, or is
closed once.
-/

namespace Wayring
namespace Reactor

/-- Attach a socket.  The second result lists the descriptors that are closed:
every failure closes the socket. -/
def attachClosing
    (reactor : Reactor)
    (socketFd : Fd)
    (config : ActorConfig)
    (room : Nat) : Except Error Peer × List Fd × Reactor :=
  if config.transmitFdBudget > reactor.sendDescriptorCapacity then
    (.error .sendDescriptorCapacityExceeded, [socketFd], reactor)
  else
    let grows := reactor.slots.freeHead = none
    match reactor.slots.acquire (room > 0) with
    | (.error cause, slots) =>
        (.error cause, [socketFd], { reactor with slots })
    | (.ok peer, slots) =>
        let reactor := { reactor with slots }
        match reactor.growRecords peer.slot
            (if grows then room - 1 else room) with
        | (.error cause, reactor) =>
            (.error cause, [socketFd],
              { reactor with slots := (reactor.slots.deactivate peer).2 })
        | (.ok room, reactor) =>
            if room < 3 then
              (.error .outOfMemory, [socketFd],
                { reactor with slots := (reactor.slots.deactivate peer).2 })
            else
              (.ok peer, [],
                reactor.setRecord peer.slot <| some
                  { actor := Actor.initSharedFragments peer.slot
                      peer.generation config.receivedFdBudget
                      config.transmitByteBudget config.transmitFdBudget
                    fd := socketFd })

/-- Release an idle connection and close its socket. -/
def destroyClosing
    (reactor : Reactor)
    (peer : Peer) : Except Error Unit × List Fd × Reactor :=
  match reactor.getRecord peer with
  | .error cause => (.error cause, [], reactor)
  | .ok record =>
      match reactor.destroyPeer peer with
      | (.error cause, reactor) => (.error cause, [], reactor)
      | (.ok _, reactor) => (.ok (), [record.fd], reactor)

/-- Release a connection whose admission failed, which the source asserts to
succeed. -/
def abandon
    (reactor : Reactor)
    (peer : Peer)
    (cause : Error) : Except Error Peer × List Fd × Reactor :=
  match reactor.destroyClosing peer with
  | (.error _, closed, reactor) => (.error .unreachable, closed, reactor)
  | (.ok _, closed, reactor) => (.error cause, closed, reactor)

/-- Attach a socket and queue its first receive. -/
def attachReceiving
    (reactor : Reactor)
    (socketFd : Fd)
    (config : ActorConfig)
    (room : Nat) : Except Error Peer × List Fd × Reactor :=
  match reactor.attachClosing socketFd config room with
  | (.error cause, closed, reactor) => (.error cause, closed, reactor)
  | (.ok peer, closed, reactor) =>
      match reactor.prepareReceive peer with
      | (.error cause, reactor) =>
          let (result, more, reactor) := reactor.abandon peer cause
          (result, closed ++ more, reactor)
      | (.ok _, reactor) => (.ok peer, closed, reactor)

variable {reactor middle after : Reactor} {peer : Peer} {socketFd : Fd}
  {config : ActorConfig} {room : Nat}

/-- What is closed aside, this is how a socket is attached. -/
theorem attachClosing_eq
    (reactor : Reactor) (socketFd : Fd) (config : ActorConfig) (room : Nat) :
    let outcome := reactor.attachClosing socketFd config room
    (outcome.1, outcome.2.2) = reactor.attach socketFd config room := by
  unfold attachClosing attach
  split_ifs with exceeds
  · rfl
  generalize reactor.slots.acquire (room > 0) = outcome
  obtain ⟨result, slots⟩ := outcome
  cases result with
  | error cause => rfl
  | ok peer =>
      simp only
      generalize (if reactor.slots.freeHead = none then room - 1 else room) =
        roomLeft
      generalize growRecords { reactor with slots } peer.slot roomLeft = outcome
      obtain ⟨result, grown⟩ := outcome
      cases result with
      | error cause => rfl
      | ok roomLeft =>
          simp only
          split_ifs with short
          · rfl
          · rfl

/-- What a failed admission leaves as it was. -/
structure Restored (reactor after : Reactor) : Prop where
  consistent : after.Consistent
  activeCount : after.slots.activeCount = reactor.slots.activeCount
  record : ∀ slot, after.record slot = reactor.record slot
  ring : after.ring = reactor.ring

/-- A record was added in a vacant slot. -/
structure Attached
    (reactor after : Reactor)
    (peer : Peer)
    (new : ConnectionRecord) : Prop where
  consistent : after.Consistent
  activeCount : after.slots.activeCount = reactor.slots.activeCount + 1
  vacant : reactor.record peer.slot = none
  record : ∀ slot, after.record slot =
    if slot = peer.slot then some new else reactor.record slot
  slot : new.actor.slot = peer.slot
  generation : new.actor.generation = peer.generation

/-- An acquired slot is counted. -/
theorem activeCount_acquire
    {slots next : Slots} {granted : Bool}
    (acquired : slots.acquire granted = (.ok peer, next)) :
    next.activeCount = slots.activeCount + 1 := by
  unfold Slots.acquire at acquired
  cases head : slots.freeHead with
  | none =>
      simp only [head, Slots.append] at acquired
      split_ifs at acquired
      · cases acquired
      · cases acquired
      · cases acquired
        rfl
  | some index =>
      simp only [head] at acquired
      cases acquired
      simp only [Slots.activate, Slots.recycle]
      split
      · rfl
      · rfl

/-- A freed slot is not counted. -/
theorem activeCount_deactivate
    {slots : Slots}
    (released : (slots.deactivate peer).1 = .ok ()) :
    (slots.deactivate peer).2.activeCount = slots.activeCount - 1 := by
  unfold Slots.deactivate at released ⊢
  cases checked : slots.check peer with
  | error cause =>
      rw [checked] at released
      cases released
  | ok _ => rfl

/-- Giving an acquired slot back restores the count of active slots. -/
theorem activeCount_restored
    {slots next : Slots} {granted : Bool}
    (wellFormed : slots.WellFormed)
    (acquired : slots.acquire granted = (.ok peer, next)) :
    (next.deactivate peer).2.activeCount = slots.activeCount := by
  have spec := Slots.acquire_spec wellFormed granted
  rw [acquired] at spec
  have released := Slots.deactivate_spec spec.wellFormed
    (by rw [spec.active, if_pos rfl] : next.active peer.slot = _)
  rw [activeCount_deactivate released.1, activeCount_acquire acquired,
    Nat.add_sub_cancel]

/-- Attaching a socket closes it or adds its record. -/
theorem attachClosing_spec
    (consistent : reactor.Consistent)
    (socketFd : Fd) (config : ActorConfig) (room : Nat) :
    match reactor.attachClosing socketFd config room with
    | (.error _, closed, after) =>
        closed = [socketFd] ∧ Restored reactor after
    | (.ok peer, closed, after) =>
        closed = [] ∧ after.ring = reactor.ring ∧
          Attached reactor after peer
            { actor := Actor.initSharedFragments peer.slot peer.generation
                config.receivedFdBudget config.transmitByteBudget
                config.transmitFdBudget
              fd := socketFd } := by
  have attached := @attach_spec reactor socketFd config room consistent
  have same := attachClosing_eq reactor socketFd config room
  rw [← same] at attached
  clear same
  unfold attachClosing at attached ⊢
  split_ifs at attached ⊢ with exceeds
  · exact ⟨rfl, consistent, rfl, fun _ => rfl, rfl⟩
  have spec := Slots.acquire_spec consistent.slots (room > 0)
  cases acquired : reactor.slots.acquire (room > 0) with
  | mk result slots =>
  cases result with
  | error cause =>
      simp only [acquired] at spec ⊢
      rw [spec]
      exact ⟨trivial, consistent, rfl, fun _ => rfl, rfl⟩
  | ok peer =>
      simp only [acquired] at spec attached ⊢
      have count := activeCount_restored consistent.slots acquired
      generalize (if reactor.slots.freeHead = none then room - 1 else room) =
        roomLeft at attached ⊢
      obtain ⟨records, grown, sameRecords, inside⟩ :=
        growRecords_spec { reactor with slots } peer.slot roomLeft
      generalize growRecords { reactor with slots } peer.slot roomLeft =
        outcome at attached grown inside ⊢
      obtain ⟨result, grownReactor⟩ := outcome
      simp only at grown
      subst grown
      cases result with
      | error cause =>
          exact ⟨rfl, attached.consistent, count, sameRecords, rfl⟩
      | ok roomLeft =>
          simp only at attached ⊢
          split_ifs at attached ⊢ with short
          · exact ⟨rfl, attached.consistent, count, sameRecords, rfl⟩
          have vacant :=
            attached.2.vacant peer.slot rfl
          refine ⟨rfl, rfl,
            { consistent := attached.2.consistent
              activeCount := activeCount_acquire acquired
              vacant := Option.map_eq_none_iff.mp vacant
              record := fun slot => ?_
              slot := rfl
              generation := rfl }⟩
          rw [record_setRecord (.inr (inside roomLeft rfl))]
          split_ifs
          · rfl
          · exact sameRecords slot

/-! ## Unwinding -/

/-- An actor without leases gives nothing back. -/
theorem deinit_initSharedFragments
    (slot generation receivedFdBudget transmitByteBudget transmitFdBudget : Nat)
    (fragmentBlocks : SharedBlocks) (storage : Storage) :
    (Actor.initSharedFragments slot generation receivedFdBudget
      transmitByteBudget transmitFdBudget).deinit fragmentBlocks storage =
        .ok (fragmentBlocks, storage) := by
  have chain : Tx.Queue.releasePrivateChain storage.blocks.pool.nodes.length
      none storage.blocks = (.ok (), storage.blocks) := by
    unfold Tx.Queue.releasePrivateChain
    rfl
  have queue : (Tx.Queue.init transmitByteBudget transmitFdBudget).deinit
      storage = (.ok [], storage) := by
    simp only [Tx.Queue.deinit, Tx.Queue.init, chain]
    rfl
  have framer : Framer.initShared.deinit fragmentBlocks =
      (.ok (), fragmentBlocks) := rfl
  have received : (FdQueue.init receivedFdBudget).deinit storage.fds =
      (.ok [], FdQueue.init receivedFdBudget, storage.fds) := rfl
  simp only [Actor.deinit, Actor.initSharedFragments, framer, received, queue]

/-- A new connection that is released again leaves nothing behind but its
closed socket. -/
theorem Attached.abandon
    {slot generation receivedFdBudget transmitByteBudget transmitFdBudget :
      Nat}
    (attached : Attached reactor after peer
      { actor := Actor.initSharedFragments slot generation receivedFdBudget
          transmitByteBudget transmitFdBudget
        fd := socketFd })
    (ring : after.ring = reactor.ring)
    (cause : Error) :
    ∃ last, after.abandon peer cause = (.error cause, [socketFd], last) ∧
      Restored reactor last := by
  have recorded := (attached.record peer.slot).trans (if_pos rfl)
  have found := attached.consistent.getRecord_eq_ok_iff.mpr
    ⟨recorded, attached.generation⟩
  have isActive : after.slots.active peer.slot = some peer.generation := by
    rw [attached.consistent.active, Reactor.actor, recorded]
    exact congrArg some attached.generation
  have released := (Slots.deactivate_spec attached.consistent.slots isActive).1
  have count := activeCount_deactivate released
  have destroyed := destroyPeer_spec attached.consistent peer
  have idle : (Actor.initSharedFragments slot generation receivedFdBudget
      transmitByteBudget transmitFdBudget).canDeinit = true := rfl
  have computed : after.destroyPeer peer = (.ok (),
      setRecord { after with slots := (after.slots.deactivate peer).2 }
        peer.slot none) := by
    simp only [destroyPeer, found, idle, Bool.not_true, Bool.false_eq_true,
      if_false, deinit_initSharedFragments, releaseDeferred]
    generalize after.slots.deactivate peer = outcome at released ⊢
    obtain ⟨result, slots⟩ := outcome
    cases released
    rfl
  rw [computed] at destroyed
  obtain ⟨_, consistent⟩ := destroyed
  refine ⟨_, by simp only [Reactor.abandon, destroyClosing, found, computed],
    { consistent := consistent.consistent
      activeCount := ?_
      record := fun index => ?_
      ring }⟩
  · refine count.trans ?_
    rw [attached.activeCount, Nat.add_sub_cancel]
  · rw [record_setRecord (.inl (by
      rw [Reactor.record]
      exact (congrArg Option.isSome recorded)))]
    split_ifs with here
    · rw [here, attached.vacant]
    · exact (attached.record index).trans (if_neg here)

/-- The socket was attached, and its receive is queued. -/
structure Receiving
    (reactor after : Reactor)
    (peer : Peer)
    (socketFd : Fd) : Prop where
  consistent : after.Consistent
  activeCount : after.slots.activeCount = reactor.slots.activeCount + 1
  vacant : reactor.record peer.slot = none
  owner : ∃ record, after.record peer.slot = some record ∧
    record.fd = socketFd ∧ record.actor.generation = peer.generation
  others : ∀ slot, slot ≠ peer.slot → after.record slot = reactor.record slot
  queued : ∃ userData, reactor.ring.queue
    { userData, fd := socketFd, kind := .receive } = .ok after.ring

/-- The receive of a new connection. -/
theorem Attached.prepareReceive
    {slot generation receivedFdBudget transmitByteBudget transmitFdBudget :
      Nat}
    (attached : Attached reactor after peer
      { actor := Actor.initSharedFragments slot generation receivedFdBudget
          transmitByteBudget transmitFdBudget
        fd := socketFd })
    (ring : after.ring = reactor.ring) :
    match after.prepareReceive peer with
    | (.error _, last) => last = after
    | (.ok _, last) => Receiving reactor last peer socketFd := by
  have recorded := (attached.record peer.slot).trans (if_pos rfl)
  have found := attached.consistent.getRecord_eq_ok_iff.mpr
    ⟨recorded, attached.generation⟩
  have spec := prepareReceive_spec attached.consistent peer
  have arms : (Actor.initSharedFragments slot generation receivedFdBudget
      transmitByteBudget transmitFdBudget).armReceive =
      .ok (armed (Actor.initSharedFragments slot generation receivedFdBudget
        transmitByteBudget transmitFdBudget)) := rfl
  unfold Reactor.prepareReceive at spec ⊢
  simp only [found, arms] at spec ⊢
  cases queued : after.ring.queue
      { userData := ((armed (Actor.initSharedFragments slot generation
          receivedFdBudget transmitByteBudget transmitFdBudget)).token
            .receive).encode
        fd := socketFd
        kind := .receive } with
  | error cause => rfl
  | ok ringNow =>
      simp only [queued] at spec
      obtain ⟨actor, _, submitted⟩ := spec
      have updated : ∀ index, Reactor.record (setActor
          { after with ring := ringNow } peer.slot
          (armed (Actor.initSharedFragments slot generation receivedFdBudget
            transmitByteBudget transmitFdBudget))) index =
          if index = peer.slot then
            (after.record peer.slot).map fun record => { record with
              actor := armed (Actor.initSharedFragments slot generation
                receivedFdBudget transmitByteBudget transmitFdBudget) }
          else after.record index := fun index =>
        record_updateRecord _ index
      refine
        { consistent := submitted.consistent attached.consistent
          activeCount := attached.activeCount
          vacant := attached.vacant
          owner := ?_
          others := fun index other => ?_
          queued := ⟨_, ring ▸ queued⟩ }
      · rw [updated, if_pos rfl, recorded]
        exact ⟨_, rfl, rfl, attached.generation⟩
      · rw [updated, if_neg other]
        exact (attached.record index).trans (if_neg other)

/-- Attaching a socket and queueing its receive: the socket ends up in the
record of the new peer, or is closed once and nothing else happened. -/
theorem attachReceiving_spec
    (consistent : reactor.Consistent)
    (socketFd : Fd) (config : ActorConfig) (room : Nat) :
    match reactor.attachReceiving socketFd config room with
    | (.error _, closed, after) =>
        closed = [socketFd] ∧ Restored reactor after
    | (.ok peer, closed, after) =>
        closed = [] ∧ Receiving reactor after peer socketFd := by
  have spec := attachClosing_spec consistent socketFd config room
  unfold attachReceiving
  generalize reactor.attachClosing socketFd config room = outcome at spec ⊢
  obtain ⟨result, closed, attachedReactor⟩ := outcome
  cases result with
  | error cause => exact spec
  | ok peer =>
      obtain ⟨rfl, ring, attached⟩ := spec
      have received := attached.prepareReceive ring
      simp only
      generalize attachedReactor.prepareReceive peer = outcome at received ⊢
      obtain ⟨result, last⟩ := outcome
      cases result with
      | error cause =>
          cases received
          obtain ⟨restored, abandoned, unchanged⟩ := attached.abandon ring cause
          simp only [abandoned]
          exact ⟨rfl, unchanged⟩
      | ok _ => exact ⟨rfl, received⟩

end Reactor
end Wayring
