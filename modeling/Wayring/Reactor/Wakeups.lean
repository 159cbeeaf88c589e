import Wayring.Connection.Effects
import Wayring.Reactor.Parking

/-!
# Wakeups

A returned buffer permits one sweep of the parked receives.  The permit lasts
until a sweep prepares a receive, if every sweep finds a peer that waits.
-/

namespace Wayring
namespace Reactor

variable {reactor after : Reactor} {peers : List Peer} {owed : Bool}

/-- Who is parked after a turn. -/
def parkedAfter (parked : List Peer) (turn : Turn) : List Peer :=
  match turn.call, turn.answer with
  | .deferReceive peer, .ok (.deferred true) => parked ++ [peer]
  | .destroyPeer peer, .ok _ => parked.erase peer
  | .prepareDeferredReceives, .ok _ =>
      if turn.before.receiveRearmPending then
        (Parking.sweep turn.before.waits turn.before.ring.free parked).2
      else parked
  | _, _ => parked

/-- Whether a returned buffer is still owed a prepared receive. -/
def owedAfter (owed : Bool) (turn : Turn) : Bool :=
  match turn.call, turn.answer with
  | .releaseReceived _ completion, .ok _ => owed || completion.returnsBuffer
  | .noteReceiveBufferReturned completion, _ =>
      owed || completion.returnsBuffer
  | .prepareDeferredReceives, .ok (.prepared count) =>
      owed && decide (count = 0)
  | _, _ => owed

/-- A sweep that the permit starts meets a peer that waits. -/
def Serves (reactor : Reactor) : Prop :=
  reactor.receiveRearmPending = true → reactor.deferredPeers ≠ [] →
    ∃ peer ∈ reactor.deferredPeers, reactor.waits peer = true

instance (reactor : Reactor) : Decidable reactor.Serves :=
  inferInstanceAs (Decidable (reactor.receiveRearmPending = true →
    reactor.deferredPeers ≠ [] →
      ∃ peer ∈ reactor.deferredPeers, reactor.waits peer = true))

/-- The parked peers are listed, and what is owed has its permit. -/
structure Scheduled
    (reactor : Reactor)
    (parked : List Peer)
    (owed : Bool) : Prop where
  consistent : reactor.Consistent
  waiting : reactor.Waiting parked
  permit : owed = true → reactor.receiveRearmPending = true

/-- A permit that is not owed may be missing. -/
theorem Scheduled.weaken
    {owedNow : Bool}
    (scheduled : reactor.Scheduled peers owed)
    (owes : owedNow = true → owed = true) :
    reactor.Scheduled peers owedNow :=
  { scheduled with permit := fun isOwed => scheduled.permit (owes isOwed) }

/-- Neither the list nor the permit changes. -/
structure Calm (reactor after : Reactor) : Prop where
  consistent : after.Consistent
  waiting : ∀ peers, reactor.Waiting peers → after.Waiting peers
  permit : after.receiveRearmPending = reactor.receiveRearmPending

theorem Calm.refl (consistent : reactor.Consistent) : Calm reactor reactor :=
  ⟨consistent, fun _ waiting => waiting, rfl⟩

/-- What is calm keeps the schedule. -/
theorem Calm.scheduled
    (calm : Calm reactor after)
    (scheduled : reactor.Scheduled peers owed) :
    after.Scheduled peers owed :=
  ⟨calm.consistent, calm.waiting peers scheduled.waiting, fun isOwed =>
    calm.permit.trans (scheduled.permit isOwed)⟩

/-- An actor that stays the same connection, with other pools. -/
theorem Calm.setActor
    {peer : Peer} {actor next : Actor}
    (consistent : reactor.Consistent)
    (present : reactor.Present peer actor)
    (same : Actor.Same actor next)
    (ring : Ring) (storage : Storage) :
    Calm reactor
      (Reactor.setActor { reactor with ring, storage } peer.slot next) where
  consistent := by
    have pools : Consistent { reactor with ring, storage } :=
      ⟨consistent.slots, consistent.active, consistent.named⟩
    exact pools.setActor present.1 same.slot same.generation
  waiting peers waiting :=
    (waiting.pools ring storage).setActor present.1 same.generation
  permit := rfl

theorem Calm.submitted
    {peer : Peer} {actor next : Actor} {kind : Submission.Kind}
    (consistent : reactor.Consistent)
    (submitted : Submitted reactor after peer actor next kind) :
    Calm reactor after where
  consistent := submitted.consistent consistent
  waiting _ waiting := waiting.submitted submitted
  permit := by
    obtain ⟨ring, fd, _, rfl⟩ := submitted.queued
    rfl

/-! ## Calls -/

theorem Calm.attach
    {socketFd : Fd} {config : ActorConfig} {room : Nat}
    (consistent : reactor.Consistent) :
    Calm reactor (reactor.attach socketFd config room).2 := by
  have admitted : ∃ acquired new,
      Admitted reactor (reactor.attach socketFd config room).2 acquired new := by
    have spec := @attach_spec reactor socketFd config room consistent
    generalize reactor.attach socketFd config room = outcome at spec ⊢
    obtain ⟨result, after⟩ := outcome
    cases result with
    | error cause => exact ⟨_, _, spec⟩
    | ok peer => exact ⟨_, _, spec.2⟩
  obtain ⟨acquired, new, admitted⟩ := admitted
  refine ⟨admitted.consistent, fun peers waiting => ?_,
    admitted.receiveRearmPending⟩
  refine waiting.congr admitted.head admitted.tail admitted.place
    fun peer member => ?_
  obtain ⟨actor, present⟩ := waiting.present peer member
  rw [admitted.actor]
  split_ifs with isNew
  · have vacant := admitted.vacant _ isNew.2
    rw [present.1] at vacant
    cases vacant
  · rfl

theorem Calm.prepareReceive
    (consistent : reactor.Consistent)
    (peer : Peer) :
    Calm reactor (reactor.prepareReceive peer).2 := by
  have spec := prepareReceive_spec consistent peer
  generalize reactor.prepareReceive peer = outcome at spec ⊢
  obtain ⟨result, after⟩ := outcome
  cases result with
  | error cause =>
      obtain ⟨rfl, _⟩ := spec
      exact .refl consistent
  | ok _ =>
      obtain ⟨actor, _, submitted⟩ := spec
      exact .submitted consistent submitted

theorem Calm.prepareSend
    [Native]
    (consistent : reactor.Consistent)
    (peer : Peer) :
    Calm reactor (reactor.prepareSend peer).2 := by
  have spec := prepareSend_spec consistent peer
  generalize reactor.prepareSend peer = outcome at spec ⊢
  obtain ⟨result, after⟩ := outcome
  cases result with
  | error cause =>
      subst spec
      exact .refl consistent
  | ok _ =>
      obtain ⟨_, _, _, _, _, submitted⟩ := spec
      exact .submitted consistent submitted

theorem Calm.prepareClose
    (consistent : reactor.Consistent)
    (peer : Peer) :
    Calm reactor (reactor.prepareClose peer).2 := by
  have spec := prepareClose_spec consistent peer
  generalize reactor.prepareClose peer = outcome at spec ⊢
  obtain ⟨result, after⟩ := outcome
  cases result with
  | error cause =>
      subst spec
      exact .refl consistent
  | ok queued =>
      cases queued with
      | false =>
          obtain ⟨actor, present, _, _, rfl⟩ := spec
          exact @Calm.setActor reactor peer actor actor.beginClose consistent
            present ⟨rfl, rfl, rfl, rfl⟩ reactor.ring reactor.storage
      | true =>
          obtain ⟨_, _, _, submitted⟩ := spec
          exact .submitted consistent submitted

theorem Calm.onActor
    {α : Type}
    {operate : Actor → Storage → Except Error α × Actor × Storage}
    (consistent : reactor.Consistent)
    (peer : Peer)
    (same : ∀ actor storage, Actor.Same actor (operate actor storage).2.1) :
    Calm reactor (reactor.onActor peer operate).2 := by
  unfold Reactor.onActor
  cases found : reactor.getActor peer with
  | error cause => exact .refl consistent
  | ok actor =>
      exact .setActor consistent (consistent.getActor_eq_ok_iff.mp found)
        (same actor reactor.storage) reactor.ring _

theorem Calm.complete
    [Native]
    (consistent : reactor.Consistent)
    (completion : Cqe) :
    Calm reactor (reactor.onCompletion completion).2 := by
  unfold Reactor.onCompletion
  cases reactor.ring.deliver completion with
  | none => exact .refl consistent
  | some ring =>
      have delivered : Calm reactor { reactor with ring } :=
        ⟨consistent.withRing ring,
          fun _ waiting => waiting.pools ring reactor.storage, rfl⟩
      simp only
      cases route { reactor with ring } completion with
      | none => exact delivered
      | some routed =>
          simp only [completeRouted]
          cases found : getActor { reactor with ring }
              (routedPeer { reactor with ring } routed) with
          | error cause => exact delivered
          | ok actor =>
              exact .setActor consistent
                (delivered.consistent.getActor_eq_ok_iff.mp found)
                (Actor.completeRouted_same reactor.storage routed.operation
                  completion) ring _

/-! ## Runs -/

/-- Distinct slots hold the parked peers. -/
theorem Waiting.erase_slot
    {peer : Peer} {actor : Actor}
    (waiting : reactor.Waiting peers)
    (present : reactor.Present peer actor) :
    (peers.erase peer).map Peer.slot = (peers.map Peer.slot).erase peer.slot := by
  by_cases member : peer ∈ peers
  · obtain ⟨front, back, rfl⟩ := List.append_of_mem member
    have distinct := waiting.list.distinct
    rw [List.map_append, List.map_cons, List.nodup_append] at distinct
    have outside : peer.slot ∉ front.map Peer.slot := fun inFront =>
      distinct.2.2 _ inFront _ (by simp) rfl
    have outsidePeer : peer ∉ front := fun inFront =>
      outside (List.mem_map_of_mem inFront)
    rw [List.erase_append_right _ outsidePeer, List.erase_cons_head,
      List.map_append, List.map_append, List.map_cons,
      List.erase_append_right _ outside, List.erase_cons_head]
  · have outside : peer.slot ∉ peers.map Peer.slot := by
      intro inSlots
      obtain ⟨other, isOther, sameSlot⟩ := List.mem_map.mp inSlots
      obtain ⟨otherActor, otherPresent⟩ := waiting.present other isOther
      have sameActor : otherActor = actor := by
        have found := otherPresent.1
        rw [sameSlot, present.1] at found
        exact (Option.some.inj found).symm
      have isPeer : other = peer := by
        have sameGeneration : other.generation = peer.generation := by
          rw [← otherPresent.2, sameActor, present.2]
        cases other
        cases peer
        simp only at sameSlot sameGeneration
        rw [sameSlot, sameGeneration]
      exact member (isPeer ▸ isOther)
    rw [List.erase_of_not_mem member, List.erase_of_not_mem outside]

section Runs

variable [Native]

/-- One sweep.  The permit is spent only on a receive that was prepared. -/
theorem Scheduled.prepareDeferredReceives
    {owedNow : Bool}
    (scheduled : reactor.Scheduled peers owed)
    (owes : owedNow = true →
      owedAfter owed (turn .prepareDeferredReceives reactor) = true)
    (serves : owedNow = true → reactor.Serves) :
    let turn := turn .prepareDeferredReceives reactor
    turn.after.Scheduled (parkedAfter peers turn) owedNow := by
  obtain ⟨consistent, waiting, permit⟩ := scheduled
  have spec := prepareDeferredReceives_spec waiting consistent
  simp only [turn, step] at owes ⊢
  generalize reactor.prepareDeferredReceives = outcome at spec owes ⊢
  obtain ⟨result, after⟩ := outcome
  by_cases pending : reactor.receiveRearmPending = true
  · have serving : owedNow = true → peers ≠ [] →
        0 < (Parking.sweep reactor.waits reactor.ring.free peers).1 ∨
          (Parking.sweep reactor.waits reactor.ring.free peers).2 ≠ [] := by
      intro isOwed nonempty
      apply Parking.sweep_serves
      rw [← waiting.deferredPeers_eq]
      apply serves isOwed pending
      rwa [waiting.deferredPeers_eq]
    rw [if_pos pending] at spec
    simp only [parkedAfter, pending, if_true]
    generalize Parking.sweep reactor.waits reactor.ring.free peers = swept
      at spec serving ⊢
    obtain ⟨served, left⟩ := swept
    obtain ⟨rfl, sweptConsistent, sweptWaiting, permitNow⟩ := spec
    refine ⟨sweptConsistent, sweptWaiting, fun isOwed => ?_⟩
    have unserved := owes isOwed
    simp only [owedAfter, Except.map, Bool.and_eq_true, decide_eq_true_eq]
      at unserved
    rw [permitNow]
    by_cases nonempty : peers = []
    · simp [nonempty]
    · rcases serving isOwed nonempty with served | left
      · omega
      · simp [left]
  · rw [if_neg pending] at spec
    cases spec
    simp only [parkedAfter, Except.map, pending]
    refine ⟨consistent, waiting, fun isOwed => permit ?_⟩
    simpa [owedAfter, Except.map] using owes isOwed

/-- A parked peer is scheduled last. -/
theorem Scheduled.deferReceive
    (scheduled : reactor.Scheduled peers owed)
    (peer : Peer) :
    let turn := turn (.deferReceive peer) reactor
    turn.after.Scheduled (parkedAfter peers turn) (owedAfter owed turn) := by
  obtain ⟨consistent, waiting, permit⟩ := scheduled
  have spec := @deferReceive_spec reactor peer _ waiting.list consistent
  have getActor : ∀ parked, (reactor.deferReceive peer).1 = .ok parked →
      ∃ actor, reactor.Present peer actor := by
    intro parked deferred
    unfold Reactor.deferReceive at deferred
    cases found : reactor.getRecord peer with
    | error cause =>
        rw [found] at deferred
        cases deferred
    | ok record => exact ⟨_, consistent.present found⟩
  simp only [turn, step]
  generalize reactor.deferReceive peer = outcome at spec getActor ⊢
  obtain ⟨result, after⟩ := outcome
  cases result with
  | error cause =>
      cases spec
      exact ⟨consistent, waiting, permit⟩
  | ok parked =>
      cases parked with
      | false =>
          obtain ⟨rfl, _⟩ := spec
          exact ⟨consistent, waiting, permit⟩
      | true =>
          obtain ⟨relinked, rearm, _, list⟩ := spec
          obtain ⟨actor, present⟩ := getActor true rfl
          refine ⟨relinked.consistent consistent, ⟨?_, fun other member => ?_⟩,
            fun isOwed => rearm.trans (permit isOwed)⟩
          · simpa [parkedAfter, Except.map] using list
          · have old : other ∈ peers ∨ other = peer := by
              simpa [parkedAfter, Except.map] using member
            unfold Present
            rw [relinked.actor]
            rcases old with isOld | rfl
            · exact waiting.present other isOld
            · exact ⟨actor, present⟩

/-- A destroyed peer is not scheduled. -/
theorem Scheduled.destroyPeer
    (scheduled : reactor.Scheduled peers owed)
    (peer : Peer) :
    let turn := turn (.destroyPeer peer) reactor
    turn.after.Scheduled (parkedAfter peers turn) (owedAfter owed turn) := by
  obtain ⟨consistent, waiting, permit⟩ := scheduled
  have spec := destroyPeer_spec consistent peer
  simp only [turn, step]
  generalize reactor.destroyPeer peer = outcome at spec ⊢
  obtain ⟨result, after⟩ := outcome
  cases result with
  | error cause =>
      cases spec
      exact ⟨consistent, waiting, permit⟩
  | ok _ =>
      obtain ⟨actor, destroyed⟩ := spec
      refine ⟨destroyed.consistent, ⟨?_, fun other member => ?_⟩,
        fun isOwed => destroyed.receiveRearmPending.trans (permit isOwed)⟩
      · simp only [parkedAfter, Except.map, waiting.erase_slot destroyed.present]
        exact destroyed.parked _ waiting.list
      · have remains : other ∈ peers.erase peer := by
          simpa [parkedAfter, Except.map] using member
        obtain ⟨otherActor, present⟩ :=
          waiting.present other (List.mem_of_mem_erase remains)
        have apart : other.slot ≠ peer.slot := by
          intro same
          have inside := List.mem_map_of_mem (f := Peer.slot) remains
          rw [waiting.erase_slot destroyed.present, same] at inside
          exact waiting.list.distinct.not_mem_erase inside
        refine ⟨otherActor, ?_, present.2⟩
        rw [destroyed.actor, if_neg apart]
        exact present.1

omit [Native] in
/-- A buffer that came back sets the permit. -/
theorem Scheduled.returned
    (scheduled : reactor.Scheduled peers owed)
    (completion : Cqe) :
    (reactor.noteReceiveBufferReturned completion).Scheduled peers
      (owed || completion.returnsBuffer) := by
  obtain ⟨consistent, waiting, permit⟩ := scheduled
  unfold noteReceiveBufferReturned
  split_ifs with returns
  · exact ⟨⟨consistent.slots, consistent.active, consistent.named⟩,
      waiting.congr rfl rfl (fun _ => rfl) fun _ _ => rfl, fun _ => rfl⟩
  · refine ⟨consistent, waiting, fun isOwed => permit ?_⟩
    simpa [returns] using isOwed

/-- Every call keeps the schedule, apart from sweeps that waste the permit. -/
theorem Scheduled.turn
    {owedNow : Bool}
    (scheduled : reactor.Scheduled peers owed)
    (call : Call)
    (owes : owedNow = true → owedAfter owed (turn call reactor) = true)
    (serves : owedNow = true → call = .prepareDeferredReceives →
      reactor.Serves) :
    let turn := turn call reactor
    turn.after.Scheduled (parkedAfter peers turn) owedNow := by
  have consistent := scheduled.consistent
  cases call with
  | attach socketFd config room =>
      exact ((Calm.attach consistent).scheduled scheduled).weaken owes
  | prepareReceive peer =>
      exact ((Calm.prepareReceive consistent peer).scheduled scheduled).weaken
        owes
  | prepareSend peer =>
      exact ((Calm.prepareSend consistent peer).scheduled scheduled).weaken owes
  | prepareClose peer =>
      exact ((Calm.prepareClose consistent peer).scheduled scheduled).weaken
        owes
  | enqueue peer bytes descriptors room =>
      have calm : Calm reactor
          (step (.enqueue peer bytes descriptors room) reactor).2 :=
        Calm.onActor consistent peer fun actor storage =>
          Actor.enqueue_same storage bytes descriptors room
      exact (calm.scheduled scheduled).weaken owes
  | beginClose peer =>
      have calm : Calm reactor (step (.beginClose peer) reactor).2 :=
        Calm.onActor consistent peer fun _ _ => ⟨rfl, rfl, rfl, rfl⟩
      exact (calm.scheduled scheduled).weaken owes
  | postError peer objectId code message room =>
      have calm : Calm reactor
          (step (.postError peer objectId code message room) reactor).2 :=
        Calm.onActor consistent peer fun _ _ =>
          Actor.postError_same objectId code message room
      exact (calm.scheduled scheduled).weaken owes
  | complete completion =>
      exact ((Calm.complete consistent completion).scheduled scheduled).weaken
        owes
  | deferReceive peer => exact (scheduled.deferReceive peer).weaken owes
  | releaseReceived peer completion =>
      refine weaken ?_ owes
      simp only [Reactor.turn, step, releaseReceived]
      cases reactor.getRecord peer with
      | error cause => exact scheduled
      | ok record =>
          simp only
          split_ifs
          · exact scheduled.returned completion
          · exact scheduled
  | noteReceiveBufferReturned completion =>
      exact (scheduled.returned completion).weaken owes
  | prepareDeferredReceives =>
      exact scheduled.prepareDeferredReceives owes fun isOwed =>
        serves isOwed rfl
  | destroyPeer peer => exact (scheduled.destroyPeer peer).weaken owes
  | submit free =>
      have calm : Calm reactor
          { reactor with ring := { reactor.ring with free } } :=
        ⟨consistent.withRing _, fun _ waiting => waiting.pools _ _, rfl⟩
      exact (calm.scheduled scheduled).weaken owes

/-- A run whose sweeps all serve someone keeps its permits. -/
theorem Scheduled.run
    {owedNow : Bool}
    (scheduled : reactor.Scheduled peers owed)
    (calls : List Call)
    (owes : owedNow = true →
      (turns calls reactor).foldl owedAfter owed = true)
    (serves : owedNow = true → ∀ turn ∈ turns calls reactor,
      turn.call = .prepareDeferredReceives → turn.before.Serves) :
    (run calls reactor).Scheduled
      ((turns calls reactor).foldl parkedAfter peers) owedNow := by
  induction calls generalizing reactor peers owed with
  | nil => exact scheduled.weaken owes
  | cons call calls run_ih =>
      have next : (Reactor.turn call reactor).after.Scheduled
          (parkedAfter peers (Reactor.turn call reactor))
          (owedNow && owedAfter owed (Reactor.turn call reactor)) := by
        apply scheduled.turn call
        · intro both
          exact (Bool.and_eq_true_iff.mp both).2
        · intro both
          exact serves (Bool.and_eq_true_iff.mp both).1 _
            (List.mem_cons_self ..)
      apply run_ih next
      · intro isOwed
        rw [isOwed, Bool.true_and]
        exact owes isOwed
      · intro isOwed turn member
        exact serves isOwed turn (List.mem_cons_of_mem _ member)

omit [Native] in
/-- In a new reactor nobody is parked. -/
theorem start_scheduled
    (free sendDescriptorCapacity sendControlStride : Nat)
    (fragmentBlocks : SharedBlocks)
    (storage : Storage) :
    (start free sendDescriptorCapacity sendControlStride fragmentBlocks
      storage).Scheduled [] false where
  consistent :=
    { slots := Slots.wellFormed_empty
      active := fun _ => rfl
      named := fun _ _ found => nomatch found }
  waiting :=
    ⟨Parked.empty rfl rfl fun _ => rfl, fun _ member => nomatch member⟩
  permit owed := nomatch owed

/-- The deferred list is the queue of parked peers, all of them live, and a
permit lasts until a receive was prepared, as long as no sweep meets only peers
that no longer wait. -/
theorem parked_peers_keep_permits
    (free sendDescriptorCapacity sendControlStride : Nat)
    (fragmentBlocks : SharedBlocks)
    (storage : Storage)
    (calls : List Call) :
    let reactor := start free sendDescriptorCapacity sendControlStride
      fragmentBlocks storage
    let turns := turns calls reactor
    let parked := turns.foldl parkedAfter []
    let after := run calls reactor
    after.deferredPeers = parked ∧ parked.Nodup ∧
      (∀ peer ∈ parked, ∃ actor, after.getActor peer = .ok actor) ∧
      ((∀ turn ∈ turns, turn.call = .prepareDeferredReceives →
          turn.before.Serves) →
        turns.foldl owedAfter false = true →
          after.receiveRearmPending = true ∧
          after.deferredReceivesPending = decide (parked ≠ [])) := by
  intro reactor turns parked after
  have scheduled := start_scheduled free sendDescriptorCapacity
    sendControlStride fragmentBlocks storage
  have listed := @Scheduled.run _ _ _ _ false scheduled calls nofun nofun
  refine ⟨listed.waiting.deferredPeers_eq, listed.waiting.nodup,
    fun peer member => ?_, fun serves owed => ?_⟩
  · obtain ⟨actor, present⟩ := listed.waiting.present peer member
    exact ⟨actor, listed.consistent.getActor_eq_ok_iff.mpr present⟩
  · have permitted := @Scheduled.run _ _ _ _ true scheduled calls
      (fun _ => owed) fun _ => serves
    have pending := permitted.permit rfl
    have head := permitted.waiting.list.forward.head_eq
    refine ⟨pending, ?_⟩
    rw [deferredReceivesPending, pending, head, List.head?_map]
    change (Option.map _ parked.head?).isSome = _
    cases parked <;> rfl

end Runs

/-! ## Permits that are kept and lost -/

section Sample

local instance littleEndian : Native := ⟨.little⟩

/-- A reactor for eight peers. -/
def sampleReactor : Reactor :=
  start 8 0 0 { blockSize := 4 } { blocks := { blockSize := 4 }, fds := {} }

/-- Connections that queue nothing. -/
def sampleConfig : ActorConfig :=
  { receivedFdBudget := 0, transmitByteBudget := 0, transmitFdBudget := 0 }

/-- A sweep serves the peer that is parked.  A second buffer comes back before
another peer is parked. -/
def parkingCalls : List Call :=
  [ .attach 3 sampleConfig 5,
    .deferReceive { slot := 0, generation := 1 },
    .noteReceiveBufferReturned
      { userData := 0, result := .count 1, buffer := true },
    .prepareDeferredReceives,
    .noteReceiveBufferReturned
      { userData := 0, result := .count 1, buffer := true },
    .attach 4 sampleConfig 5,
    .deferReceive { slot := 1, generation := 1 } ]

/-- The second permit waits for the peer that was parked after it. -/
theorem parked_peers_keep_permits_sample :
    let after := run parkingCalls sampleReactor
    after.deferredPeers = [{ slot := 1, generation := 1 }] ∧
      after.receiveRearmPending = true ∧
      after.deferredReceivesPending = true := by
  intro after
  obtain ⟨listed, _, _, permitted⟩ := parked_peers_keep_permits 8 0 0
    { blockSize := 4 } { blocks := { blockSize := 4 }, fds := {} } parkingCalls
  obtain ⟨permit, pending⟩ := permitted (by decide) (by decide)
  exact ⟨listed.trans (by decide), permit, pending.trans (by decide)⟩

/-- A sweep that meets only a closing peer, before another one is parked. -/
def closingCalls : List Call :=
  [ .attach 3 sampleConfig 5,
    .deferReceive { slot := 0, generation := 1 },
    .beginClose { slot := 0, generation := 1 },
    .noteReceiveBufferReturned
      { userData := 0, result := .count 1, buffer := true },
    .prepareDeferredReceives,
    .attach 4 sampleConfig 5,
    .deferReceive { slot := 1, generation := 1 },
    .prepareDeferredReceives ]

/-- The permit is spent although no receive was prepared, and the open peer that
was parked later is left waiting. -/
theorem closing_peer_spends_permit :
    let after := run closingCalls sampleReactor
    (turns closingCalls sampleReactor).foldl owedAfter false = true ∧
      after.receiveRearmPending = false ∧
      after.deferredPeers = [{ slot := 1, generation := 1 }] ∧
      after.waits { slot := 1, generation := 1 } = true ∧
      after.prepareDeferredReceives.1 = .ok 0 := by
  decide

end Sample

end Reactor
end Wayring
