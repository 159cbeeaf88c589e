import Wayring.Reactor.Deferred

/-!
# Kernel operations

Each operation changes the actor of one peer.  One that is queued also appears
in the ring, with the peer's token.
-/

namespace Wayring

/-- The operation that a submission starts. -/
def Submission.Kind.operation : Submission.Kind → Operation
  | .receive => .receive
  | .send _ => .send
  | .cancel => .cancel

/-- A submission is queued while there is room. -/
theorem Ring.queue_eq_ok_iff
    {ring next : Ring} {submission : Submission} :
    ring.queue submission = .ok next ↔
      ring.free = next.free + 1 ∧
        next.outstanding = ring.outstanding ++ [submission] := by
  obtain ⟨free, outstanding⟩ := ring
  obtain ⟨freeNow, outstandingNow⟩ := next
  cases free with
  | zero => simp [Ring.queue]
  | succ free =>
      simp only [Ring.queue, Except.ok.injEq, Ring.mk.injEq,
        Nat.add_right_cancel_iff, eq_comm]

/-- A full ring refuses. -/
theorem Ring.queue_eq_error_iff
    {ring : Ring} {submission : Submission} {cause : Error} :
    ring.queue submission = .error cause ↔
      ring.free = 0 ∧ cause = .submissionQueueFull := by
  unfold Ring.queue
  cases ring.free <;> simp [eq_comm]

namespace Reactor

variable {reactor middle after : Reactor} {peer : Peer} {slot : Nat}
  {actor next : Actor}

/-- An operation of a peer is queued, and its actor knows. -/
structure Submitted
    (reactor after : Reactor)
    (peer : Peer)
    (actor next : Actor)
    (kind : Submission.Kind) : Prop where
  present : reactor.Present peer actor
  slot : next.slot = actor.slot
  generation : next.generation = actor.generation
  queued : ∃ ring fd,
    reactor.ring.queue
        { userData := (actor.token kind.operation).encode, fd, kind } =
      .ok ring ∧
    after = setActor { reactor with ring } peer.slot next

/-- What a peer's operation may change. -/
theorem Consistent.withRing
    (consistent : reactor.Consistent)
    (ring : Ring) : Consistent { reactor with ring } where
  slots := consistent.slots
  active := consistent.active
  named := consistent.named

/-- A submission keeps a reactor consistent. -/
theorem Submitted.consistent
    {kind : Submission.Kind}
    (submitted : Submitted reactor after peer actor next kind)
    (consistent : reactor.Consistent) : after.Consistent := by
  obtain ⟨ring, fd, _, rfl⟩ := submitted.queued
  exact (consistent.withRing ring).setActor submitted.present.1 submitted.slot
    submitted.generation

/-! ## Receives -/

/-- An actor with an armed receive. -/
def armed (actor : Actor) : Actor :=
  { actor with state := { actor.state with receiving := true } }

/-- An open connection without a receive waits for one. -/
def Waits (actor : Actor) : Prop :=
  actor.lifecycle = .open ∧ actor.receiveActive = false

instance : Decidable (Waits actor) :=
  inferInstanceAs (Decidable (_ ∧ _))

/-- Of all phases, one is open. -/
theorem lifecycle_eq_open_iff :
    actor.lifecycle = .open ↔ actor.state.phase = .open := by
  unfold Actor.lifecycle State.lifecycle Phase.lifecycle
  cases actor.state.phase <;> simp

/-- A receive is armed once, on an open connection. -/
theorem armReceive_eq (actor : Actor) :
    actor.armReceive =
      if Waits actor then .ok (armed actor)
      else if actor.state.phase = .open then .error .receiveAlreadyActive
      else .error .closing := by
  unfold Actor.armReceive Actor.advance State.step Waits Actor.receiveActive
  simp only [lifecycle_eq_open_iff]
  cases phase : actor.state.phase <;> cases actor.state.receiving <;>
    simp [Except.map, armed, phase]

/-- A receive is queued for a peer that waits, if there is an entry. -/
theorem prepareReceive_spec
    (consistent : reactor.Consistent)
    (peer : Peer) :
    match reactor.prepareReceive peer with
    | (.error cause, after) => after = reactor ∧
        ∀ actor, reactor.Present peer actor → Waits actor →
          cause = .submissionQueueFull ∧ reactor.ring.free = 0
    | (.ok _, after) => ∃ actor, Waits actor ∧
        Submitted reactor after peer actor (armed actor) .receive := by
  unfold prepareReceive
  cases found : reactor.getRecord peer with
  | error cause =>
      refine ⟨rfl, fun actor present _ => ?_⟩
      have got := consistent.getActor_eq_ok_iff.mpr present
      rw [getActor, found] at got
      cases got
  | ok record =>
      have present := consistent.present found
      have only : ∀ actor, reactor.Present peer actor → actor = record.actor :=
        fun actor other => Option.some.inj (other.1.symm.trans present.1)
      simp only [armReceive_eq]
      by_cases waits : Waits record.actor
      · rw [if_pos waits]
        simp only
        cases queued : reactor.ring.queue
            { userData := (Actor.token (armed record.actor) .receive).encode
              fd := record.fd
              kind := .receive } with
        | error cause =>
            obtain ⟨full, rfl⟩ := Ring.queue_eq_error_iff.mp queued
            exact ⟨rfl, fun _ _ _ => ⟨rfl, full⟩⟩
        | ok ring =>
            exact ⟨record.actor, waits, present, rfl, rfl, ring, record.fd,
              queued, rfl⟩
      · rw [if_neg waits]
        split_ifs
        all_goals
          refine ⟨rfl, fun actor other waitsToo => ?_⟩
          exact absurd (only actor other ▸ waitsToo) waits

/-! ## Sends -/

/-- Writing an actor back changes nothing. -/
theorem setActor_self
    (found : reactor.actor slot = some actor) :
    reactor.setActor slot actor = reactor := by
  have records : reactor.records.set slot
      ((reactor.record slot).map fun record => { record with actor }) =
        reactor.records := by
    unfold Reactor.actor record at found
    apply List.ext_getElem?
    intro index
    rw [List.getElem?_set]
    cases stored : reactor.records[slot]? with
    | none =>
        rw [stored] at found
        cases found
    | some entry =>
        rw [stored] at found
        cases entry with
        | none => cases found
        | some entry =>
            cases found
            have inside := (List.getElem?_eq_some_iff.mp stored).1
            split_ifs with same
            · rw [← same, stored, record, stored]
              rfl
            · rfl
  unfold setActor updateRecord setRecord
  rw [records]

/-- A send that began, on a queue without one. -/
theorem begin_eq
    {queue begun : Tx.Queue} {snapshot : Tx.Snapshot}
    (begins : queue.begin snapshot = .ok begun) :
    queue.reservationActive = false ∧ queue.active = none ∧
      begun = { queue with
        active := some
          { byteCount := snapshot.byteCount
            descriptorCount := snapshot.descriptorCount } } := by
  unfold Tx.Queue.begin Tx.Queue.sendActive at begins
  split_ifs at begins with reserved active invalid
  cases begins
  exact ⟨by simpa using reserved, by simpa using active, rfl⟩

/-- A send that could not be queued leaves no trace. -/
theorem failed_begin
    {queue begun : Tx.Queue} {snapshot : Tx.Snapshot}
    (begins : queue.begin snapshot = .ok begun) :
    begun.failed = .ok queue := by
  obtain ⟨settled, idle, rfl⟩ := begin_eq begins
  obtain ⟨⟩ := queue
  simp only at settled idle
  subst settled idle
  rfl

/-- A send of what is queued, if there is an entry. -/
theorem prepareSend_spec
    [Native]
    (consistent : reactor.Consistent)
    (peer : Peer) :
    match reactor.prepareSend peer with
    | (.error _, after) => after = reactor
    | (.ok _, after) => ∃ actor snapshot transmit,
        (actor.lifecycle = .open ∨ actor.lifecycle = .draining) ∧
        actor.transmit.begin snapshot = .ok transmit ∧
        Submitted reactor after peer actor { actor with transmit }
          (.send snapshot.byteCount) := by
  unfold prepareSend
  cases found : reactor.getRecord peer with
  | error cause => rfl
  | ok record =>
      have present := consistent.present found
      simp only
      split_ifs with sending
      · rfl
      cases snapped : record.actor.transmit.snapshot reactor.storage
          reactor.sendDescriptorCapacity reactor.sendControlStride with
      | error cause => rfl
      | ok snapshot =>
          simp only
          cases begins : record.actor.beginSend snapshot with
          | error cause => rfl
          | ok actor =>
              have began : ∃ transmit,
                  (record.actor.lifecycle = .open ∨
                    record.actor.lifecycle = .draining) ∧
                  record.actor.transmit.begin snapshot = .ok transmit ∧
                  actor = { record.actor with transmit } := by
                unfold Actor.beginSend at begins
                cases lifecycle : record.actor.lifecycle <;>
                  rw [lifecycle] at begins <;> simp only at begins
                all_goals first
                  | cases begins
                  | cases transmitted : record.actor.transmit.begin snapshot
                      with
                    | error cause =>
                        rw [transmitted] at begins
                        cases begins
                    | ok transmit =>
                        rw [transmitted] at begins
                        cases begins
                        exact ⟨transmit, by simp, rfl, rfl⟩
              obtain ⟨transmit, lifecycle, transmitted, rfl⟩ := began
              simp only
              cases queued : reactor.ring.queue
                  { userData :=
                      (Actor.token { record.actor with transmit }
                        .send).encode
                    fd := record.fd
                    kind := .send snapshot.byteCount } with
              | error cause =>
                  simp only [failed_begin transmitted]
                  exact setActor_self present.1
              | ok ring =>
                  exact ⟨record.actor, snapshot, transmit, lifecycle,
                    transmitted, present, rfl, rfl, ring, record.fd, queued,
                    rfl⟩

/-! ## Closing -/

/-- Closing cancels what is active, or closes an idle connection. -/
theorem prepareClose_spec
    (consistent : reactor.Consistent)
    (peer : Peer) :
    match reactor.prepareClose peer with
    | (.error _, after) => after = reactor
    | (.ok false, after) => ∃ actor, reactor.Present peer actor ∧
        actor.receiveActive = false ∧ actor.transmit.sendActive = false ∧
        after = reactor.setActor peer.slot actor.beginClose
    | (.ok true, after) => ∃ actor,
        actor.cancelRequested = false ∧
        (actor.receiveActive = true ∨ actor.transmit.sendActive = true) ∧
        Submitted reactor after peer actor
          { actor with state := { actor.state with phase := .canceling } }
          .cancel := by
  unfold prepareClose
  cases found : reactor.getRecord peer with
  | error cause => rfl
  | ok record =>
      have present := consistent.present found
      simp only
      split_ifs with idle
      · exact ⟨record.actor, present, (Bool.not_eq_true' _).mp idle.1,
          (Bool.not_eq_true' _).mp idle.2, rfl⟩
      have busy : record.actor.receiveActive = true ∨
          record.actor.transmit.sendActive = true := by
        rcases not_and_or.mp idle with receiving | sending
        · exact .inl ((Bool.not_eq_false' _).mp (Bool.eq_false_iff.mpr receiving))
        · exact .inr ((Bool.not_eq_false' _).mp (Bool.eq_false_iff.mpr sending))
      have requested : record.actor.beginClose.requestCancel =
          if record.actor.cancelRequested then .error .cancelAlreadyActive
          else .ok { record.actor with
            state := { record.actor.state with phase := .canceling } } := by
        unfold Actor.requestCancel Actor.advance State.step Actor.beginClose
          Actor.cancelRequested Phase.cancelRequested Phase.closed
        cases record.actor.state.phase <;> rfl
      rw [requested]
      split_ifs with already
      · rfl
      · simp only
        cases queued : reactor.ring.queue
            { userData :=
                (Actor.token { record.actor with
                  state := { record.actor.state with phase := .canceling } }
                  .cancel).encode
              fd := record.fd
              kind := .cancel } with
        | error cause => rfl
        | ok ring =>
            exact ⟨record.actor, by simpa using already, busy, present, rfl,
              rfl, ring, record.fd, queued, rfl⟩

/-! ## Admission and release -/

/-- The slot that an admission takes, also if it fails later. -/
def acquires
    (reactor : Reactor)
    (config : ActorConfig)
    (room : Nat) : Option Nat :=
  if config.transmitFdBudget > reactor.sendDescriptorCapacity then none
  else
    match reactor.slots.acquire (room > 0) with
    | (.error _, _) => none
    | (.ok peer, _) => some peer.slot

/-- An admission adds a fresh actor in a vacant slot, or nothing. -/
structure Admitted
    (reactor after : Reactor)
    (acquired : Option Nat)
    (new : Option Actor) : Prop where
  consistent : after.Consistent
  ring : after.ring = reactor.ring
  storage : after.storage = reactor.storage
  fragmentBlocks : after.fragmentBlocks = reactor.fragmentBlocks
  head : after.deferredReceiveHead = reactor.deferredReceiveHead
  tail : after.deferredReceiveTail = reactor.deferredReceiveTail
  receiveRearmPending : after.receiveRearmPending = reactor.receiveRearmPending
  sendDescriptorCapacity :
    after.sendDescriptorCapacity = reactor.sendDescriptorCapacity
  place : ∀ slot, after.place slot = reactor.place slot
  actor : ∀ slot, after.actor slot =
    if new.isSome ∧ acquired = some slot then new else reactor.actor slot
  vacant : ∀ slot, acquired = some slot → reactor.actor slot = none
  generation : ∀ slot, (after.slots.slot slot).generation =
    if acquired = some slot then
      Completion.nextGeneration (reactor.slots.slot slot).generation
    else (reactor.slots.slot slot).generation

/-- Growing the records keeps them. -/
theorem growRecords_spec
    (reactor : Reactor) (slot room : Nat) :
    ∃ records,
      (reactor.growRecords slot room).2 = { reactor with records } ∧
      (∀ index, record { reactor with records } index =
        reactor.record index) ∧
      ∀ roomLeft, (reactor.growRecords slot room).1 = .ok roomLeft →
        slot < records.length := by
  unfold growRecords
  split_ifs with inside
  · exact ⟨reactor.records, rfl, fun _ => rfl, fun _ _ => inside⟩
  cases room with
  | zero => exact ⟨reactor.records, rfl, fun _ => rfl, fun _ failed => nomatch failed⟩
  | succ room =>
      refine ⟨_, rfl, fun index => ?_, fun _ _ => ?_⟩
      · unfold record
        simp only [List.getElem?_append, List.getElem?_replicate]
        split_ifs with first second
        · rfl
        · rw [List.getElem?_eq_none (by omega)]
          rfl
        · rw [List.getElem?_eq_none (by omega)]
      · simp only [List.length_append, List.length_replicate]
        omega

/-- A slot that is not active has no actor. -/
theorem actor_of_vacant
    (consistent : reactor.Consistent)
    (vacant : reactor.slots.active slot = none) : reactor.actor slot = none := by
  have active := consistent.active slot
  rw [vacant] at active
  exact Option.map_eq_none_iff.mp active.symm

/-- An admission that fails gives its slot back. -/
theorem Admitted.failed
    {slots : Slots} {records : List (Option ConnectionRecord)}
    (consistent : reactor.Consistent)
    (acquired : Slots.Acquired reactor.slots slots peer)
    (same : ∀ slot, record { reactor with records } slot =
      reactor.record slot) :
    Admitted reactor
      { reactor with records, slots := (slots.deactivate peer).2 }
      (some peer.slot) none := by
  have isActive : slots.active peer.slot = some peer.generation := by
    rw [acquired.active, if_pos rfl]
  obtain ⟨_, wellFormed, released⟩ :=
    Slots.deactivate_spec acquired.wellFormed isActive
  have actorSame : ∀ slot, Reactor.actor
      { reactor with records, slots := (slots.deactivate peer).2 } slot =
        reactor.actor slot := fun slot =>
    congrArg (Option.map ConnectionRecord.actor) (same slot)
  have vacant := actor_of_vacant consistent acquired.vacant
  exact
    { consistent :=
        { slots := wellFormed
          active := fun slot => by
            rw [actorSame, ← consistent.active]
            rw [Slots.active_deactivate acquired.wellFormed isActive,
              acquired.active]
            split_ifs with isSlot
            · rw [isSlot, acquired.vacant]
            · rfl
          named := fun slot actor found =>
            consistent.named slot actor ((actorSame slot).symm.trans found) }
      ring := rfl
      storage := rfl
      fragmentBlocks := rfl
      head := rfl
      tail := rfl
      receiveRearmPending := rfl
      sendDescriptorCapacity := rfl
      place := fun slot =>
        congrArg (Option.bind · ConnectionRecord.deferredReceive) (same slot)
      actor := fun slot => by
        rw [actorSame]
        rfl
      vacant := fun slot isSlot => by
        cases isSlot
        exact vacant
      generation := fun slot => by
        rw [released]
        by_cases isSlot : slot = peer.slot
        · rw [if_pos isSlot, if_pos (by rw [isSlot]), isSlot]
          exact acquired.generation
        · rw [if_neg isSlot, acquired.slot, if_neg isSlot,
            if_neg fun equal => isSlot (Option.some.inj equal).symm] }

/-- An admission that is granted puts a record in its slot. -/
theorem Admitted.granted
    {slots : Slots} {records : List (Option ConnectionRecord)}
    {record : ConnectionRecord}
    (consistent : reactor.Consistent)
    (acquired : Slots.Acquired reactor.slots slots peer)
    (same : ∀ slot, Reactor.record { reactor with records } slot =
      reactor.record slot)
    (inside : peer.slot < records.length)
    (slotSame : record.actor.slot = peer.slot)
    (generationSame : record.actor.generation = peer.generation)
    (unparked : record.deferredReceive = none) :
    Admitted reactor
      (setRecord { reactor with records, slots } peer.slot (some record))
      (some peer.slot) (some record.actor) := by
  have recorded : ∀ slot, Reactor.record (setRecord
      { reactor with records, slots } peer.slot (some record)) slot =
        if slot = peer.slot then some record else reactor.record slot := by
    intro slot
    rw [record_setRecord (.inr inside)]
    split_ifs
    · rfl
    · exact same slot
  have vacant := actor_of_vacant consistent acquired.vacant
  have actors : ∀ slot, Reactor.actor (setRecord
      { reactor with records, slots } peer.slot (some record)) slot =
        if slot = peer.slot then some record.actor
        else reactor.actor slot := by
    intro slot
    unfold Reactor.actor
    rw [recorded]
    split_ifs <;> rfl
  exact
    { consistent :=
        { slots := acquired.wellFormed
          active := fun slot => by
            rw [actors]
            refine (acquired.active slot).trans ?_
            split_ifs
            · exact congrArg some generationSame.symm
            · exact consistent.active slot
          named := fun slot actor found => by
            rw [actors] at found
            split_ifs at found with isSlot
            · cases found
              rw [slotSame, isSlot]
            · exact consistent.named slot actor found }
      ring := rfl
      storage := rfl
      fragmentBlocks := rfl
      head := rfl
      tail := rfl
      receiveRearmPending := rfl
      sendDescriptorCapacity := rfl
      place := fun slot => by
        unfold Reactor.place
        rw [recorded]
        split_ifs with isSlot
        · rw [isSlot, Option.map_eq_none_iff.mp vacant]
          exact unparked
        · rfl
      actor := fun slot => by
        rw [actors]
        simp only [Option.isSome_some, true_and, Option.some.injEq, eq_comm]
      vacant := fun slot isSlot => by
        cases isSlot
        exact vacant
      generation := fun slot => by
        refine (congrArg Slot.generation (acquired.slot slot)).trans ?_
        by_cases isSlot : slot = peer.slot
        · rw [if_pos isSlot, if_pos (by rw [isSlot]), isSlot]
          exact acquired.generation
        · rw [if_neg isSlot,
            if_neg fun equal => isSlot (Option.some.inj equal).symm] }

/-- Nothing is admitted. -/
theorem Admitted.nothing
    (consistent : reactor.Consistent) : Admitted reactor reactor none none where
  consistent := consistent
  ring := rfl
  storage := rfl
  fragmentBlocks := rfl
  head := rfl
  tail := rfl
  receiveRearmPending := rfl
  sendDescriptorCapacity := rfl
  place _ := rfl
  actor _ := rfl
  vacant _ none := nomatch none
  generation _ := rfl

/-- A new peer is admitted, or nothing changes. -/
theorem attach_spec
    {socketFd : Fd} {config : ActorConfig} {room : Nat}
    (consistent : reactor.Consistent) :
    match reactor.attach socketFd config room with
    | (.error _, after) =>
        Admitted reactor after (reactor.acquires config room) none
    | (.ok peer, after) => reactor.acquires config room = some peer.slot ∧
        Admitted reactor after (some peer.slot) (some
          (Actor.initSharedFragments peer.slot peer.generation
            config.receivedFdBudget config.transmitByteBudget
            config.transmitFdBudget)) := by
  unfold attach acquires
  split_ifs with exceeds
  · exact .nothing consistent
  have acquired := Slots.acquire_spec consistent.slots (room > 0)
  generalize reactor.slots.acquire (room > 0) = outcome at acquired ⊢
  obtain ⟨result, slots⟩ := outcome
  cases result with
  | error cause =>
      simp only at acquired ⊢
      rw [acquired]
      exact .nothing consistent
  | ok peer =>
      simp only at acquired ⊢
      generalize (if reactor.slots.freeHead = none then room - 1 else room) =
        roomLeft
      obtain ⟨records, grown, same, inside⟩ :=
        growRecords_spec { reactor with slots } peer.slot roomLeft
      generalize growRecords { reactor with slots } peer.slot roomLeft =
        outcome at grown inside ⊢
      obtain ⟨result, grownReactor⟩ := outcome
      simp only at grown
      subst grown
      cases result with
      | error cause => exact .failed consistent acquired same
      | ok roomLeft =>
          simp only
          split_ifs with short
          · exact .failed consistent acquired same
          · exact ⟨rfl, .granted consistent acquired same
              (inside roomLeft rfl) rfl rfl rfl⟩

/-- What the release of a peer does. -/
structure Destroyed
    (reactor after : Reactor)
    (peer : Peer)
    (actor : Actor) : Prop where
  present : reactor.Present peer actor
  idle : actor.canDeinit = true
  deinit : actor.deinit reactor.fragmentBlocks reactor.storage =
    .ok (after.fragmentBlocks, after.storage)
  consistent : after.Consistent
  ring : after.ring = reactor.ring
  receiveRearmPending : after.receiveRearmPending = reactor.receiveRearmPending
  sendDescriptorCapacity :
    after.sendDescriptorCapacity = reactor.sendDescriptorCapacity
  actor : ∀ slot, after.actor slot =
    if slot = peer.slot then none else reactor.actor slot
  generation : ∀ slot, (after.slots.slot slot).generation =
    (reactor.slots.slot slot).generation
  parked : ∀ parked, reactor.Parked parked → after.Parked (parked.erase peer.slot)

/-- The list without the place of a peer. -/
theorem releaseDeferred_spec
    {record : ConnectionRecord}
    (consistent : reactor.Consistent)
    (found : reactor.getRecord peer = .ok record) :
    let after := reactor.releaseDeferred peer record
    Relinked reactor after ∧
      after.receiveRearmPending = reactor.receiveRearmPending ∧
      ∀ parked, reactor.Parked parked →
        after.Parked (parked.erase peer.slot) ∧ after.place peer.slot = none := by
  obtain ⟨recorded, generation⟩ := consistent.getRecord_eq_ok_iff.mp found
  have place : reactor.place peer.slot = record.deferredReceive := by
    rw [Reactor.place, recorded, Option.bind_some]
  simp only [releaseDeferred]
  cases deferred : record.deferredReceive with
  | none =>
      refine ⟨.refl _, rfl, fun parked list => ?_⟩
      have unparked : peer.slot ∉ parked := by
        rw [list.exact, place, deferred]
        simp
      rw [List.erase_of_not_mem unparked]
      exact ⟨list, place.trans deferred⟩
  | some node =>
      simp only
      split_ifs with current
      · obtain ⟨relinked, rearm⟩ :=
          @Relinked.removeDeferredReceive reactor peer.slot
        refine ⟨relinked, rearm, fun parked list => ?_⟩
        have isParked : peer.slot ∈ parked := by
          rw [list.exact, place, deferred]
          rfl
        obtain ⟨front, back, rfl⟩ := List.append_of_mem isParked
        have outside : peer.slot ∉ front := by
          intro member
          have distinct := list.distinct
          rw [List.nodup_append] at distinct
          exact distinct.2.2 _ member _ (by simp) rfl
        rw [List.erase_append_right _ outside, List.erase_cons_head]
        refine ⟨list.remove, ?_⟩
        rw [place_removeDeferredReceive (place.trans deferred), if_pos rfl]
      · refine ⟨.refl _, rfl, fun parked list => ?_⟩
        have same := list.generation peer.slot node (place.trans deferred)
        rw [Reactor.actor, recorded] at same
        exact absurd ((Option.some.inj same).symm.trans generation) current

/-- A peer that is idle is released, and no other. -/
theorem destroyPeer_spec
    (consistent : reactor.Consistent)
    (peer : Peer) :
    match reactor.destroyPeer peer with
    | (.error _, after) => after = reactor
    | (.ok _, after) => ∃ actor, Destroyed reactor after peer actor := by
  unfold destroyPeer
  cases found : reactor.getRecord peer with
  | error cause => rfl
  | ok record =>
      have present := consistent.present found
      simp only
      split_ifs with busy
      · rfl
      cases deinit : record.actor.deinit reactor.fragmentBlocks
          reactor.storage with
      | error cause => rfl
      | ok storages =>
          obtain ⟨fragmentBlocks, storage⟩ := storages
          obtain ⟨relinked, rearm, unparked⟩ :=
            releaseDeferred_spec consistent found
          simp only
          generalize reactor.releaseDeferred peer record = unlinked
            at relinked rearm unparked ⊢
          have unlinkedConsistent := relinked.consistent consistent
          have isActive : unlinked.slots.active peer.slot =
              some peer.generation := by
            rw [relinked.slots, consistent.active, present.1]
            exact congrArg some present.2
          obtain ⟨released, wellFormed, slots⟩ :=
            Slots.deactivate_spec unlinkedConsistent.slots isActive
          have active := Slots.active_deactivate unlinkedConsistent.slots isActive
          generalize unlinked.slots.deactivate peer = outcome
            at released wellFormed slots active ⊢
          obtain ⟨result, slotsNow⟩ := outcome
          simp only at released wellFormed slots active
          subst released
          have there : (unlinked.record peer.slot).isSome = true := by
            have recorded := (relinked.actor peer.slot).trans present.1
            rw [Reactor.actor] at recorded
            cases stored : unlinked.record peer.slot with
            | none =>
                rw [stored] at recorded
                cases recorded
            | some _ => rfl
          have recorded : ∀ slot, Reactor.record (setRecord
              { unlinked with slots := slotsNow, fragmentBlocks, storage }
              peer.slot none) slot =
                if slot = peer.slot then none else unlinked.record slot :=
            record_setRecord (.inl there) none
          have actors : ∀ slot, Reactor.actor (setRecord
              { unlinked with slots := slotsNow, fragmentBlocks, storage }
              peer.slot none) slot =
                if slot = peer.slot then none else reactor.actor slot := by
            intro slot
            rw [Reactor.actor, recorded, ← relinked.actor]
            split_ifs <;> rfl
          refine ⟨record.actor, present, by simpa using busy, deinit,
            ⟨wellFormed, fun slot => ?_, fun slot actor isActor => ?_⟩,
            relinked.ring, rearm, relinked.sendDescriptorCapacity, actors,
            fun slot => ?_, fun parked list => ?_⟩
          · rw [actors]
            refine (active slot).trans ?_
            rw [relinked.slots, consistent.active]
            split_ifs <;> rfl
          · rw [actors] at isActor
            split_ifs at isActor
            exact consistent.named slot actor isActor
          · refine (congrArg Slot.generation (slots slot)).trans ?_
            rw [relinked.slots]
            split_ifs with isSlot
            · have current := consistent.active slot
              rw [isSlot, present.1] at current
              rw [isSlot, (Slots.active_eq_some_iff.mp current).2]
              exact present.2.symm
            · rfl
          · obtain ⟨unlinkedList, absent⟩ := unparked parked list
            refine unlinkedList.congr ?_ ?_ (fun slot => ?_)
              fun slot member => ?_
            · rfl
            · rfl
            · rw [Reactor.place, recorded]
              split_ifs with isSlot
              · rw [isSlot, absent]
                rfl
              · rfl
            · have apart : slot ≠ peer.slot := by
                rintro rfl
                exact list.distinct.not_mem_erase member
              rw [actors, if_neg apart, relinked.actor]

end Reactor
end Wayring
