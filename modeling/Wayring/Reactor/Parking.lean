import Wayring.Reactor.Calls
import Wayring.Reactor.Operations

/-!
# Parked receives

The deferred list as a queue of peers.  A sweep serves it from the front, as far
as there are submission entries.
-/

namespace Wayring
namespace Parking

variable {α β : Type*}

/-- Serve waiting entries from the front while something is free, and drop those
that no longer wait.  The result counts the served ones. -/
def sweep (waits : α → Bool) : Nat → List α → Nat × List α
  | _, [] => (0, [])
  | free, entry :: rest =>
      if waits entry then
        match free with
        | 0 => (0, entry :: rest)
        | free + 1 =>
            let (served, left) := sweep waits free rest
            (served + 1, left)
      else sweep waits free rest

/-- A sweep depends on who waits alone. -/
theorem sweep_congr
    {waits other : α → Bool} {entries : List α} {free : Nat}
    (agrees : ∀ entry ∈ entries, other entry = waits entry) :
    sweep other free entries = sweep waits free entries := by
  induction entries generalizing free with
  | nil => rfl
  | cons entry rest sweep_ih =>
      have later : ∀ free, sweep other free rest = sweep waits free rest :=
        fun free => @sweep_ih free fun entry member =>
          agrees entry (by simp [member])
      unfold sweep
      rw [agrees entry (by simp)]
      simp only [later]

/-- A sweep over something that waits serves it, or leaves something. -/
theorem sweep_serves
    {waits : α → Bool} {entries : List α} {free : Nat}
    (some : ∃ entry ∈ entries, waits entry = true) :
    0 < (sweep waits free entries).1 ∨ (sweep waits free entries).2 ≠ [] := by
  induction entries generalizing free with
  | nil => simp at some
  | cons entry rest sweep_ih =>
      unfold sweep
      split_ifs with waiting
      · cases free with
        | zero => exact .inr (by simp)
        | succ free => exact .inl (Nat.succ_pos _)
      · apply sweep_ih
        obtain ⟨other, member, waits⟩ := some
        rcases List.mem_cons.mp member with rfl | later
        · exact absurd waits waiting
        · exact ⟨other, later, waits⟩

end Parking

namespace Reactor

variable {reactor after : Reactor} {peers : List Peer}

/-- The parked peers, in parking order. -/
structure Waiting (reactor : Reactor) (peers : List Peer) : Prop where
  list : reactor.Parked (peers.map Peer.slot)
  present : ∀ peer ∈ peers, ∃ actor, reactor.Present peer actor

/-- Whether a peer still waits for a receive. -/
def waits (reactor : Reactor) (peer : Peer) : Bool :=
  match reactor.actor peer.slot with
  | none => false
  | some actor => decide (Waits actor)

/-- The deferred list, by its links. -/
def deferredSlots (reactor : Reactor) : Nat → Option Nat → List Nat
  | 0, _ => []
  | _ + 1, none => []
  | fuel + 1, some slot =>
      slot :: reactor.deferredSlots fuel (reactor.nextDeferred slot)

/-- The peers that are parked, in order. -/
def deferredPeers (reactor : Reactor) : List Peer :=
  (reactor.deferredSlots reactor.records.length
    reactor.deferredReceiveHead).map fun slot =>
      { slot
        generation :=
          ((reactor.place slot).map DeferredReceive.generation).getD 0 }

/-- Following the list with enough fuel lists it. -/
theorem deferredSlots_eq
    {head : Option Nat} {slots : List Nat} {fuel : Nat}
    (linked : Chain.Linked reactor.nextDeferred head slots)
    (enough : slots.length ≤ fuel) :
    reactor.deferredSlots fuel head = slots := by
  induction slots generalizing head fuel with
  | nil =>
      rw [Chain.linked_nil] at linked
      cases fuel <;> rw [linked] <;> rfl
  | cons slot rest slots_ih =>
      obtain ⟨rfl, tail⟩ := linked
      cases fuel with
      | zero => simp at enough
      | succ fuel =>
          rw [deferredSlots, slots_ih tail (by simpa using enough)]

/-- A slot with an actor is inside the records. -/
theorem lt_of_actor
    {slot : Nat} {actor : Actor}
    (found : reactor.actor slot = some actor) :
    slot < reactor.records.length := by
  apply Nat.lt_of_not_le
  intro outside
  rw [Reactor.actor, record, List.getElem?_eq_none outside] at found
  cases found

/-- No more peers wait than there are records. -/
theorem Waiting.length_le
    (waiting : reactor.Waiting peers) :
    (peers.map Peer.slot).length ≤ reactor.records.length := by
  apply Chain.length_le_of_nodup waiting.list.distinct
  intro slot member
  obtain ⟨peer, isPeer, rfl⟩ := List.mem_map.mp member
  obtain ⟨actor, present⟩ := waiting.present peer isPeer
  exact lt_of_actor present.1

/-- The links give the parked peers. -/
theorem Waiting.deferredPeers_eq
    (waiting : reactor.Waiting peers) : reactor.deferredPeers = peers := by
  unfold deferredPeers
  rw [deferredSlots_eq waiting.list.forward waiting.length_le, List.map_map]
  conv_rhs => rw [← List.map_id peers]
  apply List.map_congr_left
  intro peer member
  obtain ⟨actor, present⟩ := waiting.present peer member
  obtain ⟨node, placed⟩ := Option.isSome_iff_exists.mp
    ((waiting.list.exact peer.slot).mp (List.mem_map_of_mem member))
  have generation := waiting.list.generation peer.slot node placed
  rw [present.1] at generation
  have same : node.generation = peer.generation :=
    (Option.some.inj generation).symm.trans present.2
  simp only [Function.comp_apply, placed, Option.map_some, Option.getD_some,
    same, id_eq]

/-- A peer waits once. -/
theorem Waiting.nodup
    (waiting : reactor.Waiting peers) : peers.Nodup :=
  waiting.list.distinct.of_map

/-- Calls that leave the list alone, and the identity of parked actors. -/
theorem Waiting.congr
    (waiting : reactor.Waiting peers)
    (head : after.deferredReceiveHead = reactor.deferredReceiveHead)
    (tail : after.deferredReceiveTail = reactor.deferredReceiveTail)
    (place : ∀ slot, after.place slot = reactor.place slot)
    (generation : ∀ peer ∈ peers,
      (after.actor peer.slot).map Actor.generation =
        (reactor.actor peer.slot).map Actor.generation) :
    after.Waiting peers where
  list := by
    refine waiting.list.congr head tail place fun slot member => ?_
    obtain ⟨peer, isPeer, rfl⟩ := List.mem_map.mp member
    exact generation peer isPeer
  present peer member := by
    obtain ⟨actor, present⟩ := waiting.present peer member
    have same := generation peer member
    rw [present.1] at same
    obtain ⟨next, found, isSame⟩ := Option.map_eq_some_iff.mp same
    exact ⟨next, found, isSame.trans present.2⟩

/-- An actor that keeps its generation keeps its place. -/
theorem Waiting.setActor
    {slot : Nat} {actor next : Actor}
    (waiting : reactor.Waiting peers)
    (found : reactor.actor slot = some actor)
    (generation : next.generation = actor.generation) :
    (reactor.setActor slot next).Waiting peers := by
  refine waiting.congr rfl rfl (place_setActor next) fun other _ => ?_
  rw [actor_setActor]
  split_ifs with same
  · rw [same, found]
    exact congrArg some generation
  · rfl

/-- The list is in the records and the ends. -/
theorem Waiting.pools
    (waiting : reactor.Waiting peers)
    (ring : Ring) (storage : Storage) :
    Waiting { reactor with ring, storage } peers :=
  waiting.congr rfl rfl (fun _ => rfl) fun _ _ => rfl

/-- An operation that is queued leaves the list alone. -/
theorem Waiting.submitted
    {peer : Peer} {actor next : Actor} {kind : Submission.Kind}
    (waiting : reactor.Waiting peers)
    (submitted : Submitted reactor after peer actor next kind) :
    after.Waiting peers := by
  obtain ⟨ring, fd, _, rfl⟩ := submitted.queued
  exact (waiting.pools ring reactor.storage).setActor submitted.present.1
    submitted.generation

/-- The first parked peer. -/
theorem Waiting.head
    {peer : Peer} {rest : List Peer}
    (waiting : reactor.Waiting (peer :: rest)) :
    reactor.deferredReceiveHead = some peer.slot ∧
      ∃ node actor, reactor.place peer.slot = some node ∧
        node.generation = peer.generation ∧ reactor.Present peer actor := by
  obtain ⟨node, placed⟩ := Option.isSome_iff_exists.mp
    ((waiting.list.exact peer.slot).mp (by simp))
  obtain ⟨actor, present⟩ := waiting.present peer (by simp)
  have generation := waiting.list.generation peer.slot node placed
  rw [present.1] at generation
  exact ⟨waiting.list.forward.1, node, actor, placed,
    (Option.some.inj generation).symm.trans present.2, present⟩

/-- The first parked peer leaves the list. -/
theorem Waiting.pop
    {peer : Peer} {rest : List Peer}
    (waiting : reactor.Waiting (peer :: rest)) :
    (reactor.removeDeferredReceive peer.slot).Waiting rest where
  list := @Parked.remove reactor peer.slot [] _ waiting.list
  present other member := by
    obtain ⟨actor, present⟩ := waiting.present other (by simp [member])
    exact ⟨actor, (Relinked.removeDeferredReceive.1.actor _).trans present.1,
      present.2⟩

/-- What a sweep leaves. -/
structure Swept
    (after : Reactor)
    (left : List Peer)
    (permit : Bool) : Prop where
  consistent : after.Consistent
  waiting : after.Waiting left
  permit : after.receiveRearmPending = permit

/-- A sweep over the links is a sweep over the list. -/
theorem sweepDeferred_spec
    {fuel prepared : Nat}
    (waiting : reactor.Waiting peers)
    (consistent : reactor.Consistent)
    (enough : peers.length ≤ fuel) :
    let (served, left) := Parking.sweep reactor.waits reactor.ring.free peers
    (reactor.sweepDeferred fuel prepared).1 = .ok (prepared + served) ∧
      Swept (reactor.sweepDeferred fuel prepared).2 left
        (reactor.receiveRearmPending || left ≠ []) := by
  induction peers generalizing reactor fuel prepared with
  | nil =>
      have head : reactor.deferredReceiveHead = none := waiting.list.forward
      have same : reactor.sweepDeferred fuel prepared =
          (.ok prepared, reactor) := by
        cases fuel <;> simp only [sweepDeferred, head, if_pos]
      rw [same]
      exact ⟨rfl, consistent, waiting, by simp⟩
  | cons peer rest sweep_ih =>
      obtain ⟨head, node, actor, placed, generation, present⟩ := waiting.head
      cases fuel with
      | zero => simp at enough
      | succ fuel =>
          have enoughLeft : rest.length ≤ fuel := by simpa using enough
          have isPeer : ({ slot := peer.slot, generation := node.generation } :
              Peer) = peer := by rw [generation]
          have found := consistent.getActor_eq_ok_iff.mpr present
          have waitsEq : reactor.waits peer = decide (Waits actor) := by
            rw [waits, present.1]
          have distinct := waiting.list.distinct
          rw [List.map_cons, List.nodup_cons] at distinct
          unfold place at placed
          simp only [sweepDeferred, head, placed, isPeer, found]
          by_cases waitsNow : Waits actor
          · have continues : ¬ (actor.lifecycle ≠ .open ∨
                actor.receiveActive = true) := by
              rw [waitsNow.1, waitsNow.2]
              simp
            rw [if_neg continues]
            have prepare := prepareReceive_spec consistent peer
            generalize reactor.prepareReceive peer = outcome at prepare ⊢
            obtain ⟨result, armedReactor⟩ := outcome
            cases result with
            | error cause =>
                obtain ⟨rfl, full⟩ := prepare
                obtain ⟨rfl, free⟩ := full actor present waitsNow
                simp only [Parking.sweep, waitsEq, waitsNow, decide_true,
                  if_true, free]
                refine ⟨rfl, ⟨consistent.slots, consistent.active,
                  consistent.named⟩, waiting.congr rfl rfl (fun _ => rfl)
                    fun _ _ => rfl, by simp⟩
            | ok _ =>
                obtain ⟨other, _, submitted⟩ := prepare
                have same : other = actor :=
                  Option.some.inj (submitted.present.1.symm.trans present.1)
                subst same
                obtain ⟨ring, fd, queued, afterEq⟩ := submitted.queued
                obtain ⟨free, _⟩ := Ring.queue_eq_ok_iff.mp queued
                have popped := (waiting.submitted submitted).pop
                have relinked := @Relinked.removeDeferredReceive armedReactor
                  peer.slot
                have poppedConsistent := relinked.1.consistent
                  (submitted.consistent consistent)
                have spec := @sweep_ih _ fuel (prepared + 1) popped
                  poppedConsistent enoughLeft
                have ringEq : (armedReactor.removeDeferredReceive
                    peer.slot).ring = ring := by
                  rw [relinked.1.ring, afterEq]
                  rfl
                have later : Parking.sweep
                    (armedReactor.removeDeferredReceive peer.slot).waits
                    ring.free rest =
                      Parking.sweep reactor.waits ring.free rest := by
                  apply Parking.sweep_congr
                  intro third member
                  have apart : third.slot ≠ peer.slot := by
                    intro equal
                    exact distinct.1 (equal ▸ List.mem_map_of_mem member)
                  rw [waits, relinked.1.actor, afterEq, actor_setActor,
                    if_neg apart]
                  rfl
                have rearm : (armedReactor.removeDeferredReceive
                    peer.slot).receiveRearmPending =
                      reactor.receiveRearmPending := by
                  rw [relinked.2, afterEq]
                  rfl
                rw [ringEq, later, rearm] at spec
                simp only [Parking.sweep, waitsEq, waitsNow, decide_true,
                  if_true, free]
                refine ⟨spec.1.trans ?_, spec.2.consistent, spec.2.waiting,
                  spec.2.permit⟩
                rw [Nat.add_assoc, Nat.add_comm 1]
          · have stops : actor.lifecycle ≠ .open ∨
                actor.receiveActive = true := by
              unfold Waits at waitsNow
              rw [not_and_or] at waitsNow
              simpa using waitsNow
            rw [if_pos stops]
            have relinked := @Relinked.removeDeferredReceive reactor peer.slot
            have spec := @sweep_ih _ fuel prepared waiting.pop
              (relinked.1.consistent consistent) enoughLeft
            have later : Parking.sweep
                (reactor.removeDeferredReceive peer.slot).waits
                reactor.ring.free rest =
                  Parking.sweep reactor.waits reactor.ring.free rest := by
              apply Parking.sweep_congr
              intro third _
              rw [waits, relinked.1.actor]
              rfl
            rw [relinked.1.ring, later, relinked.2] at spec
            have skipped : Parking.sweep reactor.waits reactor.ring.free
                (peer :: rest) =
                  Parking.sweep reactor.waits reactor.ring.free rest := by
              simp only [Parking.sweep, waitsEq, waitsNow, decide_false,
                Bool.false_eq_true, if_false]
            rw [skipped]
            exact ⟨spec.1, spec.2.consistent, spec.2.waiting, spec.2.permit⟩

/-- The permit outlasts a sweep that had nothing to serve, or could not serve
all. -/
theorem prepareDeferredReceives_spec
    (waiting : reactor.Waiting peers)
    (consistent : reactor.Consistent) :
    if reactor.receiveRearmPending = true then
      let (served, left) := Parking.sweep reactor.waits reactor.ring.free peers
      reactor.prepareDeferredReceives.1 = .ok served ∧
        Swept reactor.prepareDeferredReceives.2 left
          (peers = [] || left ≠ [])
    else reactor.prepareDeferredReceives = (.ok 0, reactor) := by
  have head := waiting.list.forward
  unfold prepareDeferredReceives
  split_ifs with pending idle idle
  · cases peers with
    | nil => exact ⟨rfl, consistent, waiting, by simp [pending]⟩
    | cons peer rest =>
        rcases idle with notPending | noHead
        · rw [pending] at notPending
          cases notPending
        · rw [noHead] at head
          cases head.1
  · have unpermitted : Waiting { reactor with receiveRearmPending := false }
        peers := waiting.congr rfl rfl (fun _ => rfl) fun _ _ => rfl
    have enough : peers.length ≤ reactor.records.length + 1 := by
      have bound := waiting.length_le
      rw [List.length_map] at bound
      omega
    have spec := @sweepDeferred_spec _ _ (reactor.records.length + 1) 0
      unpermitted ⟨consistent.slots, consistent.active, consistent.named⟩ enough
    have nonempty : peers ≠ [] := by
      rintro rfl
      exact idle (.inr head)
    simp only [Nat.zero_add, Bool.false_or] at spec
    simp only [nonempty, decide_false, Bool.false_or]
    exact spec
  · rfl
  · exact absurd (.inl (by simp [pending])) idle

end Reactor
end Wayring
