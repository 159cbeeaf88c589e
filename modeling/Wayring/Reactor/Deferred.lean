import Wayring.Reactor.Records

/-!
# Deferred receives

The parked receives form a doubly linked list in parking order.  Linking and
unlinking leaves everything else of the reactor alone.
-/

namespace Wayring
namespace Reactor

open Chain (Linked)

variable {reactor middle after : Reactor} {peer : Peer} {slot : Nat}
  {parked : List Nat} {node : DeferredReceive}

/-- The slot behind a slot in the deferred list. -/
def nextDeferred (reactor : Reactor) (slot : Nat) : Option Nat :=
  (reactor.place slot).bind DeferredReceive.next

/-- The slot before a slot in the deferred list. -/
def previousDeferred (reactor : Reactor) (slot : Nat) : Option Nat :=
  (reactor.place slot).bind DeferredReceive.previous

/-- The list visits exactly the parked slots, in order and back. -/
structure Parked (reactor : Reactor) (parked : List Nat) : Prop where
  forward : Linked reactor.nextDeferred reactor.deferredReceiveHead parked
  backward : Linked reactor.previousDeferred reactor.deferredReceiveTail
    parked.reverse
  distinct : parked.Nodup
  exact : ∀ slot, slot ∈ parked ↔ (reactor.place slot).isSome = true
  generation : ∀ slot node, reactor.place slot = some node →
    (reactor.actor slot).map Actor.generation = some node.generation

/-- Only links and the permit may differ. -/
structure Relinked (reactor after : Reactor) : Prop where
  ring : after.ring = reactor.ring
  slots : after.slots = reactor.slots
  storage : after.storage = reactor.storage
  fragmentBlocks : after.fragmentBlocks = reactor.fragmentBlocks
  sendDescriptorCapacity :
    after.sendDescriptorCapacity = reactor.sendDescriptorCapacity
  sendControlStride : after.sendControlStride = reactor.sendControlStride
  actor : ∀ slot, after.actor slot = reactor.actor slot
  length : after.records.length = reactor.records.length

theorem Relinked.refl (reactor : Reactor) : Relinked reactor reactor :=
  ⟨rfl, rfl, rfl, rfl, rfl, rfl, fun _ => rfl, rfl⟩

theorem Relinked.trans
    (early : Relinked reactor middle)
    (late : Relinked middle after) : Relinked reactor after where
  ring := late.ring.trans early.ring
  slots := late.slots.trans early.slots
  storage := late.storage.trans early.storage
  fragmentBlocks := late.fragmentBlocks.trans early.fragmentBlocks
  sendDescriptorCapacity :=
    late.sendDescriptorCapacity.trans early.sendDescriptorCapacity
  sendControlStride := late.sendControlStride.trans early.sendControlStride
  actor slot := (late.actor slot).trans (early.actor slot)
  length := late.length.trans early.length

theorem Relinked.setDeferred
    (deferredReceive : Option DeferredReceive) :
    Relinked reactor (reactor.setDeferred slot deferredReceive) :=
  ⟨rfl, rfl, rfl, rfl, rfl, rfl, actor_setDeferred _,
    by simp [Reactor.setDeferred, updateRecord, setRecord]⟩

theorem Relinked.updateDeferred
    (change : DeferredReceive → DeferredReceive) :
    Relinked reactor (reactor.updateDeferred slot change) :=
  ⟨rfl, rfl, rfl, rfl, rfl, rfl, actor_updateDeferred _,
    by simp [Reactor.updateDeferred, updateRecord, setRecord]⟩

/-- The ends of the list and the permit are links too. -/
theorem Relinked.ends
    (relinked : Relinked reactor after)
    (deferredReceiveHead deferredReceiveTail : Option Nat)
    (receiveRearmPending : Bool) :
    Relinked reactor { after with
      deferredReceiveHead, deferredReceiveTail, receiveRearmPending } :=
  { relinked with }

/-- Relinking keeps a reactor consistent. -/
theorem Relinked.consistent
    (relinked : Relinked reactor after)
    (consistent : reactor.Consistent) : after.Consistent where
  slots := by
    rw [relinked.slots]
    exact consistent.slots
  active slot := by
    rw [relinked.slots, relinked.actor]
    exact consistent.active slot
  named slot actor found := consistent.named slot actor
    ((relinked.actor slot).symm.trans found)

/-- A list of no slots. -/
theorem Parked.empty
    (head : reactor.deferredReceiveHead = none)
    (tail : reactor.deferredReceiveTail = none)
    (unparked : ∀ slot, reactor.place slot = none) : reactor.Parked [] where
  forward := head
  backward := tail
  distinct := List.nodup_nil
  exact slot := by simp [unparked]
  generation slot node found := by
    rw [unparked] at found
    cases found

/-- The list depends on links only. -/
theorem Parked.congr
    (list : reactor.Parked parked)
    (head : after.deferredReceiveHead = reactor.deferredReceiveHead)
    (tail : after.deferredReceiveTail = reactor.deferredReceiveTail)
    (place : ∀ slot, after.place slot = reactor.place slot)
    (generation : ∀ slot ∈ parked, (after.actor slot).map Actor.generation =
      (reactor.actor slot).map Actor.generation) : after.Parked parked where
  forward := by
    rw [head]
    apply list.forward.congr
    intro slot _
    rw [nextDeferred, place, nextDeferred]
  backward := by
    rw [tail]
    apply list.backward.congr
    intro slot _
    rw [previousDeferred, place, previousDeferred]
  distinct := list.distinct
  exact slot := by
    rw [place]
    exact list.exact slot
  generation slot node found := by
    have before := (place slot).symm.trans found
    rw [generation slot ((list.exact slot).mpr (by rw [before]; rfl))]
    exact list.generation slot node before

/-! ## Parking -/

/-- The places after a new last one was linked. -/
theorem place_linkDeferred
    {record : ConnectionRecord}
    (recorded : reactor.record peer.slot = some record)
    (apart : reactor.deferredReceiveTail ≠ some peer.slot) (index : Nat) :
    (reactor.linkDeferred peer).place index =
      if index = peer.slot then
        some
          { generation := peer.generation
            previous := reactor.deferredReceiveTail
            next := none }
      else if reactor.deferredReceiveTail = some index then
        (reactor.place index).map fun before =>
          { before with next := some peer.slot }
      else reactor.place index := by
  unfold linkDeferred
  cases tail : reactor.deferredReceiveTail with
  | none =>
      change (reactor.setDeferred _ _).place index = _
      rw [place_setDeferred, recorded]
      rfl
  | some last =>
      rw [tail] at apart
      have lastApart : last ≠ peer.slot := fun same => apart (congrArg some same)
      change ((reactor.setDeferred _ _).updateDeferred _ _).place index = _
      rw [place_updateDeferred, place_setDeferred, place_setDeferred, recorded,
        if_neg lastApart]
      simp only [Option.some.injEq, Option.bind_some]
      by_cases isSlot : index = peer.slot
      · rw [if_neg (isSlot ▸ lastApart.symm), if_pos isSlot, if_pos isSlot]
      · rw [if_neg isSlot, if_neg isSlot]
        by_cases isLast : index = last
        · rw [if_pos isLast, if_pos isLast.symm, isLast]
        · rw [if_neg isLast, if_neg fun same => isLast same.symm]

theorem Relinked.linkDeferred : Relinked reactor (reactor.linkDeferred peer) := by
  unfold Reactor.linkDeferred
  cases reactor.deferredReceiveTail with
  | none => exact (Relinked.setDeferred _).ends _ _ _
  | some last =>
      exact ((Relinked.setDeferred _).trans (.updateDeferred _)).ends _ _ _

/-- A peer is parked at the end. -/
theorem Parked.link
    {record : ConnectionRecord}
    (list : reactor.Parked parked)
    (recorded : reactor.record peer.slot = some record)
    (generation : record.actor.generation = peer.generation)
    (unparked : record.deferredReceive = none) :
    (reactor.linkDeferred peer).Parked (parked ++ [peer.slot]) := by
  have absent : reactor.place peer.slot = none := by
    rw [place, recorded, Option.bind_some, unparked]
  have fresh : peer.slot ∉ parked := by
    rw [list.exact, absent]
    simp
  have tail : reactor.deferredReceiveTail = parked.getLast? := by
    rw [list.backward.head_eq, List.head?_reverse]
  have apart : reactor.deferredReceiveTail ≠ some peer.slot := by
    rw [tail]
    exact fun last => fresh (List.mem_of_getLast? last)
  have places := @place_linkDeferred reactor _ _ recorded apart
  have last : (reactor.linkDeferred peer).deferredReceiveTail =
      some peer.slot := rfl
  refine ⟨?_, ?_, ?_, fun slot => ?_, fun slot node found => ?_⟩
  · rcases List.eq_nil_or_concat parked with rfl | ⟨front, final, rfl⟩
    · have head : (reactor.linkDeferred peer).deferredReceiveHead =
          some peer.slot := by
        simp only [linkDeferred, tail]
        rfl
      refine ⟨head, ?_⟩
      rw [nextDeferred, places, if_pos rfl]
      rfl
    · rw [List.concat_eq_append] at *
      rw [List.getLast?_concat] at tail
      have head : (reactor.linkDeferred peer).deferredReceiveHead =
          reactor.deferredReceiveHead := by
        simp only [linkDeferred, tail]
        rfl
      rw [head, List.append_assoc]
      apply (list.forward.append list.distinct fresh).congr
      intro slot member
      have parkedOr : slot ∈ front ++ [final] ∨ slot = peer.slot := by
        simp only [List.mem_append, List.mem_cons] at member ⊢
        tauto
      rw [nextDeferred, places, tail]
      by_cases isSlot : slot = peer.slot
      · have notFinal : slot ≠ final := by
          rintro rfl
          exact fresh (isSlot ▸ by simp)
        rw [if_pos isSlot, Function.update_of_ne notFinal, isSlot,
          Function.update_self]
        rfl
      · rw [if_neg isSlot]
        by_cases isFinal : slot = final
        · obtain ⟨node, place⟩ := Option.isSome_iff_exists.mp
            ((list.exact slot).mp (parkedOr.resolve_right isSlot))
          rw [if_pos (by rw [isFinal]), isFinal, Function.update_self]
          rw [isFinal] at place
          rw [place]
          rfl
        · rw [if_neg fun same => isFinal (Option.some.inj same).symm,
            Function.update_of_ne isFinal, Function.update_of_ne isSlot]
          rfl
  · rw [last, List.reverse_append]
    apply (list.backward.push (by simpa using fresh)).congr
    intro slot member
    rw [previousDeferred, places]
    by_cases isSlot : slot = peer.slot
    · rw [if_pos isSlot, isSlot, Function.update_self]
      rfl
    · rw [if_neg isSlot, Function.update_of_ne isSlot]
      split_ifs
      · rw [previousDeferred]
        cases reactor.place slot <;> rfl
      · rfl
  · rw [List.nodup_append]
    refine ⟨list.distinct, List.nodup_singleton _, ?_⟩
    intro slot member other isOther same
    rw [List.mem_singleton] at isOther
    exact fresh (isOther ▸ same ▸ member)
  · rw [places, List.mem_append, List.mem_singleton, list.exact]
    split_ifs with isSlot <;> simp [isSlot]
  · rw [Relinked.linkDeferred.actor]
    rw [places] at found
    split_ifs at found with isSlot isLast
    · cases found
      rw [isSlot, actor, recorded]
      exact congrArg some generation
    · obtain ⟨before, place, rfl⟩ := Option.map_eq_some_iff.mp found
      exact list.generation slot before place
    · exact list.generation slot node found

/-- A receive is parked at the end, unless it is parked already. -/
theorem deferReceive_spec
    (list : reactor.Parked parked)
    (consistent : reactor.Consistent) :
    match reactor.deferReceive peer with
    | (.error _, after) => after = reactor
    | (.ok false, after) => after = reactor ∧ peer.slot ∈ parked
    | (.ok true, after) => Relinked reactor after ∧
        after.receiveRearmPending = reactor.receiveRearmPending ∧
        peer.slot ∉ parked ∧ after.Parked (parked ++ [peer.slot]) := by
  unfold deferReceive
  cases found : reactor.getRecord peer with
  | error cause => rfl
  | ok record =>
      simp only
      split_ifs with notOpen receiving
      · rfl
      · rfl
      obtain ⟨recorded, generation⟩ := consistent.getRecord_eq_ok_iff.mp found
      have place : reactor.place peer.slot = record.deferredReceive := by
        rw [place, recorded, Option.bind_some]
      cases deferred : record.deferredReceive with
      | some node =>
          simp only
          split_ifs with stale
          · rfl
          · refine ⟨rfl, (list.exact _).mpr ?_⟩
            rw [place, deferred]
            rfl
      | none =>
          refine ⟨.linkDeferred, ?_, ?_,
            list.link recorded generation deferred⟩
          · unfold linkDeferred
            split <;> rfl
          · rw [list.exact, place, deferred]
            simp

/-! ## Unlinking -/

theorem place_unlinkForward (index : Nat) :
    (reactor.unlinkForward node).place index =
      (reactor.place index).map fun other =>
        { other with
          next := if node.previous = some index then node.next
            else other.next } := by
  unfold unlinkForward
  cases node.previous with
  | none =>
      change reactor.place index = _
      cases reactor.place index <;> rfl
  | some previous =>
      simp only [place_updateDeferred, Option.some.injEq]
      by_cases same : index = previous
      · rw [if_pos same, same]
        cases reactor.place previous <;> simp
      · rw [if_neg same]
        have apart : previous ≠ index := fun equal => same equal.symm
        cases reactor.place index <;> simp [apart]

theorem place_unlinkBackward (index : Nat) :
    (reactor.unlinkBackward node).place index =
      (reactor.place index).map fun other =>
        { other with
          previous := if node.next = some index then node.previous
            else other.previous } := by
  unfold unlinkBackward
  cases node.next with
  | none =>
      change reactor.place index = _
      cases reactor.place index <;> rfl
  | some next =>
      simp only [place_updateDeferred, Option.some.injEq]
      by_cases same : index = next
      · rw [if_pos same, same]
        cases reactor.place next <;> simp
      · rw [if_neg same]
        have apart : next ≠ index := fun equal => same equal.symm
        cases reactor.place index <;> simp [apart]

theorem Relinked.unlinkForward :
    Relinked reactor (reactor.unlinkForward node) := by
  unfold Reactor.unlinkForward
  cases node.previous with
  | none => exact (Relinked.refl _).ends _ _ _
  | some previous => exact .updateDeferred _

theorem Relinked.unlinkBackward :
    Relinked reactor (reactor.unlinkBackward node) := by
  unfold Reactor.unlinkBackward
  cases node.next with
  | none => exact (Relinked.refl _).ends _ _ _
  | some next => exact .updateDeferred _

/-- Unlinking moves the head when it was the first. -/
theorem ends_unlinkForward :
    (reactor.unlinkForward node).deferredReceiveHead =
        (if node.previous = none then node.next
          else reactor.deferredReceiveHead) ∧
      (reactor.unlinkForward node).deferredReceiveTail =
        reactor.deferredReceiveTail := by
  unfold unlinkForward
  cases node.previous <;> exact ⟨rfl, rfl⟩

/-- Unlinking moves the tail when it was the last. -/
theorem ends_unlinkBackward :
    (reactor.unlinkBackward node).deferredReceiveHead =
        reactor.deferredReceiveHead ∧
      (reactor.unlinkBackward node).deferredReceiveTail =
        (if node.next = none then node.previous
          else reactor.deferredReceiveTail) := by
  unfold unlinkBackward
  cases node.next <;> exact ⟨rfl, rfl⟩

/-- Both directions are unlinked, and the place is cleared. -/
theorem removeDeferredReceive_eq
    (found : reactor.place slot = some node) :
    reactor.removeDeferredReceive slot =
      ((reactor.unlinkForward node).unlinkBackward node).setDeferred slot
        none := by
  unfold place at found
  rw [removeDeferredReceive, found]

/-- The places after an unlinking, which skip the unlinked one. -/
theorem place_removeDeferredReceive
    (found : reactor.place slot = some node) (index : Nat) :
    (reactor.removeDeferredReceive slot).place index =
      if index = slot then none
      else (reactor.place index).map fun other =>
        { other with
          previous := if node.next = some index then node.previous
            else other.previous
          next := if node.previous = some index then node.next
            else other.next } := by
  rw [removeDeferredReceive_eq found, place_setDeferred]
  by_cases same : index = slot
  · rw [if_pos same, if_pos same]
    cases record _ slot <;> rfl
  · rw [if_neg same, if_neg same, place_unlinkBackward, place_unlinkForward,
      Option.map_map]
    rfl

theorem Relinked.removeDeferredReceive :
    Relinked reactor (reactor.removeDeferredReceive slot) ∧
      (reactor.removeDeferredReceive slot).receiveRearmPending =
        reactor.receiveRearmPending := by
  cases found : reactor.place slot with
  | none =>
      unfold place at found
      rw [Reactor.removeDeferredReceive, found]
      exact ⟨.refl _, rfl⟩
  | some node =>
      rw [removeDeferredReceive_eq found]
      refine ⟨(unlinkForward.trans unlinkBackward).trans (.setDeferred _), ?_⟩
      unfold Reactor.unlinkBackward Reactor.unlinkForward
      cases node.previous <;> cases node.next <;> rfl

/-- A parked receive leaves the list. -/
theorem Parked.remove
    {front back : List Nat}
    (list : reactor.Parked (front ++ slot :: back)) :
    (reactor.removeDeferredReceive slot).Parked (front ++ back) := by
  obtain ⟨node, found⟩ := Option.isSome_iff_exists.mp
    ((list.exact slot).mp (by simp))
  have next : node.next = back.head? := by
    have following := list.forward.next_eq
    rwa [nextDeferred, found] at following
  have backward := list.backward
  rw [List.reverse_append, List.reverse_cons, List.append_assoc,
    List.singleton_append] at backward
  have previous : node.previous = front.getLast? := by
    have preceding := backward.next_eq
    rwa [previousDeferred, found, List.head?_reverse] at preceding
  have distinct := list.distinct
  have places := place_removeDeferredReceive found
  have apart : ∀ index ∈ front ++ back, index ≠ slot := by
    rintro index member rfl
    rw [List.nodup_append, List.nodup_cons] at distinct
    rcases List.mem_append.mp member with inFront | inBack
    · exact distinct.2.2 index inFront index (by simp) rfl
    · exact distinct.2.1.1 inBack
  have parkedPlace : ∀ index ∈ front ++ back,
      ∃ other, reactor.place index = some other := by
    intro index member
    apply Option.isSome_iff_exists.mp
    apply (list.exact index).mp
    rw [List.mem_append] at member
    rw [List.mem_append, List.mem_cons]
    tauto
  have nextDeferred_eq : ∀ index ∈ front ++ back,
      (reactor.removeDeferredReceive slot).nextDeferred index =
        Chain.removeLink reactor.nextDeferred slot front.getLast? index := by
    intro index member
    obtain ⟨other, placed⟩ := parkedPlace index member
    rw [nextDeferred, places, if_neg (apart index member), placed,
      Chain.removeLink_apply, ← previous, nextDeferred, nextDeferred, found,
      placed]
    rfl
  have previousDeferred_eq : ∀ index ∈ front ++ back,
      (reactor.removeDeferredReceive slot).previousDeferred index =
        Chain.removeLink reactor.previousDeferred slot back.head? index := by
    intro index member
    obtain ⟨other, placed⟩ := parkedPlace index member
    rw [previousDeferred, places, if_neg (apart index member), placed,
      Chain.removeLink_apply, ← next, previousDeferred, previousDeferred, found,
      placed]
    rfl
  have ends := removeDeferredReceive_eq found
  refine ⟨?_, ?_, ?_, fun index => ?_, fun index other placed => ?_⟩
  · have head : (reactor.removeDeferredReceive slot).deferredReceiveHead =
        Chain.removeHead reactor.nextDeferred reactor.deferredReceiveHead slot
          front.getLast? := by
      rw [ends, Chain.removeHead_eq, ← previous, nextDeferred, found]
      refine ends_unlinkBackward.1.trans ?_
      exact ends_unlinkForward.1
    rw [head]
    exact (list.forward.remove distinct).congr nextDeferred_eq
  · have tail : (reactor.removeDeferredReceive slot).deferredReceiveTail =
        Chain.removeHead reactor.previousDeferred reactor.deferredReceiveTail
          slot back.head? := by
      rw [ends, Chain.removeHead_eq, ← next, previousDeferred, found]
      refine ends_unlinkBackward.2.trans ?_
      rw [ends_unlinkForward.2]
      rfl
    have reversed := list.distinct
    rw [← List.nodup_reverse, List.reverse_append, List.reverse_cons,
      List.append_assoc, List.singleton_append] at reversed
    rw [tail, List.reverse_append, ← List.getLast?_reverse]
    apply (backward.remove reversed).congr
    intro index member
    rw [List.getLast?_reverse]
    apply previousDeferred_eq
    rw [List.mem_append, List.mem_reverse, List.mem_reverse] at member
    rw [List.mem_append]
    exact member.symm
  · exact distinct.sublist (by simp)
  · rw [places]
    by_cases same : index = slot
    · rw [if_pos same, same]
      simpa using fun member => apart slot member rfl
    · rw [if_neg same, Option.isSome_map, ← list.exact]
      simp [same]
  · rw [Relinked.removeDeferredReceive.1.actor]
    rw [places] at placed
    by_cases same : index = slot
    · rw [if_pos same] at placed
      cases placed
    · rw [if_neg same] at placed
      obtain ⟨before, placedBefore, rfl⟩ := Option.map_eq_some_iff.mp placed
      exact list.generation index before placedBefore

end Reactor
end Wayring
