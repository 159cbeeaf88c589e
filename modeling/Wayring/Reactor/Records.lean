import Wayring.Reactor.Directory
import Wayring.Reactor.Reactor

/-!
# Connection records

Every active slot has a record, whose actor has the slot's generation.
-/

namespace Wayring
namespace Reactor

variable {reactor after : Reactor} {peer : Peer} {slot : Nat}
  {record : ConnectionRecord}

/-- The actor in a slot. -/
def actor (reactor : Reactor) (slot : Nat) : Option Actor :=
  (reactor.record slot).map ConnectionRecord.actor

/-- The place of a slot in the list of deferred receives. -/
def place (reactor : Reactor) (slot : Nat) : Option DeferredReceive :=
  (reactor.record slot).bind ConnectionRecord.deferredReceive

/-- The records after one was written. -/
theorem record_setRecord
    (present : (reactor.record slot).isSome = true ∨ slot < reactor.records.length)
    (new : Option ConnectionRecord) (index : Nat) :
    (reactor.setRecord slot new).record index =
      if index = slot then new else reactor.record index := by
  have inside : slot < reactor.records.length := by
    rcases present with some | inside
    · apply Nat.lt_of_not_le
      intro outside
      rw [record, List.getElem?_eq_none outside] at some
      cases some
    · exact inside
  unfold record setRecord
  rw [List.getElem?_set]
  grind

@[simp] theorem record_updateRecord
    (change : ConnectionRecord → ConnectionRecord) (index : Nat) :
    (reactor.updateRecord slot change).record index =
      if index = slot then (reactor.record slot).map change
      else reactor.record index := by
  unfold updateRecord
  cases found : reactor.record slot with
  | some before =>
      rw [record_setRecord (by simp [found])]
  | none =>
      unfold record setRecord at *
      rw [List.getElem?_set]
      grind

@[simp] theorem actor_updateDeferred
    (change : DeferredReceive → DeferredReceive) (index : Nat) :
    (reactor.updateDeferred slot change).actor index = reactor.actor index := by
  unfold actor updateDeferred
  rw [record_updateRecord]
  split_ifs with same
  · rw [same, Option.map_map]
    rfl
  · rfl

@[simp] theorem place_updateDeferred
    (change : DeferredReceive → DeferredReceive) (index : Nat) :
    (reactor.updateDeferred slot change).place index =
      if index = slot then (reactor.place slot).map change
      else reactor.place index := by
  unfold place updateDeferred
  rw [record_updateRecord]
  split_ifs with same
  · cases reactor.record slot <;> rfl
  · rfl

@[simp] theorem actor_setDeferred
    (deferredReceive : Option DeferredReceive) (index : Nat) :
    (reactor.setDeferred slot deferredReceive).actor index =
      reactor.actor index := by
  unfold actor setDeferred
  rw [record_updateRecord]
  split_ifs with same
  · rw [same, Option.map_map]
    rfl
  · rfl

@[simp] theorem place_setDeferred
    (deferredReceive : Option DeferredReceive) (index : Nat) :
    (reactor.setDeferred slot deferredReceive).place index =
      if index = slot then (reactor.record slot).bind fun _ => deferredReceive
      else reactor.place index := by
  unfold place setDeferred
  rw [record_updateRecord]
  split_ifs with same
  · cases reactor.record slot <;> rfl
  · rfl

@[simp] theorem actor_setActor
    (new : Actor) (index : Nat) :
    (reactor.setActor slot new).actor index =
      if index = slot then (reactor.actor slot).map fun _ => new
      else reactor.actor index := by
  unfold actor setActor
  rw [record_updateRecord]
  split_ifs with same
  · cases reactor.record slot <;> rfl
  · rfl

@[simp] theorem place_setActor
    (new : Actor) (index : Nat) :
    (reactor.setActor slot new).place index = reactor.place index := by
  unfold place setActor
  rw [record_updateRecord]
  split_ifs with same
  · rw [same]
    cases reactor.record slot <;> rfl
  · rfl

/-- Slots and records agree. -/
structure Consistent (reactor : Reactor) : Prop where
  slots : reactor.slots.WellFormed
  active : ∀ slot, reactor.slots.active slot =
    (reactor.actor slot).map Actor.generation
  named : ∀ slot actor, reactor.actor slot = some actor → actor.slot = slot

/-- A peer is there when its slot has its generation. -/
def Present (reactor : Reactor) (peer : Peer) (actor : Actor) : Prop :=
  reactor.actor peer.slot = some actor ∧ actor.generation = peer.generation

/-- A current peer has its record. -/
theorem Consistent.getRecord_eq_ok_iff
    (consistent : reactor.Consistent) :
    reactor.getRecord peer = .ok record ↔
      reactor.record peer.slot = some record ∧
        record.actor.generation = peer.generation := by
  have active := consistent.active peer.slot
  unfold getRecord
  cases token : reactor.slots.token peer .receive with
  | error cause =>
      have inactive : reactor.slots.active peer.slot ≠ some peer.generation := by
        intro isActive
        rw [Slots.token_eq_ok_iff.mpr ⟨isActive, rfl⟩] at token
        cases token
      simp only [reduceCtorEq, false_iff, not_and]
      intro found same
      rw [active, actor, found] at inactive
      exact inactive (congrArg some same)
  | ok userData =>
      obtain ⟨isActive, _⟩ := Slots.token_eq_ok_iff.mp token
      rw [isActive, actor] at active
      cases found : reactor.record peer.slot with
      | none =>
          rw [found] at active
          cases active
      | some other =>
          rw [found] at active
          have same : other.actor.generation = peer.generation :=
            (Option.some.inj active).symm
          simp only [Except.ok.injEq, Option.some.injEq]
          constructor
          · rintro rfl
            exact ⟨rfl, same⟩
          · exact fun both => both.1

/-- A current peer has its actor. -/
theorem Consistent.getActor_eq_ok_iff
    {actor : Actor}
    (consistent : reactor.Consistent) :
    reactor.getActor peer = .ok actor ↔ reactor.Present peer actor := by
  unfold getActor Present
  constructor
  · intro got
    cases found : reactor.getRecord peer with
    | error cause =>
        rw [found] at got
        cases got
    | ok record =>
        rw [found] at got
        cases got
        obtain ⟨recorded, generation⟩ := consistent.getRecord_eq_ok_iff.mp found
        rw [Reactor.actor, recorded]
        exact ⟨rfl, generation⟩
  · rintro ⟨recorded, generation⟩
    unfold Reactor.actor at recorded
    cases found : reactor.record peer.slot with
    | none =>
        rw [found] at recorded
        cases recorded
    | some record =>
        rw [found] at recorded
        cases recorded
        rw [consistent.getRecord_eq_ok_iff.mpr ⟨found, generation⟩]
        rfl

/-- The actor of a record that was found. -/
theorem Consistent.present
    (consistent : reactor.Consistent)
    (found : reactor.getRecord peer = .ok record) :
    reactor.Present peer record.actor := by
  obtain ⟨recorded, generation⟩ := consistent.getRecord_eq_ok_iff.mp found
  exact ⟨by rw [actor, recorded]; rfl, generation⟩

/-- The identity of an actor never changes, so slots and records agree. -/
theorem Consistent.setActor
    {actor next : Actor}
    (consistent : reactor.Consistent)
    (found : reactor.actor slot = some actor)
    (slotSame : next.slot = actor.slot)
    (generationSame : next.generation = actor.generation) :
    (reactor.setActor slot next).Consistent where
  slots := consistent.slots
  active index := by
    rw [actor_setActor]
    have active := consistent.active index
    split_ifs with same
    · subst same
      rw [found] at active ⊢
      exact active.trans (congrArg some generationSame.symm)
    · exact active
  named index other := by
    rw [actor_setActor]
    intro recorded
    split_ifs at recorded with same
    · rw [found] at recorded
      cases recorded
      rw [slotSame, same]
      exact consistent.named slot actor found
    · exact consistent.named index other recorded

end Reactor
end Wayring
