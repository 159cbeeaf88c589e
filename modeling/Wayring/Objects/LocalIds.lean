import Wayring.Foundation.Chain
import Wayring.Foundation.ListWrites
import Wayring.Objects.NamespaceMap
import Wayring.Objects.ServerObjects

/-!
# IDs of server objects

Free server IDs form a chain through their own entries, and every live object
in the server range has an ID in use.  So a removal of such an object never
fails to give its ID back.
-/

namespace Wayring
namespace ServerIds

variable {ids later : ServerIds} {free : List Nat}

/-- The free ID behind a link. -/
def target (link : Nat) : Option Nat :=
  if link = noFreeId then none else some link

/-- The free IDs are chained, and each of them was handed out before. -/
structure Sound (ids : ServerIds) (free : List Nat) : Prop where
  nextIndex_le : ids.nextIndex ≤ ids.entries.length
  length_le : ids.entries.length ≤ SharedObjectPool.serverIdSpace
  linked : Chain.Linked (fun index => target (ids.entry index))
    (target ids.freeHead) free
  distinct : free.Nodup
  released : ∀ index ∈ free, index < ids.nextIndex ∧ ids.entry index ≠ active

/-- An ID that was handed out and not released. -/
def Active (ids : ServerIds) (id : Nat) : Prop :=
  ∃ index, ids.usedIndex id = some index ∧ ids.entry index = active

/-- An ID was handed out at its index. -/
theorem usedIndex_eq_some_iff
    {id index : Nat} :
    ids.usedIndex id = some index ↔
      id = serverIdStart + index ∧ index < ids.nextIndex := by
  unfold usedIndex
  constructor
  · intro used
    by_cases low : id < serverIdStart
    · rw [if_pos low] at used
      cases used
    rw [if_neg low] at used
    by_cases beyond : id - serverIdStart ≥ ids.nextIndex
    · exact absurd ((if_pos beyond).symm.trans used) (Option.some_ne_none _).symm
    · have same := Option.some.inj ((if_neg beyond).symm.trans used)
      omega
  · rintro ⟨rfl, inside⟩
    rw [if_neg (by omega), Nat.add_sub_cancel_left]
    exact if_neg (by omega)

/-- An ID is in use when its entry is marked so. -/
theorem active_add_iff
    {index : Nat} :
    ids.Active (serverIdStart + index) ↔
      index < ids.nextIndex ∧ ids.entry index = active := by
  constructor
  · rintro ⟨other, used, isActive⟩
    obtain ⟨same, inside⟩ := usedIndex_eq_some_iff.mp used
    have equal : index = other := by omega
    rw [equal]
    exact ⟨inside, isActive⟩
  · rintro ⟨inside, isActive⟩
    exact ⟨index, usedIndex_eq_some_iff.mpr ⟨rfl, inside⟩, isActive⟩

theorem entry_set
    {index : Nat}
    (bound : index < ids.entries.length)
    (nextIndex freeHead value position : Nat) :
    ({ entries := ids.entries.set index value, nextIndex, freeHead } :
      ServerIds).entry position =
        if position = index then value else ids.entry position :=
  ListWrites.getD_set bound value _ position

/-- New IDs are sound. -/
theorem Sound.init
    {maxIds : Nat} {granted : Bool}
    (created : init maxIds granted = .ok ids) : ids.Sound [] := by
  unfold ServerIds.init at created
  split_ifs at created with invalid memory
  cases created
  exact {
    nextIndex_le := Nat.zero_le _
    length_le := by
      rw [List.length_replicate]
      omega
    linked := rfl
    distinct := List.nodup_nil
    released := fun _ member => absurd member List.not_mem_nil }

/-- Handing out an ID makes it active, and no other ID inactive. -/
theorem Sound.acquire
    {id : Nat}
    (sound : ids.Sound free)
    (taken : ids.acquire = .ok (id, later)) :
    (∃ rest, later.Sound rest) ∧ serverIdStart ≤ id ∧ ¬ ids.Active id ∧
      later.Active id ∧ ∀ other, ids.Active other → later.Active other := by
  unfold ServerIds.acquire at taken
  split_ifs at taken with recycled exhausted
  · cases taken
    have linked := sound.linked
    cases shape : free with
    | nil =>
        rw [shape, Chain.linked_nil, target, if_neg recycled] at linked
        cases linked
    | cons first rest =>
        rw [shape, Chain.linked_cons] at linked
        obtain ⟨head, linkedRest⟩ := linked
        rw [target, if_neg recycled] at head
        cases head
        have member : ids.freeHead ∈ free := by simp [shape]
        obtain ⟨inside, inactive⟩ := sound.released _ member
        have bound := Nat.lt_of_lt_of_le inside sound.nextIndex_le
        have distinct := sound.distinct
        rw [shape, List.nodup_cons] at distinct
        have entry := @entry_set ids ids.freeHead bound ids.nextIndex
          (ids.entry ids.freeHead) active
        have kept : ∀ position ∈ rest, position ≠ ids.freeHead :=
          fun position within => ne_of_mem_of_not_mem within distinct.1
        refine ⟨⟨rest, ?_⟩, Nat.le_add_right _ _, ?_, ?_, ?_⟩
        · exact {
            nextIndex_le := by
              rw [List.length_set]
              exact sound.nextIndex_le
            length_le := by
              rw [List.length_set]
              exact sound.length_le
            linked := by
              apply linkedRest.congr
              intro position within
              rw [entry, if_neg (kept position within)]
            distinct := distinct.2
            released := by
              intro position within
              rw [entry, if_neg (kept position within)]
              exact sound.released position
                (shape ▸ List.mem_cons_of_mem _ within) }
        · rw [active_add_iff]
          exact fun both => inactive both.2
        · rw [active_add_iff, entry, if_pos rfl]
          exact ⟨inside, rfl⟩
        · rintro other ⟨index, used, isActive⟩
          refine ⟨index, used, ?_⟩
          rw [entry, isActive, ite_self]
  · cases taken
    have bound : ids.nextIndex < ids.entries.length :=
      Nat.lt_of_le_of_ne sound.nextIndex_le exhausted
    have entry := @entry_set ids ids.nextIndex bound (ids.nextIndex + 1)
      ids.freeHead active
    have kept : ∀ position ∈ free, position ≠ ids.nextIndex :=
      fun position within => Nat.ne_of_lt (sound.released position within).1
    refine ⟨⟨free, ?_⟩, Nat.le_add_right _ _, ?_, ?_, ?_⟩
    · exact {
        nextIndex_le := by
          rw [List.length_set]
          exact bound
        length_le := by
          rw [List.length_set]
          exact sound.length_le
        linked := by
          apply sound.linked.congr
          intro position within
          rw [entry, if_neg (kept position within)]
        distinct := sound.distinct
        released := by
          intro position within
          obtain ⟨inside, inactive⟩ := sound.released position within
          rw [entry, if_neg (kept position within)]
          exact ⟨Nat.lt_succ_of_lt inside, inactive⟩ }
    · rw [active_add_iff]
      exact fun both => Nat.lt_irrefl _ both.1
    · rw [active_add_iff, entry, if_pos rfl]
      exact ⟨Nat.lt_succ_self _, rfl⟩
    · rintro other ⟨index, used, isActive⟩
      obtain ⟨same, inside⟩ := usedIndex_eq_some_iff.mp used
      refine ⟨index, usedIndex_eq_some_iff.mpr
        ⟨same, Nat.lt_succ_of_lt inside⟩, ?_⟩
      rw [entry, isActive, ite_self]

theorem Sound.freeHead_ne
    (sound : ids.Sound free) : ids.freeHead ≠ active := by
  intro same
  have linked := sound.linked
  have apart : active ≠ noFreeId := by decide
  have head : target ids.freeHead = some ids.freeHead := by
    rw [target, if_neg (same ▸ apart)]
  cases shape : free with
  | nil =>
      rw [shape, Chain.linked_nil, head] at linked
      cases linked
  | cons first rest =>
      rw [shape, Chain.linked_cons, head] at linked
      have first_eq := Option.some.inj linked.1
      have inside := (sound.released first (by simp [shape])).1
      have length := sound.length_le
      have within := sound.nextIndex_le
      have spaces : SharedObjectPool.serverIdSpace < active := by decide
      omega

/-- An active ID can be given back, and no other changes. -/
theorem Sound.release
    {id : Nat}
    (sound : ids.Sound free)
    (isActive : ids.Active id) :
    ∃ later, ids.release id = .ok later ∧ (∃ rest, later.Sound rest) ∧
      ∀ other, other ≠ id → ids.Active other → later.Active other := by
  obtain ⟨index, used, value⟩ := isActive
  obtain ⟨rfl, inside⟩ := usedIndex_eq_some_iff.mp used
  have bound := Nat.lt_of_lt_of_le inside sound.nextIndex_le
  have entry := @entry_set ids index bound ids.nextIndex index ids.freeHead
  have fresh : index ∉ free := fun member =>
    (sound.released index member).2 value
  have small : index < SharedObjectPool.serverIdSpace :=
    Nat.lt_of_lt_of_le bound sound.length_le
  have spaces : SharedObjectPool.serverIdSpace < noFreeId := by decide
  have link : target index = some index := if_neg (by omega)
  refine ⟨{ ids with
    entries := ids.entries.set index ids.freeHead
    freeHead := index }, ?_, ⟨index :: free, ?_⟩, ?_⟩
  · unfold ServerIds.release
    rw [used]
    exact if_neg (not_not.mpr value)
  · exact {
      nextIndex_le := by
        rw [List.length_set]
        exact sound.nextIndex_le
      length_le := by
        rw [List.length_set]
        exact sound.length_le
      linked := by
        refine ⟨link, ?_⟩
        simp only
        rw [entry index, if_pos rfl]
        apply sound.linked.congr
        intro position within
        rw [entry, if_neg (ne_of_mem_of_not_mem within fresh)]
      distinct := List.nodup_cons.mpr ⟨fresh, sound.distinct⟩
      released := by
        intro position within
        rw [entry]
        rcases List.mem_cons.mp within with rfl | inFree
        · rw [if_pos rfl]
          exact ⟨inside, sound.freeHead_ne⟩
        · rw [if_neg (ne_of_mem_of_not_mem inFree fresh)]
          exact sound.released position inFree }
  · rintro other different ⟨position, usedOther, isActive⟩
    refine ⟨position, usedOther, ?_⟩
    rw [entry, if_neg, isActive]
    rintro rfl
    exact different (usedIndex_eq_some_iff.mp usedOther).1

end ServerIds
end Wayring
