import Wayring.Foundation.ListWrites
import Wayring.Objects.ClientIds

/-!
# The abstract ID tracker

What the tracker is for, without its storage: which IDs are in use, which were
returned and in what order they will be handed out again, and the bound below
which every ID has been handed out.  The intrusive free list of `ClientIds`
may hold one entry more, the one at the bound itself, after a creation took it
and rolled back.
-/

namespace Wayring

/-- State of an ID in use. -/
inductive Standing
  | active
  | awaitingDelete
  deriving DecidableEq, Repr

namespace Standing

/-- Whether the object of an ID is a tombstone. -/
def destroyed : Standing → Bool
  | active => false
  | awaitingDelete => true

end Standing

/-- The reuse protocol on indices, the most recently returned first. -/
structure IdTracker where
  standing : Nat → Option Standing
  returned : List Nat
  bound : Nat

namespace IdTracker

/-- No ID was ever handed out. -/
def initial : IdTracker where
  standing _ := none
  returned := []
  bound := 0

/-- The index the next creation gets. -/
def upcoming (tracker : IdTracker) : Nat :=
  tracker.returned.head?.getD tracker.bound

/-- Hand out the upcoming index. -/
def acquire (tracker : IdTracker) : IdTracker where
  standing :=
    Function.update tracker.standing tracker.upcoming (some .active)
  returned := tracker.returned.tail
  bound := if tracker.returned = [] then tracker.bound + 1 else tracker.bound

/-- Make an index reusable. -/
def release (tracker : IdTracker) (index : Nat) : IdTracker :=
  { tracker with
    standing := Function.update tracker.standing index none
    returned := index :: tracker.returned }

/-- Hold an index until its deletion is confirmed. -/
def retire (tracker : IdTracker) (index : Nat) : IdTracker :=
  { tracker with
    standing :=
      Function.update tracker.standing index (some .awaitingDelete) }

@[simp] theorem acquire_standing_upcoming (tracker : IdTracker) :
    tracker.acquire.standing tracker.upcoming = some .active :=
  Function.update_self ..

@[simp] theorem release_standing_self (tracker : IdTracker) (index : Nat) :
    (tracker.release index).standing index = none :=
  Function.update_self ..

@[simp] theorem retire_standing_self (tracker : IdTracker) (index : Nat) :
    (tracker.retire index).standing index = some .awaitingDelete :=
  Function.update_self ..

/-- The indices below the bound are the used and the returned ones. -/
structure Consistent (tracker : IdTracker) : Prop where
  distinct : tracker.returned.Nodup
  returned_iff : ∀ index, index ∈ tracker.returned ↔
    index < tracker.bound ∧ tracker.standing index = none
  standing_lt : ∀ {index}, tracker.standing index ≠ none →
    index < tracker.bound

namespace Consistent

variable {tracker : IdTracker}

/-- No ID was handed out. -/
theorem initial : IdTracker.initial.Consistent where
  distinct := List.nodup_nil
  returned_iff := by simp [IdTracker.initial]
  standing_lt used := by simp [IdTracker.initial] at used

/-- The upcoming index is not in use. -/
theorem standing_upcoming (consistent : tracker.Consistent) :
    tracker.standing tracker.upcoming = none := by
  cases returned : tracker.returned with
  | nil =>
      have upcoming : tracker.upcoming = tracker.bound := by
        simp [IdTracker.upcoming, returned]
      rw [upcoming]
      by_contra used
      exact Nat.lt_irrefl _ (consistent.standing_lt used)
  | cons index rest =>
      have upcoming : tracker.upcoming = index := by
        simp [IdTracker.upcoming, returned]
      rw [upcoming]
      exact ((consistent.returned_iff index).mp (by simp [returned])).2

/-- Handing out an ID is consistent. -/
theorem acquire (consistent : tracker.Consistent) :
    tracker.acquire.Consistent := by
  have fresh := consistent.standing_upcoming
  cases returned : tracker.returned with
  | nil =>
      have upcoming : tracker.upcoming = tracker.bound := by
        simp [IdTracker.upcoming, returned]
      have full : ∀ index, index < tracker.bound →
          tracker.standing index ≠ none := by
        intro index below unused
        have := (consistent.returned_iff index).mpr ⟨below, unused⟩
        simp [returned] at this
      refine ⟨?_, fun index => ?_, fun {index} used => ?_⟩
      · simp [IdTracker.acquire, returned]
      · simp only [IdTracker.acquire, returned, upcoming, List.tail_nil,
          List.not_mem_nil, if_true, false_iff, not_and]
        intro below
        by_cases last : index = tracker.bound
        · simp [last]
        · rw [Function.update_of_ne last]
          exact full index (by omega)
      · simp only [IdTracker.acquire, returned, upcoming, if_true] at used ⊢
        by_cases last : index = tracker.bound
        · omega
        · rw [Function.update_of_ne last] at used
          have := consistent.standing_lt used
          omega
  | cons first rest =>
      have upcoming : tracker.upcoming = first := by
        simp [IdTracker.upcoming, returned]
      have distinct := consistent.distinct
      rw [returned, List.nodup_cons] at distinct
      refine ⟨?_, fun index => ?_, fun {index} used => ?_⟩
      · simpa [IdTracker.acquire, returned] using distinct.2
      · have before := consistent.returned_iff index
        simp only [IdTracker.acquire, returned, upcoming, List.tail_cons,
          List.mem_cons, reduceCtorEq, if_false] at before ⊢
        by_cases same : index = first
        · simp [same, distinct.1]
        · rw [Function.update_of_ne same, ← before]
          simp [same]
      · simp only [IdTracker.acquire, returned, upcoming, reduceCtorEq,
          if_false] at used ⊢
        by_cases same : index = first
        · rw [same]
          exact ((consistent.returned_iff first).mp (by simp [returned])).1
        · rw [Function.update_of_ne same] at used
          exact consistent.standing_lt used

/-- Giving an ID back is consistent. -/
theorem release
    (consistent : tracker.Consistent)
    {index : Nat}
    (used : tracker.standing index ≠ none) :
    (tracker.release index).Consistent := by
  have apart : index ∉ tracker.returned := fun member =>
    used ((consistent.returned_iff index).mp member).2
  refine ⟨?_, fun other => ?_, fun {other} stillUsed => ?_⟩
  · simpa [IdTracker.release] using ⟨apart, consistent.distinct⟩
  · simp only [IdTracker.release, List.mem_cons]
    by_cases same : other = index
    · simp [same, consistent.standing_lt used]
    · rw [Function.update_of_ne same, consistent.returned_iff]
      simp [same]
  · simp only [IdTracker.release] at stillUsed ⊢
    by_cases same : other = index
    · simp [same] at stillUsed
    · rw [Function.update_of_ne same] at stillUsed
      exact consistent.standing_lt stillUsed

/-- Retiring an ID is consistent. -/
theorem retire
    (consistent : tracker.Consistent)
    {index : Nat}
    (used : tracker.standing index ≠ none) :
    (tracker.retire index).Consistent := by
  refine ⟨consistent.distinct, fun other => ?_, fun {other} stillUsed => ?_⟩
  · have before := consistent.returned_iff other
    simp only [IdTracker.retire]
    by_cases same : other = index
    · subst same
      simp [before, used]
    · rw [Function.update_of_ne same]
      exact before
  · simp only [IdTracker.retire] at stillUsed ⊢
    by_cases same : other = index
    · rw [same]
      exact consistent.standing_lt used
    · rw [Function.update_of_ne same] at stillUsed
      exact consistent.standing_lt stillUsed

end Consistent
end IdTracker

/-! ## Refinement -/

namespace ClientIds

/-- Decode an entry as the state of an ID in use. -/
def decodeStanding (content : Nat) : Option Standing :=
  if content = active then some .active
  else if content = awaitingDelete then some .awaitingDelete
  else none

/-- Decode a free-list link. -/
def decodeLink (content : Nat) : Option Nat :=
  if content = noFreeId then none else some content

/-- The free-list successor of an entry. -/
def link (ids : ClientIds) (index : Nat) : Option Nat :=
  decodeLink (ids.entry index)

theorem entry_set
    {ids : ClientIds} {index : Nat}
    (bound : index < ids.entries.length)
    (content other : Nat) :
    (ids.entries.set index content).getD other neverUsed =
      if other = index then content else ids.entry other :=
  ListWrites.getD_set bound content neverUsed other

/-- Index of an ID of the client range. -/
theorem usedIndex_eq
    (ids : ClientIds)
    {index : Nat}
    (space : index < idSpace) :
    ids.usedIndex (index + 2) =
      if index ≥ ids.nextIndex then none else some index := by
  have client : ¬ (index + 2 < 2 ∨ index + 2 ≥ serverIdStart) := by
    unfold idSpace serverIdStart at space
    unfold serverIdStart
    omega
  rw [usedIndex, indexOf, if_neg client]
  rfl

/-- A link is not a standing. -/
theorem decodeStanding_of_lt
    {content : Nat}
    (small : content < idSpace) : decodeStanding content = none := by
  unfold decodeStanding active awaitingDelete neverUsed maxU32
  unfold idSpace serverIdStart at small
  rw [if_neg (by omega), if_neg (by omega)]

/-- A link is an index. -/
theorem decodeLink_of_lt
    {content : Nat}
    (small : content < idSpace) : decodeLink content = some content := by
  unfold decodeLink noFreeId neverUsed maxU32
  unfold idSpace serverIdStart at small
  rw [if_neg (by omega)]

theorem eq_active_of_decodeStanding
    {content : Nat}
    (decoded : decodeStanding content = some .active) :
    content = active := by
  unfold decodeStanding at decoded
  split at decoded
  · assumption
  · split at decoded <;> cases decoded

theorem eq_awaitingDelete_of_decodeStanding
    {content : Nat}
    (decoded : decodeStanding content = some .awaitingDelete) :
    content = awaitingDelete := by
  unfold decodeStanding at decoded
  split at decoded
  · cases decoded
  · split at decoded
    · assumption
    · cases decoded

/-- A link decodes to no state of use. -/
theorem decodeStanding_of_link
    {content : Nat}
    (linked : decodeLink content = none ∨ content < idSpace) :
    decodeStanding content = none := by
  rcases linked with last | small
  · unfold decodeLink at last
    split at last
    · next same =>
        rw [same]
        decide
    · cases last
  · exact decodeStanding_of_lt small

/-- The free list is what was returned, plus perhaps the entry at the bound. -/
structure Tracks (ids : ClientIds) (tracker : IdTracker) : Prop where
  consistent : tracker.Consistent
  chain : Chain.Linked ids.link (decodeLink ids.freeHead)
    (tracker.returned ++
      List.range' tracker.bound (ids.nextIndex - tracker.bound))
  bound_le : tracker.bound ≤ ids.nextIndex
  next_le : ids.nextIndex ≤ tracker.bound + 1
  standing_eq : ∀ index, tracker.standing index =
    if index < ids.nextIndex then decodeStanding (ids.entry index) else none
  length_pos : 0 < ids.entries.length
  length_ge : ids.nextIndex ≤ ids.entries.length
  length_le : ids.entries.length ≤ idSpace

namespace Tracks

variable {ids : ClientIds} {tracker : IdTracker}

/-- New IDs are tracked. -/
theorem init
    {maxIds : Nat}
    (admissible : ¬ (maxIds = 0 ∨ maxIds > idSpace))
    (growth : Bool) :
    Tracks { entries := List.replicate maxIds neverUsed, growth }
      IdTracker.initial where
  consistent := IdTracker.Consistent.initial
  chain := by simp [IdTracker.initial, decodeLink, noFreeId, neverUsed]
  bound_le := Nat.le_refl _
  next_le := by simp [IdTracker.initial]
  standing_eq := by simp [IdTracker.initial]
  length_pos := by
    rw [List.length_replicate]
    omega
  length_ge := Nat.zero_le _
  length_le := by
    rw [List.length_replicate]
    omega

/-- Whether taking an ID needs more entries than there are. -/
def NeedsGrowth (ids : ClientIds) (tracker : IdTracker) : Prop :=
  tracker.returned = [] ∧ tracker.bound = ids.entries.length

/-- IDs in use are in the range of the client. -/
theorem lt_idSpace
    (tracks : Tracks ids tracker)
    {index : Nat}
    (bound : index < ids.nextIndex) : index < idSpace :=
  Nat.lt_of_lt_of_le bound
    (Nat.le_trans tracks.length_ge tracks.length_le)

/-- A pop of the free list hands out the entry at its head. -/
theorem acquire_head
    (tracks : Tracks ids tracker)
    {index : Nat} {rest : List Nat} {taken : IdTracker}
    (chain : Chain.Linked ids.link (decodeLink ids.freeHead) (index :: rest))
    (bound : index < ids.nextIndex)
    (apart : index ∉ rest)
    (granted : Bool)
    (consistent : taken.Consistent)
    (standing : taken.standing =
      Function.update tracker.standing index (some .active))
    (free : rest = taken.returned ++
      List.range' taken.bound (ids.nextIndex - taken.bound))
    (lower : taken.bound ≤ ids.nextIndex)
    (upper : ids.nextIndex ≤ taken.bound + 1) :
    ∃ result, ids.acquire granted = .ok (index + 2, result) ∧
      Tracks result taken ∧ result.growth = ids.growth ∧
      result.nextIndex = ids.nextIndex ∧
      result.entries.length = ids.entries.length := by
  have head : ids.freeHead ≠ noFreeId ∧ ids.freeHead = index := by
    have first := chain.1
    unfold decodeLink at first
    split at first
    · cases first
    · next occupied => exact ⟨occupied, Option.some.inj first⟩
  have entryBound := Nat.lt_of_lt_of_le bound tracks.length_ge
  refine ⟨{ ids with
      freeHead := ids.entry index
      entries := ids.entries.set index active }, ?_,
    ⟨consistent, ?_, lower, upper, fun other => ?_, ?_, ?_, ?_⟩, rfl,
    rfl, List.length_set⟩
  · rw [acquire, if_pos head.1, head.2]
  · rw [← free]
    apply Chain.Linked.congr chain.2
    intro other member
    simp only [link, entry, entry_set entryBound]
    rw [if_neg (ne_of_mem_of_not_mem member apart)]
  · simp only [entry, entry_set entryBound, standing]
    by_cases same : other = index
    · subst same
      rw [Function.update_self, if_pos bound, if_pos rfl]
      rfl
    · rw [Function.update_of_ne same, if_neg same]
      exact tracks.standing_eq other
  · rw [List.length_set]
    exact tracks.length_pos
  · rw [List.length_set]
    exact tracks.length_ge
  · rw [List.length_set]
    exact tracks.length_le

/-- An empty free list hands out the first entry never used. -/
theorem acquire_fresh
    (tracks : Tracks ids tracker)
    (returned : tracker.returned = [])
    (next : ids.nextIndex = tracker.bound)
    (room : ids.nextIndex < ids.entries.length) :
    Tracks
      { ids with
        nextIndex := ids.nextIndex + 1
        entries := ids.entries.set ids.nextIndex active }
      tracker.acquire := by
  have upcoming : tracker.upcoming = ids.nextIndex := by
    simp [IdTracker.upcoming, returned, next]
  have chain := tracks.chain
  rw [returned, next, Nat.sub_self] at chain
  refine ⟨tracks.consistent.acquire, ?_, ?_, ?_, fun other => ?_, ?_, ?_, ?_⟩
  · simpa [IdTracker.acquire, returned, next] using chain
  · simp [IdTracker.acquire, returned, next]
  · simp [IdTracker.acquire, returned, next]
  · simp only [IdTracker.acquire, upcoming, entry, entry_set room]
    by_cases same : other = ids.nextIndex
    · rw [same, Function.update_self, if_pos (Nat.lt_succ_self _), if_pos rfl]
      rfl
    · rw [Function.update_of_ne same, tracks.standing_eq, if_neg same]
      by_cases below : other < ids.nextIndex
      · rw [if_pos below, if_pos (by omega)]
        rfl
      · rw [if_neg below, if_neg (by omega)]
  · simpa using tracks.length_pos
  · simpa using room
  · simpa using tracks.length_le

/-- Doubling the entries changes no entry. -/
theorem grown
    (tracks : Tracks ids tracker)
    (extra : Nat)
    (fits : ids.entries.length + extra ≤ idSpace) :
    Tracks
      { ids with
        entries := ids.entries ++ List.replicate extra neverUsed }
      tracker := by
  have same (index : Nat) :
      (ids.entries ++ List.replicate extra neverUsed).getD index neverUsed =
        ids.entry index := by
    simp only [List.getD_eq_getElem?_getD, entry]
    by_cases inside : index < ids.entries.length
    · rw [List.getElem?_append_left inside]
    · rw [List.getElem?_append_right (Nat.le_of_not_lt inside),
        List.getElem?_eq_none (Nat.le_of_not_lt inside),
        List.getElem?_replicate]
      split <;> rfl
  refine ⟨tracks.consistent, ?_, tracks.bound_le, tracks.next_le,
    fun index => ?_, ?_, ?_, ?_⟩
  · apply Chain.Linked.congr tracks.chain
    intro index _
    simp only [link, entry, same]
  · simp only [entry, same]
    exact tracks.standing_eq index
  · have := tracks.length_pos
    simp only [List.length_append]
    omega
  · have := tracks.length_ge
    simp only [List.length_append]
    omega
  · simpa using fits

/-- Why taking an ID can fail. -/
def Refused
    (ids : ClientIds)
    (tracker : IdTracker)
    (granted : Bool) : Error → Prop
  | .exhausted =>
      NeedsGrowth ids tracker ∧
        (ids.growth = false ∨ ids.entries.length = idSpace)
  | .outOfMemory =>
      NeedsGrowth ids tracker ∧ ids.growth = true ∧
        ids.entries.length < idSpace ∧ granted = false
  | _ => False

/-- Taking an ID hands out the upcoming index or reports a lack of room. -/
theorem acquire_spec
    (tracks : Tracks ids tracker)
    (granted : Bool) :
    (∃ result, ids.acquire granted = .ok (tracker.upcoming + 2, result) ∧
      Tracks result tracker.acquire ∧ result.growth = ids.growth ∧
      result.nextIndex ≤ tracker.bound + 1 ∧
      ((¬ NeedsGrowth ids tracker ∧
          result.entries.length = ids.entries.length) ∨
        (NeedsGrowth ids tracker ∧ granted = true ∧
          ids.entries.length < idSpace ∧ ids.growth = true ∧
          result.entries.length = min (ids.entries.length * 2) idSpace))) ∨
    ∃ cause, ids.acquire granted = .error cause ∧
      Refused ids tracker granted cause := by
  have lower := tracks.bound_le
  have upper := tracks.next_le
  have lengthBound := tracks.length_ge
  have chain := tracks.chain
  cases returned : tracker.returned with
  | cons index rest =>
      have upcoming : tracker.upcoming = index := by
        simp [IdTracker.upcoming, returned]
      have member := (tracks.consistent.returned_iff index).mp
        (by simp [returned])
      have distinct := tracks.consistent.distinct
      rw [returned, List.nodup_cons] at distinct
      rw [returned, List.cons_append] at chain
      obtain ⟨result, taken, resultTracks, growth, next, length⟩ :=
        tracks.acquire_head chain (by omega)
          (by
            simp only [List.mem_append, List.mem_range'_1, not_or]
            exact ⟨distinct.1, by omega⟩)
          granted tracks.consistent.acquire
          (by simp [IdTracker.acquire, upcoming])
          (by simp [IdTracker.acquire, returned])
          (by simpa [IdTracker.acquire, returned] using lower)
          (by simpa [IdTracker.acquire, returned] using upper)
      rw [upcoming]
      refine Or.inl ⟨result, taken, resultTracks, growth, by omega,
        Or.inl ⟨?_, length⟩⟩
      rintro ⟨empty, _⟩
      rw [returned] at empty
      cases empty
  | nil =>
      have upcoming : tracker.upcoming = tracker.bound := by
        simp [IdTracker.upcoming, returned]
      rw [upcoming]
      by_cases spare : ids.nextIndex = tracker.bound
      · have unlinked : ¬ ids.freeHead ≠ noFreeId := by
          rw [returned, spare, Nat.sub_self] at chain
          intro occupied
          simp [decodeLink, occupied] at chain
        by_cases full : ids.nextIndex = ids.entries.length
        · have needs : NeedsGrowth ids tracker :=
            ⟨returned, by rw [← spare, full]⟩
          cases growth : ids.growth with
          | false =>
              refine Or.inr ⟨.exhausted, ?_, needs, Or.inl growth⟩
              simp only [acquire, if_neg unlinked, if_pos full, grow, growth]
              rfl
          | true =>
              by_cases widest : ids.entries.length = idSpace
              · refine Or.inr ⟨.exhausted, ?_, needs, Or.inr widest⟩
                simp only [acquire, if_neg unlinked, if_pos full, grow, growth,
                  if_pos widest]
                rfl
              · have narrower := Nat.lt_of_le_of_ne tracks.length_le widest
                cases granted with
                | false =>
                    refine Or.inr ⟨.outOfMemory, ?_, needs, growth, narrower,
                      rfl⟩
                    simp only [acquire, if_neg unlinked, if_pos full, grow,
                      growth, if_neg widest]
                    rfl
                | true =>
                    have positive := tracks.length_pos
                    have doubled := tracks.grown
                      (min (ids.entries.length * 2) idSpace -
                        ids.entries.length) (by omega)
                    refine Or.inl ⟨_, ?_, doubled.acquire_fresh returned spare
                      (by simp; omega), growth, by simp [spare],
                      Or.inr ⟨needs, rfl, narrower, rfl, ?_⟩⟩
                    · simp only [acquire, if_neg unlinked, if_pos full, grow,
                        growth, if_neg widest, ← spare]
                      rfl
                    · simp only [List.length_set, List.length_append,
                        List.length_replicate]
                      omega
        · have room := Nat.lt_of_le_of_ne lengthBound full
          refine Or.inl ⟨_, ?_, tracks.acquire_fresh returned spare room, rfl,
            by simp [spare], Or.inl ⟨?_, List.length_set⟩⟩
          · simp only [acquire, if_neg unlinked, if_neg full, ← spare]
            rfl
          · rintro ⟨_, filled⟩
            omega
      · have above : ids.nextIndex = tracker.bound + 1 := by omega
        rw [returned, above, Nat.add_sub_cancel_left] at chain
        obtain ⟨result, taken, resultTracks, growth, next, length⟩ :=
          tracks.acquire_head chain (by omega) (by simp) granted
            tracks.consistent.acquire
            (by simp [IdTracker.acquire, upcoming])
            (by simp [IdTracker.acquire, returned, above])
            (by simp [IdTracker.acquire, returned, above])
            (by simp [IdTracker.acquire, returned, above])
        refine Or.inl ⟨result, taken, resultTracks, growth, by omega,
          Or.inl ⟨?_, length⟩⟩
        rintro ⟨_, filled⟩
        omega

/-- The index of an ID in use was handed out. -/
theorem usedIndex_of_standing
    (tracks : Tracks ids tracker)
    {index : Nat}
    (used : tracker.standing index ≠ none) :
    ids.usedIndex (index + 2) = some index ∧ index < ids.nextIndex := by
  have below := Nat.lt_of_lt_of_le (tracks.consistent.standing_lt used)
    tracks.bound_le
  refine ⟨?_, below⟩
  rw [usedIndex_eq ids (tracks.lt_idSpace below),
    if_neg (Nat.not_le_of_lt below)]

/-- The entry of an ID has its standing. -/
theorem decodeStanding_entry
    (tracks : Tracks ids tracker)
    {index : Nat}
    (used : tracker.standing index ≠ none) :
    decodeStanding (ids.entry index) = tracker.standing index := by
  rw [tracks.standing_eq, if_pos (tracks.usedIndex_of_standing used).2]

/-- Releasing an ID in use pushes it on the free list. -/
theorem releaseIndex
    (tracks : Tracks ids tracker)
    {index : Nat}
    (used : tracker.standing index ≠ none) :
    Tracks (ids.releaseIndex index) (tracker.release index) := by
  have below := (tracks.usedIndex_of_standing used).2
  have belowBound := tracks.consistent.standing_lt used
  have entryBound := Nat.lt_of_lt_of_le below tracks.length_ge
  have apart : index ∉ tracker.returned ++
      List.range' tracker.bound (ids.nextIndex - tracker.bound) := by
    simp only [List.mem_append, List.mem_range'_1, not_or]
    refine ⟨fun member => used ?_, by omega⟩
    exact ((tracks.consistent.returned_iff index).mp member).2
  have headLink : decodeLink ids.freeHead = none ∨
      ids.freeHead < idSpace := by
    cases decoded : decodeLink ids.freeHead with
    | none => exact Or.inl rfl
    | some head =>
        have chain := tracks.chain
        rw [decoded] at chain
        have same : ids.freeHead = head := by
          unfold decodeLink at decoded
          split at decoded
          · cases decoded
          · exact Option.some.inj decoded
        have first := chain.head_eq
        have member : head ∈ tracker.returned ++
            List.range' tracker.bound (ids.nextIndex - tracker.bound) :=
          List.mem_of_mem_head? first.symm
        rw [List.mem_append, List.mem_range'_1] at member
        have lower := tracks.bound_le
        refine Or.inr (tracks.lt_idSpace ?_)
        rw [same]
        rcases member with returned | spare
        · have := (tracks.consistent.returned_iff head).mp returned
          omega
        · omega
  refine ⟨tracks.consistent.release used, ?_, tracks.bound_le,
    tracks.next_le, fun other => ?_, ?_, ?_, ?_⟩
  · rw [IdTracker.release, List.cons_append]
    simp only [ClientIds.releaseIndex]
    rw [decodeLink_of_lt (tracks.lt_idSpace below)]
    refine (tracks.chain.push apart).congr fun other member => ?_
    simp only [link, entry, entry_set entryBound]
    by_cases same : other = index
    · rw [if_pos same, same, Function.update_self]
    · rw [if_neg same, Function.update_of_ne same]
      rfl
  · simp only [IdTracker.release, ClientIds.releaseIndex, entry,
      entry_set entryBound]
    by_cases same : other = index
    · rw [same, Function.update_self, if_pos below, if_pos rfl,
        decodeStanding_of_link headLink]
    · rw [Function.update_of_ne same, if_neg same]
      exact tracks.standing_eq other
  · simpa [ClientIds.releaseIndex] using tracks.length_pos
  · simpa [ClientIds.releaseIndex] using tracks.length_ge
  · simpa [ClientIds.releaseIndex] using tracks.length_le

/-- An ID that was not published goes back. -/
theorem cancelUnpublished_eq
    (tracks : Tracks ids tracker)
    {index : Nat}
    (used : tracker.standing index = some .active) :
    ids.cancelUnpublished (index + 2) = .ok (ids.releaseIndex index) := by
  have inUse : tracker.standing index ≠ none := by simp [used]
  have content := eq_active_of_decodeStanding
    ((tracks.decodeStanding_entry inUse).trans used)
  simp [cancelUnpublished, tracks.usedIndex_of_standing inUse, content]

theorem cancelUnpublished_awaitingDelete
    (tracks : Tracks ids tracker)
    {index : Nat}
    (used : tracker.standing index = some .awaitingDelete) :
    ids.cancelUnpublished (index + 2) = .error .invalidTransition := by
  have inUse : tracker.standing index ≠ none := by simp [used]
  have content := eq_awaitingDelete_of_decodeStanding
    ((tracks.decodeStanding_entry inUse).trans used)
  have apart : awaitingDelete ≠ active := by decide
  simp [cancelUnpublished, tracks.usedIndex_of_standing inUse, content, apart]

/-- An ID whose `delete_id` came goes back. -/
theorem deleted_eq
    (tracks : Tracks ids tracker)
    {index : Nat}
    (used : tracker.standing index = some .awaitingDelete) :
    ids.deleted (index + 2) = .ok (ids.releaseIndex index) := by
  have inUse : tracker.standing index ≠ none := by simp [used]
  have content := eq_awaitingDelete_of_decodeStanding
    ((tracks.decodeStanding_entry inUse).trans used)
  simp [deleted, tracks.usedIndex_of_standing inUse, content]

/-- Retiring an active ID holds it back. -/
theorem retire_spec
    (tracks : Tracks ids tracker)
    {index : Nat}
    (used : tracker.standing index = some .active) :
    ∃ result, ids.retire (index + 2) = .ok result ∧
      Tracks result (tracker.retire index) ∧ result.growth = ids.growth ∧
      result.entries.length = ids.entries.length := by
  have inUse : tracker.standing index ≠ none := by simp [used]
  have below := (tracks.usedIndex_of_standing inUse).2
  have entryBound := Nat.lt_of_lt_of_le below tracks.length_ge
  have content := eq_active_of_decodeStanding
    ((tracks.decodeStanding_entry inUse).trans used)
  refine ⟨{ ids with entries := ids.entries.set index awaitingDelete }, ?_,
    ⟨tracks.consistent.retire inUse, ?_, tracks.bound_le, tracks.next_le,
      fun other => ?_, ?_, ?_, ?_⟩, rfl, List.length_set⟩
  · simp [retire, tracks.usedIndex_of_standing inUse, content]
  · apply tracks.chain.congr
    intro other member
    simp only [link, entry, entry_set entryBound]
    rw [if_neg]
    rintro rfl
    have belowBound := tracks.consistent.standing_lt inUse
    simp only [List.mem_append, List.mem_range'_1] at member
    rcases member with returned | spare
    · exact inUse ((tracks.consistent.returned_iff other).mp returned).2
    · omega
  · simp only [IdTracker.retire, entry, entry_set entryBound]
    by_cases same : other = index
    · rw [same, Function.update_self, if_pos below, if_pos rfl]
      rfl
    · rw [Function.update_of_ne same, if_neg same]
      exact tracks.standing_eq other
  · simpa using tracks.length_pos
  · simpa using tracks.length_ge
  · simpa using tracks.length_le

/-- Taking an ID and giving it back at once changes nothing a client can see,
even when the ID had never been used: then it stays on the free list, where it
is the next one to be taken anyway. -/
theorem rollback
    (consistent : tracker.Consistent)
    (upper : ids.nextIndex ≤ tracker.bound + 1)
    (tracks : Tracks ids (tracker.acquire.release tracker.upcoming)) :
    Tracks ids tracker := by
  have standing : (tracker.acquire.release tracker.upcoming).standing =
      tracker.standing := by
    funext index
    simp only [IdTracker.release, IdTracker.acquire, Function.update_idem]
    by_cases same : index = tracker.upcoming
    · rw [same, Function.update_self, consistent.standing_upcoming]
    · rw [Function.update_of_ne same]
  have lower := tracks.bound_le
  have chain := tracks.chain
  have decoded (index : Nat) : tracker.standing index =
      if index < ids.nextIndex then decodeStanding (ids.entry index)
      else none := by
    rw [← tracks.standing_eq, standing]
  cases returned : tracker.returned with
  | nil =>
      simp only [IdTracker.release, IdTracker.acquire, IdTracker.upcoming,
        returned, List.tail_nil, List.head?_nil, Option.getD_none, if_true]
        at chain lower
      have spare : ids.nextIndex = tracker.bound + 1 := by omega
      refine ⟨consistent, ?_, by omega, upper, decoded, tracks.length_pos,
        tracks.length_ge, tracks.length_le⟩
      simpa [returned, spare] using chain
  | cons index rest =>
      simp only [IdTracker.release, IdTracker.acquire, IdTracker.upcoming,
        returned, List.tail_cons, List.head?_cons, Option.getD_some,
        reduceCtorEq, if_false] at chain lower
      refine ⟨consistent, ?_, lower, upper, decoded, tracks.length_pos,
        tracks.length_ge, tracks.length_le⟩
      simpa [returned] using chain

/-- The tracker's own decoding of an entry agrees with its abstraction. -/
theorem status_eq
    (tracks : Tracks ids tracker)
    {index : Nat}
    (space : index < idSpace) :
    ids.status (index + 2) =
      match tracker.standing index with
      | some .active => .active
      | some .awaitingDelete => .awaitingDelete
      | none => if index < ids.nextIndex then .free else .neverUsed := by
  rw [tracks.standing_eq, status, usedIndex_eq ids space]
  by_cases below : index < ids.nextIndex
  · simp only [if_neg (Nat.not_le_of_lt below), if_pos below, decodeStanding]
    split_ifs <;> rfl
  · simp only [if_pos (Nat.le_of_not_lt below), if_neg below]

end Tracks
end ClientIds
end Wayring
