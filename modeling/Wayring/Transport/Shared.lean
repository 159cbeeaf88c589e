import Wayring.Transport.QueueStream

/-!
# Queues that share pools

Each owner has a transmit queue on its own entries of the pools, so an
operation of one owner leaves the others alone.
-/

namespace Wayring
namespace Storage

open LeasePool (Moves)

/-- Every owner has chains of its own. -/
structure Apart (owners : Nat → List Nat) : Prop where
  apart : ∀ owner other, owner ≠ other →
    ∀ index ∈ owners owner, index ∉ owners other

/-- A chain that moved stays apart, if the others are in use. -/
theorem Apart.moves
    {α : Type} {before after : Nat → Option (LeasePool.Cell α)}
    {owners : Nat → List Nat} {owner : Nat} {now : List Nat}
    (apart : Apart owners)
    (used : ∀ other, owner ≠ other →
      ∀ index ∈ owners other, before index ≠ none)
    (moves : Moves before after (owners owner) now) :
    Apart (Function.update owners owner now) where
  apart first second distinct index inFirst inSecond := by
    have fresh : ∀ other, owner ≠ other → index ∈ now →
        index ∉ owners other := by
      intro other differs inNow inOther
      rcases moves.fresh index inNow with owned | unused
      · exact apart.apart owner other differs index owned inOther
      · exact used other differs index inOther unused
    by_cases isFirst : first = owner
    · subst isFirst
      rw [Function.update_self] at inFirst
      rw [Function.update_of_ne distinct.symm] at inSecond
      exact fresh second distinct inFirst inSecond
    · rw [Function.update_of_ne isFirst] at inFirst
      by_cases isSecond : second = owner
      · subst isSecond
        rw [Function.update_self] at inSecond
        exact fresh first distinct.symm inSecond inFirst
      · rw [Function.update_of_ne isSecond] at inSecond
        exact apart.apart first second distinct index inFirst inSecond

/-- The queues of all owners, on chains of their own. -/
structure Shared
    (storage : Storage)
    (queues : Nat → Option Tx.Queue)
    (blocks fds : Nat → List Nat) : Prop where
  wellFormed : storage.WellFormed
  stores : ∀ owner queue, queues owner = some queue →
    ∃ bytes descriptors, queue.Stores storage bytes descriptors (blocks owner)
      (fds owner)
  vacant : ∀ owner, queues owner = none → blocks owner = [] ∧ fds owner = []
  blocksApart : Apart blocks
  fdsApart : Apart fds

variable {storage after : Storage} {queues queuesNow : Nat → Option Tx.Queue}
  {blocks fds : Nat → List Nat} {owner : Nat} {now fdsNow : List Nat}

/-- Nothing is queued. -/
theorem Shared.empty
    (wellFormed : storage.WellFormed)
    (none : ∀ owner, queues owner = none) :
    Shared storage queues (fun _ => []) fun _ => [] where
  wellFormed := wellFormed
  stores owner queue found := by
    rw [none] at found
    cases found
  vacant _ _ := ⟨rfl, rfl⟩
  blocksApart := ⟨by simp⟩
  fdsApart := ⟨by simp⟩

/-- The entries of an owner are in use. -/
theorem Shared.used
    (shared : Shared storage queues blocks fds)
    (owner : Nat) :
    (∀ index ∈ blocks owner, storage.blocks.pool.cell index ≠ none) ∧
      ∀ index ∈ fds owner, storage.fds.pool.cell index ≠ none := by
  cases found : queues owner with
  | none =>
      obtain ⟨noBlocks, noFds⟩ := shared.vacant owner found
      rw [noBlocks, noFds]
      simp
  | some queue =>
      obtain ⟨bytes, descriptors, stores⟩ := shared.stores owner queue found
      obtain ⟨contents, text⟩ := stores.text
      constructor
      · intro index member unused
        obtain ⟨cell, isCell, _⟩ := text.holds.used member
        rw [unused] at isCell
        cases isCell
      · intro index member unused
        obtain ⟨cell, isCell, _⟩ := stores.descriptors.holds.used member
        rw [unused] at isCell
        cases isCell

/-- A step of one owner. -/
theorem Shared.step
    (shared : Shared storage queues blocks fds)
    (step : Step storage after (blocks owner) now (fds owner) fdsNow)
    (others : ∀ other, other ≠ owner → queuesNow other = queues other)
    (stores : ∀ queue, queuesNow owner = some queue →
      ∃ bytes descriptors, queue.Stores after bytes descriptors now fdsNow)
    (vacant : queuesNow owner = none → now = [] ∧ fdsNow = []) :
    Shared after queuesNow (Function.update blocks owner now)
      (Function.update fds owner fdsNow) where
  wellFormed := step.wellFormed
  stores other queue found := by
    by_cases same : other = owner
    · subst same
      rw [Function.update_self, Function.update_self]
      exact stores queue found
    · rw [Function.update_of_ne same, Function.update_of_ne same]
      rw [others other same] at found
      obtain ⟨bytes, descriptors, before⟩ := shared.stores other queue found
      exact ⟨bytes, descriptors, before.frame step
        (shared.blocksApart.apart other owner same)
        (shared.fdsApart.apart other owner same)⟩
  vacant other none := by
    by_cases same : other = owner
    · subst same
      rw [Function.update_self, Function.update_self]
      exact vacant none
    · rw [Function.update_of_ne same, Function.update_of_ne same]
      rw [others other same] at none
      exact shared.vacant other none
  blocksApart := shared.blocksApart.moves
    (fun other _ => (shared.used other).1) step.blocks.moves
  fdsApart := shared.fdsApart.moves
    (fun other _ => (shared.used other).2) step.fds.moves

/-- The pools stay, and the queue of an owner changes on its chains. -/
theorem Shared.replace
    (shared : Shared storage queues blocks fds)
    (others : ∀ other, other ≠ owner → queuesNow other = queues other)
    (stores : ∃ queue bytes descriptors, queuesNow owner = some queue ∧
      queue.Stores storage bytes descriptors (blocks owner) (fds owner)) :
    Shared storage queuesNow blocks fds := by
  obtain ⟨queue, bytes, descriptors, found, stores⟩ := stores
  have stepped := @Shared.step _ _ _ queuesNow _ _ owner _ _ shared
    (Step.refl shared.wellFormed _ _) others
    (fun other isOther => by
      rw [found] at isOther
      cases isOther
      exact ⟨bytes, descriptors, stores⟩)
    (fun none => by
      rw [found] at none
      cases none)
  rwa [Function.update_eq_self, Function.update_eq_self] at stepped

end Storage
end Wayring
