import Mathlib.Algebra.BigOperators.Group.Finset.Basic
import Mathlib.Algebra.Order.BigOperators.Group.Finset
import Wayring.Foundation.LeaseChain

/-!
# Owners of a pool

The entries in use are divided among owners, each of which changes only its
own.  What the pool counts is then what the owners hold together.
-/

namespace LeasePool

variable {α κ ι : Type}

/-- Every entry in use has exactly one owner. -/
structure Divides
    (cells : Nat → Option (Cell α))
    (owners : ι → List Nat) : Prop where
  distinct : ∀ owner, (owners owner).Nodup
  apart : ∀ owner other, owner ≠ other →
    (owners owner).Disjoint (owners other)
  used_iff : ∀ index, cells index ≠ none ↔ ∃ owner, index ∈ owners owner

variable {cells after : Nat → Option (Cell α)} {owners : ι → List Nat}
  {owner : ι} {now : List Nat}

theorem Divides.empty
    (unused : ∀ index, cells index = none) :
    Divides cells fun _ : ι => [] where
  distinct _ := List.nodup_nil
  apart _ _ _ := by simp
  used_iff index := by simp [unused index]

/-- What an owner holds after a step is used by no other owner. -/
theorem Divides.fresh
    (divides : Divides cells owners)
    (moves : Moves cells after (owners owner) now)
    {other : ι}
    (differs : owner ≠ other) : now.Disjoint (owners other) := by
  intro index inNow inOther
  rcases moves.fresh index inNow with owned | unused
  · exact divides.apart owner other differs owned inOther
  · exact (divides.used_iff index).mpr ⟨other, inOther⟩ unused

/-- A step of one owner. -/
theorem Divides.moves
    [DecidableEq ι]
    (divides : Divides cells owners)
    (moves : Moves cells after (owners owner) now)
    (distinct : now.Nodup)
    (used : ∀ index ∈ now, after index ≠ none) :
    Divides after (Function.update owners owner now) where
  distinct other := by
    rcases eq_or_ne other owner with rfl | differs
    · rwa [Function.update_self]
    · rw [Function.update_of_ne differs]
      exact divides.distinct other
  apart first second differs := by
    rcases eq_or_ne first owner with rfl | firstDiffers
    · rw [Function.update_self, Function.update_of_ne differs.symm]
      exact divides.fresh moves differs
    · rw [Function.update_of_ne firstDiffers]
      rcases eq_or_ne second owner with rfl | secondDiffers
      · rw [Function.update_self]
        exact (divides.fresh moves firstDiffers.symm).symm
      · rw [Function.update_of_ne secondDiffers]
        exact divides.apart first second differs
  used_iff index := by
    constructor
    · intro isUsed
      rcases moves.accounted index isUsed with inNow | ⟨outside, before⟩
      · exact ⟨owner, by rwa [Function.update_self]⟩
      · obtain ⟨other, member⟩ := (divides.used_iff index).mp before
        have differs : other ≠ owner := by
          rintro rfl
          exact outside member
        exact ⟨other, by rwa [Function.update_of_ne differs]⟩
    · rintro ⟨other, member⟩
      rcases eq_or_ne other owner with rfl | differs
      · rw [Function.update_self] at member
        exact used index member
      · rw [Function.update_of_ne differs] at member
        have before := (divides.used_iff index).mpr ⟨other, member⟩
        have outside := divides.apart other owner differs member
        rw [moves.frame index outside before]
        exact before

/-! ## Counting -/

variable {pool : LeasePool α} {limit : Nat} {Good : α → Prop}

theorem countP_eq_card_filter
    {β : Type}
    (predicate : β → Bool) (items : List β) :
    items.countP predicate =
      ((Finset.range items.length).filter fun index =>
        (items[index]?).any predicate).card := by
  induction items using List.reverseRecOn with
  | nil => simp
  | append_singleton items item countP_ih =>
      rw [List.countP_append, countP_ih, List.length_append,
        List.length_singleton, Finset.range_add_one, Finset.filter_insert]
      have early : (Finset.range items.length).filter (fun index =>
            ((items ++ [item])[index]?).any predicate) =
          (Finset.range items.length).filter fun index =>
            (items[index]?).any predicate := by
        apply Finset.filter_congr
        intro index inside
        rw [List.getElem?_append_left (Finset.mem_range.mp inside)]
      rw [early, List.getElem?_concat_length, Option.any_some,
        List.countP_singleton]
      split_ifs with holds
      · rw [Finset.card_insert_of_notMem (by simp)]
      · rfl

/-- The pool counts the entries in use. -/
theorem WellFormed.activeCount_eq_card
    (wellFormed : pool.WellFormed limit Good)
    {used : Finset Nat}
    (used_iff : ∀ index, index ∈ used ↔ pool.cell index ≠ none) :
    pool.activeCount = used.card := by
  rw [wellFormed.count, countP_eq_card_filter]
  congr 1
  ext index
  rw [used_iff, Finset.mem_filter, Finset.mem_range, cell]
  cases found : pool.nodes[index]? with
  | none => simp
  | some node =>
      have inside := (List.getElem?_eq_some_iff.mp found).1
      simp [inside]

/-- The pool counts what the owners hold. -/
theorem Divides.activeCount_eq_sum
    [DecidableEq ι]
    (divides : Divides pool.cell owners)
    (wellFormed : pool.WellFormed limit Good)
    (parties : Finset ι)
    (idle : ∀ owner, owner ∉ parties → owners owner = []) :
    pool.activeCount = ∑ owner ∈ parties, (owners owner).length := by
  have used_iff : ∀ index,
      index ∈ parties.biUnion (fun owner => (owners owner).toFinset) ↔
        pool.cell index ≠ none := by
    intro index
    rw [divides.used_iff]
    simp only [Finset.mem_biUnion, List.mem_toFinset]
    constructor
    · rintro ⟨owner, _, member⟩
      exact ⟨owner, member⟩
    · rintro ⟨owner, member⟩
      refine ⟨owner, ?_, member⟩
      by_contra outside
      rw [idle owner outside] at member
      cases member
  rw [wellFormed.activeCount_eq_card used_iff, Finset.card_biUnion]
  · apply Finset.sum_congr rfl
    intro owner _
    exact List.toFinset_card_of_nodup (divides.distinct owner)
  · intro first _ second _ differs
    exact List.disjoint_toFinset_iff_disjoint.mpr
      (divides.apart first second differs)

/-- An owner's step that keeps its entries keeps the count. -/
theorem Moves.activeCount_eq
    {before next : LeasePool α} {owned : List Nat} {limitNow : Nat}
    {GoodNow : α → Prop}
    (moves : Moves before.cell next.cell owned owned)
    (wellFormed : before.WellFormed limit Good)
    (wellFormedNow : next.WellFormed limitNow GoodNow)
    (used : ∀ index ∈ owned, before.cell index ≠ none)
    (usedNow : ∀ index ∈ owned, next.cell index ≠ none) :
    next.activeCount = before.activeCount := by
  have same : ∀ index, next.cell index ≠ none ↔ before.cell index ≠ none := by
    intro index
    constructor
    · intro isUsed
      rcases moves.accounted index isUsed with member | ⟨_, isUsed⟩
      · exact used index member
      · exact isUsed
    · intro isUsed
      by_cases member : index ∈ owned
      · exact usedNow index member
      · rwa [moves.frame index member isUsed]
  let cells : Finset Nat :=
    (Finset.range before.nodes.length).filter fun index =>
      (before.cell index).isSome
  have cells_iff : ∀ index, index ∈ cells ↔ before.cell index ≠ none := by
    intro index
    simp only [cells, Finset.mem_filter, Finset.mem_range,
      Option.isSome_iff_ne_none, and_iff_right_iff_imp]
    intro isUsed
    by_contra outside
    rw [cell, List.getElem?_eq_none (by omega)] at isUsed
    exact isUsed rfl
  rw [wellFormed.activeCount_eq_card cells_iff,
    wellFormedNow.activeCount_eq_card fun index =>
      (cells_iff index).trans (same index).symm]

end LeasePool
