import Mathlib.Data.List.Nodup
import Mathlib.Logic.Function.Basic

/-!
# Lifetimes

What happens to the entries of a map: they are made, used and ended.  A use and
an end say something on a wire, as a list of items.
-/

/-- What happens to one entry. -/
inductive Lifetime (Key Value Item : Type)
  | made (key : Key) (value : Value)
  | used (key : Key) (items : List Item)
  | ended (key : Key) (items : List Item)

namespace Lifetime

variable {Key Value Item : Type}

/-- The key that an entry is about. -/
def key : Lifetime Key Value Item → Key
  | made key _ => key
  | used key _ => key
  | ended key _ => key

/-- The items that an entry puts out. -/
def items : Lifetime Key Value Item → List Item
  | made _ _ => []
  | used _ items => items
  | ended _ items => items

/-- All that is said on the wire. -/
def itemsOf (entries : List (Lifetime Key Value Item)) : List Item :=
  entries.flatMap items

@[simp] theorem itemsOf_nil :
    itemsOf ([] : List (Lifetime Key Value Item)) = [] := rfl

@[simp] theorem itemsOf_cons
    (entry : Lifetime Key Value Item)
    (entries : List (Lifetime Key Value Item)) :
    itemsOf (entry :: entries) = entry.items ++ itemsOf entries := rfl

@[simp] theorem itemsOf_append
    (entries later : List (Lifetime Key Value Item)) :
    itemsOf (entries ++ later) = itemsOf entries ++ itemsOf later :=
  List.flatMap_append

/-- The entries that end without a word. -/
def ends (keys : List Key) : List (Lifetime Key Value Item) :=
  keys.map fun key => ended key []

@[simp] theorem itemsOf_ends (keys : List Key) :
    itemsOf (ends keys : List (Lifetime Key Value Item)) = [] := by
  induction keys with
  | nil => rfl
  | cons key rest itemsOf_ih => exact itemsOf_ih

variable [DecidableEq Key]

/-- The map after what happens to one entry, which must be there to be used or
ended, and must not be there to be made. -/
def Follows (before after : Key → Option Value) :
    Lifetime Key Value Item → Prop
  | made key value =>
      before key = none ∧ after = Function.update before key (some value)
  | used key _ => before key ≠ none ∧ after = before
  | ended key _ =>
      before key ≠ none ∧ after = Function.update before key none

/-- What happens to the entries of a map, from one map to another. -/
inductive Trace : (Key → Option Value) → List (Lifetime Key Value Item) →
    (Key → Option Value) → Prop
  | nil (map : Key → Option Value) : Trace map [] map
  | cons
      {before middle after : Key → Option Value}
      {entry : Lifetime Key Value Item}
      {entries : List (Lifetime Key Value Item)}
      (follows : Follows before middle entry)
      (rest : Trace middle entries after) : Trace before (entry :: entries) after

variable {before middle after : Key → Option Value}
  {entries later : List (Lifetime Key Value Item)}
  {entry : Lifetime Key Value Item} {key : Key}

/-- One entry is a trace. -/
theorem Trace.single
    (follows : Follows before after entry) : Trace before [entry] after :=
  .cons follows (.nil _)

theorem Trace.append
    (first : Trace before entries middle)
    (rest : Trace middle later after) :
    Trace before (entries ++ later) after := by
  induction first with
  | nil => exact rest
  | cons follows _ append_ih => exact .cons follows (append_ih rest)

/-- A trace can be cut anywhere. -/
theorem Trace.split
    (trace : Trace before (entries ++ later) after) :
    ∃ middle, Trace before entries middle ∧ Trace middle later after := by
  induction entries generalizing before with
  | nil => exact ⟨before, .nil _, trace⟩
  | cons entry entries split_ih =>
      cases trace with
      | cons follows rest =>
          obtain ⟨middle, first, last⟩ := split_ih rest
          exact ⟨middle, .cons follows first, last⟩

/-- Entries that are there end one after the other. -/
theorem trace_ends
    {keys : List Key}
    (distinct : keys.Nodup)
    (present : ∀ key ∈ keys, before key ≠ none)
    (same : ∀ key, after key = if key ∈ keys then none else before key) :
    Trace before (ends keys : List (Lifetime Key Value Item)) after := by
  induction keys generalizing before with
  | nil =>
      have unchanged : after = before := by
        funext key
        simp [same]
      rw [unchanged]
      exact .nil _
  | cons first rest ends_ih =>
      obtain ⟨apart, distinctRest⟩ := List.nodup_cons.mp distinct
      refine .cons ⟨present first List.mem_cons_self, rfl⟩
        (ends_ih distinctRest (fun key member => ?_) fun key => ?_)
      · have differs : key ≠ first := by
          rintro rfl
          exact apart member
        rw [Function.update_of_ne differs]
        exact present key (List.mem_cons_of_mem _ member)
      · rw [same key, Function.update_apply]
        by_cases isFirst : key = first
        · simp [isFirst]
        · simp [isFirst]

/-- What is not there stays away, and nothing happens to it, until it is
made. -/
theorem Trace.absent
    (trace : Trace before entries after)
    (absent : before key = none)
    (unmade : ∀ value, made key value ∉ entries) :
    after key = none ∧ ∀ entry ∈ entries, entry.key ≠ key := by
  induction trace with
  | nil => exact ⟨absent, fun _ none => by cases none⟩
  | @cons before middle after entry entries follows rest absent_ih =>
      have differs : entry.key ≠ key := by
        rintro rfl
        cases entry with
        | made key value => exact unmade value List.mem_cons_self
        | used key items => exact follows.1 absent
        | ended key items => exact follows.1 absent
      have still : middle key = none := by
        cases entry with
        | made other value =>
            rw [follows.2,
              Function.update_of_ne (show key ≠ other from Ne.symm differs)]
            exact absent
        | used other items =>
            rw [follows.2]
            exact absent
        | ended other items =>
            rw [follows.2,
              Function.update_of_ne (show key ≠ other from Ne.symm differs)]
            exact absent
      obtain ⟨gone, others⟩ := absent_ih still fun value member =>
        unmade value (List.mem_cons_of_mem _ member)
      refine ⟨gone, fun other member => ?_⟩
      cases member with
      | head => exact differs
      | tail _ member => exact others other member

/-- Between the end of an entry and its next use or end, it is made. -/
theorem Trace.remade
    {items : List Item} {first between last : List (Lifetime Key Value Item)}
    (trace : Trace before
      (first ++ ended key items :: (between ++ entry :: last)) after)
    (same : entry.key = key)
    (again : ∀ value, entry ≠ made key value) :
    ∃ value, made key value ∈ between := by
  obtain ⟨_, _, rest⟩ := trace.split
  cases rest with
  | cons follows rest =>
      by_contra unmade
      rw [not_exists] at unmade
      have grouped : between ++ entry :: last = (between ++ [entry]) ++ last := by
        rw [List.append_assoc]
        rfl
      rw [grouped] at rest
      obtain ⟨_, through, _⟩ := rest.split
      refine (through.absent ?_ fun value member => ?_).2 entry
        (List.mem_append_right _ (List.mem_singleton_self _)) same
      · rw [follows.2, Function.update_self]
      · cases List.mem_append.mp member with
        | inl inside => exact unmade value inside
        | inr isEntry =>
            exact again value (List.mem_singleton.mp isEntry).symm

end Lifetime
