import Mathlib.Data.List.GetD
import Mathlib.Tactic

/-!
# Writes to lists

Reading and counting after one element is replaced or appended.
-/

namespace ListWrites

variable {α : Type*} {items : List α} {position : Nat} {old : α}

/-- The items of a list with one more. -/
theorem getElem?_concat
    (items : List α) (item : α) (index : Nat) :
    (items ++ [item])[index]? =
      if index = items.length then some item else items[index]? := by
  rcases Nat.lt_trichotomy index items.length with inside | rfl | outside
  · rw [List.getElem?_append_left inside, if_neg (by omega)]
  · rw [List.getElem?_concat_length, if_pos rfl]
  · rw [if_neg (by omega), List.getElem?_eq_none (by simpa using outside),
      List.getElem?_eq_none (by omega)]

/-- The items of a list with one replaced. -/
theorem getElem?_set
    (found : items[position]? = some old)
    (new : α) (index : Nat) :
    (items.set position new)[index]? =
      if index = position then some new else items[index]? := by
  obtain ⟨bound, _⟩ := List.getElem?_eq_some_iff.mp found
  rw [List.getElem?_set]
  by_cases same : index = position
  · rw [if_pos same.symm, if_pos same, if_pos (same ▸ bound)]
  · rw [if_neg (Ne.symm same), if_neg same]

/-- Reading with a default after one item is replaced. -/
theorem getD_set
    (bound : position < items.length)
    (new default : α) (index : Nat) :
    (items.set position new).getD index default =
      if index = position then new else items.getD index default := by
  rw [List.getD_eq_getElem?_getD,
    getElem?_set (List.getElem?_eq_getElem bound), List.getD_eq_getElem?_getD]
  split_ifs <;> rfl

/-- Items that are the default are read as if they were not there. -/
theorem getD_append_replicate
    (items : List α) (count : Nat) (default : α) (index : Nat) :
    (items ++ List.replicate count default).getD index default =
      items.getD index default := by
  by_cases inside : index < items.length
  · exact List.getD_append _ _ _ _ inside
  · have outside := Nat.le_of_not_lt inside
    rw [List.getD_append_right _ _ _ _ outside, List.getD_eq_default _ _ outside,
      List.getD_eq_getElem?_getD, List.getElem?_replicate]
    split_ifs <;> rfl

/-- How many items of a kind there are with one replaced. -/
theorem countP_set
    (found : items[position]? = some old)
    (new : α) (kind : α → Bool) :
    (items.set position new).countP kind + (if kind old then 1 else 0) =
      items.countP kind + (if kind new then 1 else 0) := by
  obtain ⟨bound, same⟩ := List.getElem?_eq_some_iff.mp found
  rw [List.countP_set bound, same]
  by_cases counted : kind old = true
  · have some : 0 < items.countP kind :=
      List.countP_pos_iff.mpr ⟨old, List.mem_of_getElem? found, counted⟩
    rw [if_pos counted]
    omega
  · rw [if_neg counted]
    omega

end ListWrites
