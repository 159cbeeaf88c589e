import Mathlib.Data.List.Basic
import Mathlib.Tactic

/-!
# Segmented lists

A list kept in segments of one size, and overwriting part of a list.
-/

namespace Segments

variable {α : Type*} {items front back new : List α} {start : Nat}

/-- Replace the items of a list from a position on. -/
def overwrite (items : List α) (start : Nat) (new : List α) : List α :=
  items.take start ++ new ++ items.drop (start + new.length)

@[simp] theorem overwrite_nil (items : List α) (start : Nat) :
    overwrite items start [] = items := by
  simp [overwrite]

/-- Overwriting keeps the length. -/
theorem length_overwrite
    (fits : start + new.length ≤ items.length) :
    (overwrite items start new).length = items.length := by
  simp only [overwrite, List.length_append, List.length_take, List.length_drop]
  omega

/-- What is before the overwritten part stays. -/
theorem take_overwrite_of_le
    {stop : Nat}
    (before : stop ≤ start)
    (inside : start ≤ items.length) :
    (overwrite items start new).take stop = items.take stop := by
  have length : (items.take start).length = start := by
    rw [List.length_take]
    omega
  rw [overwrite, List.append_assoc, List.take_append_of_le_length (by omega),
    List.take_take, Nat.min_eq_left before]

/-- Overwriting behind a prefix extends it. -/
theorem take_overwrite
    (inside : start ≤ items.length) :
    (overwrite items start new).take (start + new.length) =
      items.take start ++ new := by
  have length : (items.take start ++ new).length = start + new.length := by
    rw [List.length_append, List.length_take]
    omega
  rw [overwrite, ← length, List.take_left]

/-- Overwriting in the front leaves the back alone. -/
theorem overwrite_append_left
    (fits : start + new.length ≤ front.length) :
    overwrite (front ++ back) start new = overwrite front start new ++ back := by
  rw [overwrite, overwrite, List.take_append_of_le_length (by omega),
    List.drop_append_of_le_length fits]
  simp only [List.append_assoc]

/-- Overwriting in the back leaves the front alone. -/
theorem overwrite_append_right :
    overwrite (front ++ back) (front.length + start) new =
      front ++ overwrite back start new := by
  rw [overwrite, overwrite, List.take_length_add_append, Nat.add_assoc,
    List.drop_length_add_append]
  simp only [List.append_assoc]

/-! ## Segments of one size -/

variable {size : Nat} {segments before after : List (List α)}
  {segment : List α}

/-- Segments of one size have their sizes together. -/
theorem length_flatten
    (uniform : ∀ segment ∈ segments, segment.length = size) :
    segments.flatten.length = segments.length * size := by
  induction segments with
  | nil => simp
  | cons segment segments length_ih =>
      rw [List.flatten_cons, List.length_append, List.length_cons,
        uniform segment (by simp),
        length_ih fun other member => uniform other (by simp [member])]
      ring

/-- Overwriting part of one segment overwrites part of the whole. -/
theorem flatten_overwrite
    (uniform : ∀ segment ∈ before, segment.length = size)
    (fits : start + new.length ≤ segment.length) :
    (before ++ overwrite segment start new :: after).flatten =
      overwrite (before ++ segment :: after).flatten
        (before.length * size + start) new := by
  rw [List.flatten_append, List.flatten_append, List.flatten_cons,
    List.flatten_cons, ← length_flatten uniform, overwrite_append_right,
    overwrite_append_left fits]

/-- What starts within a segment is a part of it and what follows it. -/
theorem drop_take_flatten
    {stop : Nat}
    (uniform : ∀ other ∈ before, other.length = size)
    (segmentSize : segment.length = size)
    (within : start ≤ size)
    (inside : before.length * size + start ≤ stop) :
    ((before ++ segment :: after).flatten.take stop).drop
        (before.length * size + start) =
      (segment.take (stop - before.length * size)).drop start ++
        ((before ++ segment :: after).flatten.take stop).drop
          ((before.length + 1) * size) := by
  obtain ⟨rest, rfl⟩ : ∃ rest, stop = before.length * size + rest :=
    ⟨stop - before.length * size, by omega⟩
  subst segmentSize
  rw [Nat.add_sub_cancel_left, List.flatten_append, List.flatten_cons,
    Nat.succ_mul, ← length_flatten uniform, List.take_length_add_append,
    List.drop_length_add_append, List.drop_length_add_append,
    List.take_append, List.drop_append_of_le_length
      (by rw [List.length_take]; omega)]
  congr 1
  rw [List.drop_append, List.drop_eq_nil_of_le (by simp), List.nil_append,
    List.length_take]
  rcases Nat.le_total rest segment.length with short | whole
  · simp [Nat.sub_eq_zero_of_le short]
  · simp [Nat.min_eq_right whole]

/-- The used part of the last segment of some items. -/
theorem last_part
    {count : Nat}
    (positive : 0 < size)
    (some : 0 < count) :
    let last := if count % size = 0 then size else count % size
    0 < last ∧ last ≤ size ∧
      ((count + size - 1) / size - 1) * size + last = count := by
  intro last
  have whole := Nat.div_add_mod count size
  have rest := Nat.mod_lt count positive
  rw [Nat.mul_comm] at whole
  by_cases exact : count % size = 0
  · have segments : (count + size - 1) / size = count / size := by
      have again : count + size - 1 = (size - 1) + count / size * size := by
        omega
      rw [again, Nat.add_mul_div_right _ _ positive,
        Nat.div_eq_of_lt (by omega), Nat.zero_add]
    have more : 0 < count / size := Nat.div_pos
      (Nat.le_of_dvd some (Nat.dvd_of_mod_eq_zero exact)) positive
    simp only [last, if_pos exact, segments, Nat.sub_mul, Nat.one_mul]
    have bound := Nat.mul_le_mul_right size more
    omega
  · have segments : (count + size - 1) / size = count / size + 1 := by
      have again : count + size - 1 =
          (count % size - 1) + (count / size + 1) * size := by
        rw [Nat.succ_mul]
        omega
      rw [again, Nat.add_mul_div_right _ _ positive,
        Nat.div_eq_of_lt (by omega), Nat.zero_add]
    simp only [last, if_neg exact, segments, Nat.add_sub_cancel]
    omega

end Segments
