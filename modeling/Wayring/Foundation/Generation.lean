import Mathlib.Logic.Function.Iterate
import Mathlib.Tactic

/-!
# Generation counters

A counter below a modulus that skips zero when it wraps.  Its values repeat
only after a full cycle, so values issued within one cycle are distinct.
-/

namespace Generation

/-- The value after `generation`. -/
def next (modulus generation : Nat) : Nat :=
  if (generation + 1) % modulus = 0 then 1 else (generation + 1) % modulus

/-- The next generation, as a number. -/
theorem next_eq
    {modulus generation : Nat}
    (positive : 0 < generation)
    (below : generation < modulus) :
    next modulus generation = generation % (modulus - 1) + 1 := by
  unfold next
  rcases Nat.lt_or_ge (generation + 1) modulus with inside | wraps
  · rw [Nat.mod_eq_of_lt inside, if_neg (by omega),
      Nat.mod_eq_of_lt (by omega)]
  · have last : generation + 1 = modulus := by omega
    have cycle : modulus - 1 = generation := by omega
    rw [last, cycle, Nat.mod_self, Nat.mod_self, if_pos rfl]

/-- No generation is zero. -/
theorem next_pos
    {modulus generation : Nat} : 0 < next modulus generation := by
  unfold next
  split <;> omega

/-- Generations stay below the modulus. -/
theorem next_lt
    {modulus generation : Nat}
    (wide : 1 < modulus) : next modulus generation < modulus := by
  unfold next
  split
  · exact wide
  · exact Nat.mod_lt _ (by omega)

/-- The values issued from one on, in closed form. -/
theorem iterate_one
    {modulus : Nat}
    (wide : 1 < modulus)
    (count : Nat) :
    (next modulus)^[count] 1 = count % (modulus - 1) + 1 := by
  induction count with
  | zero => simp
  | succ count inductionHypothesis =>
      have below := Nat.mod_lt count (by omega : 0 < modulus - 1)
      rw [Function.iterate_succ_apply', inductionHypothesis,
        next_eq (Nat.succ_pos _) (by omega), Nat.add_mod count 1]
      rcases Nat.lt_or_ge 1 (modulus - 1) with several | single
      · rw [Nat.mod_eq_of_lt several]
      · have one : modulus - 1 = 1 := by omega
        simp [one, Nat.mod_one]

/-- The values issued from any value on, in closed form. -/
theorem iterate_eq
    {modulus generation : Nat}
    (positive : 0 < generation)
    (below : generation < modulus)
    (count : Nat) :
    (next modulus)^[count] generation =
      (generation - 1 + count) % (modulus - 1) + 1 := by
  have start : (next modulus)^[generation - 1] 1 = generation := by
    rw [iterate_one (by omega), Nat.mod_eq_of_lt (by omega)]
    omega
  conv_lhs => rw [← start]
  rw [← Function.iterate_add_apply, iterate_one (by omega),
    Nat.add_comm count]

/-- A value does not come back within a cycle. -/
theorem iterate_ne
    {modulus generation count : Nat}
    (positive : 0 < generation)
    (below : generation < modulus)
    (some : 0 < count)
    (few : count < modulus - 1) :
    (next modulus)^[count] generation ≠ generation := by
  rw [iterate_eq positive below]
  intro same
  rcases Nat.lt_or_ge (generation - 1 + count) (modulus - 1) with inside | wraps
  · rw [Nat.mod_eq_of_lt inside] at same
    omega
  · rw [Nat.mod_eq_sub_mod wraps, Nat.mod_eq_of_lt (by omega)] at same
    omega

end Generation
