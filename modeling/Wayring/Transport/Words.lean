import Mathlib.Tactic
import Wayring.Transport.Wire

/-!
# Words

A word that was written is read back, in either byte order.
-/

namespace Wayring
namespace Wire

/-- How many digits there are. -/
theorem length_toDigits
    (count value : Nat) : (toDigits count value).length = count := by
  induction count generalizing value with
  | zero => rfl
  | succ count length_ih =>
      rw [toDigits, List.length_append, length_ih, List.length_singleton]

/-- One digit more. -/
theorem fromDigits_append
    (bytes : List UInt8) (byte : UInt8) :
    fromDigits (bytes ++ [byte]) = fromDigits bytes * 256 + byte.toNat := by
  rw [fromDigits, List.foldl_append]
  rfl

/-- A number that fits is read from its digits. -/
theorem fromDigits_toDigits
    {count value : Nat}
    (fits : value < 256 ^ count) :
    fromDigits (toDigits count value) = value := by
  induction count generalizing value with
  | zero =>
      rw [pow_zero] at fits
      rw [Nat.lt_one_iff.mp fits]
      rfl
  | succ count digits_ih =>
      have high : value / 256 < 256 ^ count := by
        rw [pow_succ] at fits
        exact Nat.div_lt_of_lt_mul (by rwa [Nat.mul_comm])
      have low : (UInt8.ofNat (value % 256)).toNat = value % 256 :=
        UInt8.toNat_ofNat_of_lt (Nat.mod_lt _ (by decide))
      rw [toDigits, fromDigits_append, digits_ih high, low]
      omega

variable [Native]

@[simp] theorem length_writeWord
    (width value : Nat) : (writeWord width value).length = width := by
  unfold writeWord
  cases Native.endian with
  | big => exact length_toDigits width value
  | little => rw [List.length_reverse, length_toDigits]

/-- A word that is written is read again. -/
theorem readWord_writeWord
    {width value : Nat}
    (fits : value < 256 ^ width) :
    readWord (writeWord width value) = value := by
  unfold readWord writeWord
  cases Native.endian with
  | big => exact fromDigits_toDigits fits
  | little =>
      rw [List.reverse_reverse]
      exact fromDigits_toDigits fits

end Wire
end Wayring
