import Mathlib.Algebra.Order.Floor.Ring
import Mathlib.Algebra.Order.Field.Basic
import Mathlib.Algebra.Ring.Int.Parity
import Mathlib.Data.Int.Log
import Mathlib.Tactic.Linarith
import Mathlib.Tactic.NormNum

/-!
# Rounding half to even

`roundHalfEven x` is the integer nearest to `x`, and the even one of two that are equally near. It is
monotone and leaves integers alone. `roundAt u x` is the multiple of `u` nearest to `x`, and `ulp x` the unit
in the last place of a number with 24 significant bits.
-/

namespace DroneMini

variable {K : Type*} [Field K] [LinearOrder K] [FloorRing K]

/-- The integer nearest to a number; of two that are equally near the even one. -/
def roundHalfEven (x : K) : ℤ :=
  if x - ⌊x⌋ < 0.5 then ⌊x⌋
  else if 0.5 < x - ⌊x⌋ then ⌊x⌋ + 1
  else if Even ⌊x⌋ then ⌊x⌋
  else ⌊x⌋ + 1

/-- The multiple of `u` nearest to `x`, ties to the even multiple. -/
def roundAt (u x : K) : K := roundHalfEven (x / u) * u

/-- The unit in the last place of a number with 24 significant bits. -/
def ulp (x : K) : K := ((2 : ℕ) : K) ^ (Int.log 2 |x| - 23)

/-- The result is the integer below, or the one above. -/
theorem roundHalfEven_cases (x : K) : roundHalfEven x = ⌊x⌋ ∨ roundHalfEven x = ⌊x⌋ + 1 := by
  unfold roundHalfEven
  split_ifs
  · exact .inl rfl
  · exact .inr rfl
  · exact .inl rfl
  · exact .inr rfl

/-- The unit in the last place is a power of two, given by the binary exponent of the number. -/
theorem ulp_eq (x : K) : ulp x = 2 ^ (Int.log 2 |x| - 23) := by
  rw [ulp, Nat.cast_ofNat]

/-- The rounding, written with a field numeral in the place of the decimal literal. -/
theorem roundHalfEven_eq (x : K) : roundHalfEven x =
    if x - ⌊x⌋ < 1 / 2 then ⌊x⌋
    else if 1 / 2 < x - ⌊x⌋ then ⌊x⌋ + 1
    else if Even ⌊x⌋ then ⌊x⌋
    else ⌊x⌋ + 1 := by
  have hhalf : (0.5 : K) = 1 / 2 := by norm_num
  rw [roundHalfEven, hhalf]

variable [IsStrictOrderedRing K]

/-- The rounded number is at most one half away, so no integer is nearer. -/
theorem abs_roundHalfEven_sub_le (x : K) : |(roundHalfEven x : K) - x| ≤ 1 / 2 := by
  have hlow := Int.floor_le x
  have hhigh := Int.lt_floor_add_one x
  rw [roundHalfEven_eq]
  split_ifs with hdown hup heven
  · rw [abs_sub_comm, abs_of_nonneg (sub_nonneg.mpr hlow)]
    exact hdown.le
  · rw [Int.cast_add, Int.cast_one, abs_of_nonneg (by linarith)]
    linarith
  · rw [abs_sub_comm, abs_of_nonneg (sub_nonneg.mpr hlow)]
    exact not_lt.mp hup
  · rw [Int.cast_add, Int.cast_one, abs_of_nonneg (by linarith)]
    linarith

/-- Rounding leaves an integer alone. -/
theorem roundHalfEven_intCast (n : ℤ) : roundHalfEven (n : K) = n := by
  rw [roundHalfEven_eq, Int.floor_intCast, sub_self, if_pos one_half_pos]

/-- **Rounding is monotone.** A larger number is not rounded to a smaller integer. -/
theorem roundHalfEven_mono {x y : K} (h : x ≤ y) : roundHalfEven x ≤ roundHalfEven y := by
  rcases (Int.floor_mono h).lt_or_eq with hlt | heq
  · have hx : roundHalfEven x ≤ ⌊x⌋ + 1 := by
      rcases roundHalfEven_cases x with hx | hx <;> omega
    have hy : ⌊y⌋ ≤ roundHalfEven y := by
      rcases roundHalfEven_cases y with hy | hy <;> omega
    omega
  · -- between the same two integers: the fractions decide
    rw [roundHalfEven_eq, roundHalfEven_eq, heq]
    split_ifs <;> first | omega | linarith

/-- What is at least an integer rounds to at least that integer. -/
theorem le_roundHalfEven {n : ℤ} {x : K} (h : (n : K) ≤ x) : n ≤ roundHalfEven x := by
  rw [← roundHalfEven_intCast (K := K) n]
  exact roundHalfEven_mono h

/-- A number that is not negative is rounded to a natural number. -/
theorem natCast_toNat_roundHalfEven {x : K} (h : 0 ≤ x) :
    ((roundHalfEven x).toNat : K) = roundHalfEven x := by
  have hpos : 0 ≤ roundHalfEven x := le_roundHalfEven (by rwa [Int.cast_zero])
  rw [← Int.cast_natCast, Int.toNat_of_nonneg hpos]

/-- What is nearer to an integer than to the one below rounds to at least that integer. -/
theorem le_roundHalfEven_of_near {n : ℤ} {x : K} (h : (n : K) - 1 / 2 < x) : n ≤ roundHalfEven x := by
  have hnear := (abs_le.mp (abs_roundHalfEven_sub_le x)).1
  have hlt : (n : K) - 1 < roundHalfEven x := by linarith
  have hcast : ((n - 1 : ℤ) : K) < (roundHalfEven x : ℤ) := by
    rwa [Int.cast_sub, Int.cast_one]
  exact Int.sub_one_lt_iff.mp (Int.cast_lt.mp hcast)

/-- What is nearer to an integer than to the one above rounds to at most that integer. -/
theorem roundHalfEven_le_of_near {n : ℤ} {x : K} (h : x < (n : K) + 1 / 2) : roundHalfEven x ≤ n := by
  have hnear := (abs_le.mp (abs_roundHalfEven_sub_le x)).2
  have hlt : (roundHalfEven x : K) < (n : K) + 1 := by linarith
  have hcast : (roundHalfEven x : K) < ((n + 1 : ℤ) : K) := by
    rwa [Int.cast_add, Int.cast_one]
  exact Int.lt_add_one_iff.mp (Int.cast_lt.mp hcast)

/-- A number stored as an integer, `s` steps to the unit from `m` on, is read back within half a step. -/
theorem abs_readBack_sub_le {m s : K} (hs : 0 < s) (v : K) :
    |((roundHalfEven (m + v * s) : K) - m) / s - v| ≤ 1 / 2 / s := by
  have hnear := abs_roundHalfEven_sub_le (m + v * s)
  have hscale : ((roundHalfEven (m + v * s) : K) - m) / s - v =
      ((roundHalfEven (m + v * s) : K) - (m + v * s)) / s := by
    rw [← sub_sub, sub_div (_ - m), mul_div_cancel_right₀ v hs.ne']
  rw [hscale, abs_div, abs_of_pos hs]
  exact div_le_div_of_nonneg_right hnear hs.le

/-- A number is at most half a unit away from the multiple it is rounded to. -/
theorem abs_roundAt_sub_le {u : K} (hu : 0 < u) (x : K) : |roundAt u x - x| ≤ u / 2 := by
  have hnear := abs_roundHalfEven_sub_le (x / u)
  have hscale : roundAt u x - x = (roundHalfEven (x / u) - x / u) * u := by
    rw [roundAt, sub_mul, div_mul_cancel₀ _ hu.ne']
  rw [hscale, abs_mul, abs_of_pos hu]
  calc |(roundHalfEven (x / u) : K) - x / u| * u ≤ 1 / 2 * u := mul_le_mul_of_nonneg_right hnear hu.le
    _ = u / 2 := one_div_mul_eq_div 2 u

/-- The unit in the last place is positive, for zero too. -/
theorem ulp_pos (x : K) : 0 < ulp x := by
  rw [ulp_eq]
  exact zpow_pos two_pos _

/-- The unit of a number below a power of two. -/
theorem ulp_le {x : K} (hx : x ≠ 0) {n : ℤ} (h : |x| < 2 ^ n) : ulp x ≤ 2 ^ (n - 24) := by
  have hlog : Int.log 2 |x| < n := by
    rw [← Int.lt_zpow_iff_log_lt Nat.one_lt_two (abs_pos.mpr hx)]
    exact_mod_cast h
  rw [ulp_eq]
  exact zpow_le_zpow_right₀ one_le_two (by omega)

/-- The unit of a number from a power of two on. -/
theorem le_ulp {x : K} {n : ℤ} (h : 2 ^ n ≤ |x|) : 2 ^ (n - 23) ≤ ulp x := by
  have hpos : 0 < |x| := (zpow_pos two_pos n).trans_le h
  have hlog : n ≤ Int.log 2 |x| := by
    rw [← Int.zpow_le_iff_le_log Nat.one_lt_two hpos]
    exact_mod_cast h
  rw [ulp_eq]
  exact zpow_le_zpow_right₀ one_le_two (by omega)

/-- A number other than zero is at least `2 ^ 23` of its units, so it has 24 significant bits. -/
theorem mul_ulp_le {x : K} (hx : x ≠ 0) : 2 ^ 23 * ulp x ≤ |x| := by
  have hself := Int.zpow_log_le_self Nat.one_lt_two (abs_pos.mpr hx)
  have hpow : (2 ^ 23 : K) * ulp x = 2 ^ Int.log 2 |x| := by
    rw [ulp_eq, ← zpow_natCast, ← zpow_add₀ two_ne_zero]
    congr 1
    omega
  rw [hpow]
  exact_mod_cast hself

end DroneMini
