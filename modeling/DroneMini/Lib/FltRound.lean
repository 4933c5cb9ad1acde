import DroneMini.Lib.FltExact
import Mathlib.Algebra.Order.Field.Basic
import Mathlib.Tactic.Positivity

/-!
# Rounding to nearest

What rounding to nearest does with the numbers in the middle of its range: an integer of 24 bits is
exact, any other result is off by less than a factor of two, and the sign is kept. `Band lo hi v` bounds
the magnitude of a value; the bounds of a product and of a quotient follow from those of the operands.
-/

namespace DroneMini

/-- An environment that rounds to nearest, with the precision and the range of binary32. -/
class RoundsToNearest (K : Type*) [Field K] [LinearOrder K] [FloatEnv K] : Prop where
  round_int (n : ℤ) (hn : |n| ≤ 2 ^ 24) : FloatEnv.round (n : K) = .fin n
  round_normal (x : K) (hlo : 1 ≤ x * 2 ^ 126) (hhi : x ≤ 2 ^ 126) :
    ∃ y, FloatEnv.round x = .fin y ∧ x / 2 ≤ y ∧ y ≤ 2 * x
  round_neg (x : K) : FloatEnv.round (-x) = -FloatEnv.round x

variable {K : Type*} [Field K] [LinearOrder K] [FloatEnv K]

/-- Exact arithmetic is a rounding to nearest, with an error of zero. -/
instance instRoundsToNearestExact [IsStrictOrderedRing K] [ExactArith K] : RoundsToNearest K where
  round_int n _ := ExactArith.round_eq _
  round_normal x hlo _ := by
    have hx : 0 ≤ x := (pos_of_mul_pos_left (zero_lt_one.trans_le hlo) (by positivity)).le
    exact ⟨x, ExactArith.round_eq x, half_le_self hx, le_mul_of_one_le_left hx one_le_two⟩
  round_neg x := by
    rw [ExactArith.round_eq, ExactArith.round_eq]
    rfl

namespace Flt

variable [RoundsToNearest K]

/-- An integer of at most 24 bits is exact in the format. -/
theorem ofInt_eq {n : ℤ} (hn : |n| ≤ 2 ^ 24) : (ofInt n : Flt K) = fin (n : K) :=
  RoundsToNearest.round_int n hn

/-- The difference of two such integers is exact too, when it has at most 24 bits itself. -/
theorem ofInt_sub_ofInt {m n : ℤ} (hm : |m| ≤ 2 ^ 24) (hn : |n| ≤ 2 ^ 24) (h : |m - n| ≤ 2 ^ 24) :
    (ofInt m - ofInt n : Flt K) = fin ((m - n : ℤ) : K) := by
  rw [ofInt_eq hm, ofInt_eq hn]
  show FloatEnv.round ((m : K) + -(n : K)) = _
  rw [← sub_eq_add_neg, ← Int.cast_sub, RoundsToNearest.round_int _ h]

/-- Zero is exact, whatever the environment rounds. -/
theorem round_zero : FloatEnv.round (0 : K) = fin 0 := by
  have h : FloatEnv.round ((0 : ℤ) : K) = fin ((0 : ℤ) : K) :=
    RoundsToNearest.round_int 0 (by norm_num)
  rwa [Int.cast_zero] at h

theorem zero_mul_fin (x : K) : (0 : Flt K) * fin x = 0 := by
  show FloatEnv.round (0 * x) = fin 0
  rw [zero_mul, round_zero]

omit [RoundsToNearest K] in
/-- Zero times a value that is not finite is not a number. -/
theorem zero_mul_of_not_finite {v : Flt K} (h : v.isFinite = false) : (0 : Flt K) * v = nan := by
  have hnan (pos : Bool) : (infOfSign pos (decide ((0 : K) = 0)) : Flt K) = nan := by
    rw [decide_eq_true rfl]
    rfl
  cases v with
  | fin x => cases h
  | posInf | negInf => exact hnan _
  | nan => rfl

theorem zero_div_fin {x : K} (hx : x ≠ 0) : (0 : Flt K) / fin x = 0 := by
  show (if x = 0 then _ else FloatEnv.round (0 / x)) = fin 0
  rw [if_neg hx, zero_div, round_zero]

/-- The value is a number whose magnitude is between two bounds. -/
def Band (lo hi : K) (v : Flt K) : Prop := ∃ x, v = fin x ∧ lo ≤ |x| ∧ |x| ≤ hi

variable [IsStrictOrderedRing K]

omit [FloatEnv K] [RoundsToNearest K] in
/-- A value whose magnitude has a positive lower bound is not zero. -/
theorem Band.ne_zero {lo hi : K} {v : Flt K} (h : Band lo hi v) (hlo : 0 < lo) : v ≠ 0 := by
  obtain ⟨x, rfl, hx, -⟩ := h
  rintro hzero
  rw [Flt.fin.inj hzero, abs_zero] at hx
  exact absurd hlo hx.not_gt

omit [FloatEnv K] [RoundsToNearest K] [IsStrictOrderedRing K] in
/-- Bounds of a magnitude may be widened on either side. -/
theorem Band.mono {lo hi lo' hi' : K} {v : Flt K} (h : Band lo hi v) (hlo : lo' ≤ lo) (hhi : hi ≤ hi') :
    Band lo' hi' v := by
  obtain ⟨x, hv, hx, hx'⟩ := h
  exact ⟨x, hv, hlo.trans hx, hx'.trans hhi⟩

/-- Rounding is off by less than a factor of two. -/
theorem band_round {lo hi x : K} (hx : lo ≤ |x|) (hx' : |x| ≤ hi) (hlo : 1 ≤ lo * 2 ^ 126)
    (hhi : hi ≤ 2 ^ 126) : Band (lo / 2) (2 * hi) (FloatEnv.round x) := by
  have hpow : (0 : K) < 2 ^ 126 := by positivity
  have hnormal : 1 ≤ |x| * 2 ^ 126 := hlo.trans (mul_le_mul_of_nonneg_right hx hpow.le)
  obtain ⟨y, hy, hdown, hup⟩ := RoundsToNearest.round_normal |x| hnormal (hx'.trans hhi)
  have hpos : 0 ≤ y := (div_nonneg (abs_nonneg x) zero_le_two).trans hdown
  have hround : FloatEnv.round x = fin y ∨ FloatEnv.round x = fin (-y) := by
    rcases abs_choice x with h | h
    · rw [h] at hy
      exact .inl hy
    · rw [h, RoundsToNearest.round_neg] at hy
      refine .inr ?_
      rw [← Flt.neg_neg (FloatEnv.round x), hy]
      rfl
  have hle : lo / 2 ≤ |y| := by
    rw [abs_of_nonneg hpos]
    exact (div_le_div_of_nonneg_right hx zero_le_two).trans hdown
  have hge : |y| ≤ 2 * hi := by
    rw [abs_of_nonneg hpos]
    exact hup.trans (mul_le_mul_of_nonneg_left hx' zero_le_two)
  rcases hround with h | h
  · exact ⟨y, h, hle, hge⟩
  · exact ⟨-y, h, by rwa [abs_neg], by rwa [abs_neg]⟩

/-- The magnitude of a product lies between the products of the bounds, up to a factor of two for the
rounding. -/
theorem Band.mul {a b c d : K} {v w : Flt K} (hv : Band a b v) (hw : Band c d w)
    (hc : 0 ≤ c) (hlo : 1 ≤ a * c * 2 ^ 126) (hhi : b * d ≤ 2 ^ 126) :
    Band (a * c / 2) (2 * (b * d)) (v * w) := by
  obtain ⟨x, rfl, hx, hx'⟩ := hv
  obtain ⟨y, rfl, hy, hy'⟩ := hw
  show Band _ _ (FloatEnv.round (x * y))
  refine band_round ?_ ?_ hlo hhi
  · rw [abs_mul]
    exact mul_le_mul hx hy hc (abs_nonneg x)
  · rw [abs_mul]
    exact mul_le_mul hx' hy' (abs_nonneg y) ((abs_nonneg x).trans hx')

/-- The magnitude of a quotient lies between the quotients of the bounds, up to a factor of two for the
rounding. -/
theorem Band.div {a b c d : K} {v w : Flt K} (hv : Band a b v) (hw : Band c d w)
    (hc : 0 < c) (hlo : 1 ≤ a / d * 2 ^ 126) (hhi : b / c ≤ 2 ^ 126) :
    Band (a / d / 2) (2 * (b / c)) (v / w) := by
  obtain ⟨x, rfl, hx, hx'⟩ := hv
  obtain ⟨y, rfl, hy, hy'⟩ := hw
  have hpos : 0 < |y| := hc.trans_le hy
  show Band _ _ (if y = 0 then _ else FloatEnv.round (x / y))
  rw [if_neg (abs_pos.mp hpos)]
  refine band_round ?_ ?_ hlo hhi
  · rw [abs_div]
    exact div_le_div₀ (abs_nonneg x) hx hpos hy'
  · rw [abs_div]
    exact div_le_div₀ ((abs_nonneg x).trans hx') hx' hc hy

end Flt

end DroneMini
