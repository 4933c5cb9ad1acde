import Mathlib.Algebra.Order.Field.Basic
import Mathlib.Order.Bounds.Basic
import Mathlib.Tactic.Linarith
import Mathlib.Tactic.Ring

/-!
# Distances on a circle

Angles are numbers of an ordered field, and two angles are the same when they differ by a multiple of the
circumference `p + p`. `IsArc p x y d` says that `d` is the distance of `x` and `y` on the circle: the
least distance between the numbers that stand for them. Angles less than one turn apart are joined
directly or the other way round (`isArc_min`), and `notFarther_iff` says when a step along the direct way
leads away on the circle.
-/

namespace DroneMini

variable {K : Type*} [Field K] [LinearOrder K]

/-- The distance of two angles on the circle of circumference `p + p`. -/
def IsArc (p x y d : K) : Prop := IsLeast { e | ∃ k : ℤ, e = |x - y + k * (p + p)| } d

/-- On the circle, `x'` is not farther from `y` than `x` is. -/
def NotFarther (p x x' y : K) : Prop := ∃ d d', IsArc p x y d ∧ IsArc p x' y d' ∧ d' ≤ d

variable [IsStrictOrderedRing K]

/-- Two angles at most one turn apart: the direct way, or the other way round. -/
theorem isArc_min {p x y : K} (h : |x - y| ≤ 2 * p) : IsArc p x y (min |x - y| (2 * p - |x - y|)) := by
  have hround : ∃ k : ℤ, 2 * p - |x - y| = |x - y + k * (2 * p)| := by
    rcases le_total 0 (x - y) with hpos | hneg
    · rw [abs_of_nonneg hpos] at h ⊢
      refine ⟨-1, ?_⟩
      rw [Int.cast_neg, Int.cast_one, abs_of_nonpos (by linarith)]
      ring
    · rw [abs_of_nonpos hneg] at h ⊢
      refine ⟨1, ?_⟩
      rw [Int.cast_one, abs_of_nonneg (by linarith)]
      ring
  unfold IsArc
  rw [← two_mul]
  constructor
  · rcases min_choice |x - y| (2 * p - |x - y|) with heq | heq
    · rw [heq]
      exact ⟨0, by rw [Int.cast_zero, zero_mul, add_zero]⟩
    · rw [heq]
      exact hround
  · rintro e ⟨k, rfl⟩
    rcases eq_or_ne k 0 with rfl | hk
    · rw [Int.cast_zero, zero_mul, add_zero]
      exact min_le_left _ _
    · -- a way with at least one turn more
      have hturn : (1 : K) ≤ |(k : K)| := by
        rw [← Int.cast_abs]
        exact_mod_cast Int.one_le_abs hk
      have hp : 0 ≤ 2 * p := (abs_nonneg _).trans h
      have hlong : 2 * p ≤ |k * (2 * p)| := by
        rw [abs_mul, abs_of_nonneg hp]
        exact le_mul_of_one_le_left hp hturn
      have htriangle : |k * (2 * p)| ≤ |x - y + k * (2 * p)| + |x - y| := by
        have hdiff : (k : K) * (2 * p) = x - y + k * (2 * p) - (x - y) := by ring
        calc |k * (2 * p)| = |x - y + k * (2 * p) - (x - y)| := by rw [← hdiff]
          _ ≤ |x - y + k * (2 * p)| + |x - y| := abs_sub _ _
      exact (min_le_right _ _).trans (by linarith)

/-- **When a step along the direct way does not lead away on the circle**: the way that is left and the
way that was there before make at most one turn. -/
theorem notFarther_iff {p x x' y a : K} (h : |x - y| ≤ 2 * p) (ha0 : 0 ≤ a) (ha1 : a < 1)
    (hx' : x' - y = a * (x - y)) : NotFarther p x x' y ↔ (1 + a) * |x - y| ≤ 2 * p := by
  have habs : |x' - y| = a * |x - y| := by rw [hx', abs_mul, abs_of_nonneg ha0]
  have hshorter : a * |x - y| ≤ |x - y| := mul_le_of_le_one_left (abs_nonneg _) ha1.le
  have hold := isArc_min h
  have hnew := isArc_min (habs.trans_le (hshorter.trans h))
  rw [habs] at hnew
  have hsum : (1 + a) * |x - y| = |x - y| + a * |x - y| := by ring
  constructor
  · rintro ⟨d, d', hd, hd', hle⟩
    rw [hd.unique hold, hd'.unique hnew] at hle
    rcases (abs_nonneg (x - y)).eq_or_lt with hzero | hpos
    · rw [← hzero] at h ⊢
      linarith
    · -- the other way round has become longer, so the direct way is the distance
      have hlonger : a * |x - y| < |x - y| := mul_lt_of_lt_one_left hpos ha1
      rcases min_le_iff.mp (hle.trans (min_le_right _ _)) with hdirect | hround
      · linarith
      · linarith
  · intro hcond
    refine ⟨_, _, hold, hnew, le_min ((min_le_left _ _).trans hshorter) ?_⟩
    exact (min_le_left _ _).trans (by linarith)

end DroneMini
