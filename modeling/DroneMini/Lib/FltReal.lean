import DroneMini.Lib.FltExact
import Mathlib.Analysis.SpecialFunctions.Complex.Arg
import Mathlib.Analysis.Real.Sqrt

/-!
# Exact square roots, and the real numbers

`ExactSqrt` is an environment whose square roots are those of the field; the rationals have none. The real
numbers with the principal square root and the principal argument are such an environment.
-/

namespace DroneMini

/-- An environment with exact square roots of the numbers that are not negative. -/
class ExactSqrt (K : Type*) [Field K] [LinearOrder K] [FloatEnv K] : Prop where
  sqrt_fin (x : K) : 0 ≤ x → ∃ y, 0 ≤ y ∧ y * y = x ∧ FloatEnv.sqrt (.fin x) = .fin y

namespace Flt

variable {K : Type*} [Field K] [LinearOrder K] [IsStrictOrderedRing K] [FloatEnv K] [ExactSqrt K]

/-- A bound on a square root is a bound on the square. -/
theorem fin_lt_sqrt {r x : K} (hr : 0 ≤ r) (hx : 0 ≤ x) : .fin r < FloatEnv.sqrt (.fin x) ↔ r * r < x := by
  obtain ⟨y, hy, rfl, hsqrt⟩ := ExactSqrt.sqrt_fin x hx
  rw [hsqrt, fin_lt_fin]
  exact (mul_self_lt_mul_self_iff hr hy)

end Flt

/-- Exact arithmetic on the real numbers. The argument of a point with an infinite coordinate is left
out. -/
noncomputable instance realFloatEnv : FloatEnv ℝ where
  round := .fin
  sqrt
    | .fin x => .fin (Real.sqrt x)
    | v => v
  atan2
    | .fin y, .fin x => .fin (Complex.arg ⟨x, y⟩)
    | _, _ => .nan

instance instExactArithReal : ExactArith ℝ := ⟨fun _ => rfl⟩

instance instExactSqrtReal : ExactSqrt ℝ where
  sqrt_fin x hx := ⟨Real.sqrt x, Real.sqrt_nonneg x, Real.mul_self_sqrt hx, rfl⟩

end DroneMini
