import DroneMini.Lib.Flt
import Mathlib.Data.Rat.Sqrt

/-!
# Exact rational arithmetic

The floating-point environment in which the model runs: every result is exact, `sqrt` is the rational
square root and `atan2` is exact on the positive half axis.
-/

namespace DroneMini

/-- Exact arithmetic on the rationals: nothing is rounded, the square root is exact on squares, and the angle
of a point is right on the positive half axis only. -/
instance ratFloatEnv : FloatEnv ℚ where
  round := .fin
  sqrt
    | .fin x => .fin (Rat.sqrt x)
    | v => v
  atan2 _ _ := .fin 0

end DroneMini
