import Mathlib.Algebra.Order.Field.Basic
import Mathlib.Order.Interval.Set.UnorderedInterval
import Mathlib.Tactic.FieldSimp
import Mathlib.Tactic.Linarith
import Mathlib.Tactic.Ring

/-!
# The Runge–Kutta step on a first-order lag

A lag follows a command `c` with `x' = (c - x) / τ`. One step of the classical Runge–Kutta method scales
the distance to the command by a fixed factor (`rk4Lag_eq`), the polynomial `rk4Factor` of the step in
units of `τ`. Up to one time constant the factor is between 0 and 1 (`rk4Factor_pos`, `rk4Factor_lt_one`),
so a step moves towards the command and not past it (`approach_mem_uIcc`).
-/

namespace DroneMini

variable {K : Type*} [Field K]

/-- The factor of a step of length `h`, in time constants. -/
def rk4Factor (h : K) : K := 1 - h + h ^ 2 / 2.0 - h ^ 3 / 6.0 + h ^ 4 / 24.0

/-- One step of the method on the lag with time constant `τ`. -/
def rk4Lag (τ c dt x : K) : K :=
  let slope := fun x => (c - x) / τ
  let k1 := slope x
  let k2 := slope (x + 0.5 * dt * k1)
  let k3 := slope (x + 0.5 * dt * k2)
  let k4 := slope (x + dt * k3)
  x + dt / 6.0 * (k1 + 2.0 * k2 + 2.0 * k3 + k4)

/-- A value that has come closer to `c` by the factor `ρ`. -/
def approach (c ρ x : K) : K := c + (x - c) * ρ

/-- Coming closer to a command twice is coming closer once, by the product of the factors. -/
theorem approach_approach (c ρ σ x : K) : approach c ρ (approach c σ x) = approach c (σ * ρ) x := by
  unfold approach
  ring

@[simp] theorem approach_one (c x : K) : approach c 1 x = x := by
  rw [approach, mul_one, add_sub_cancel]

variable [LinearOrder K] [IsStrictOrderedRing K]

/-- The factor of a step, written with field numerals in the place of the decimal literals. -/
theorem rk4Factor_eq (h : K) : rk4Factor h = 1 - h + h ^ 2 / 2 - h ^ 3 / 6 + h ^ 4 / 24 := by
  norm_num [rk4Factor]

/-- **The step scales the distance to the command.** One Runge–Kutta step of the lag leaves the polynomial of
degree four in `dt / τ` as a factor of the distance. -/
theorem rk4Lag_eq {τ : K} (hτ : τ ≠ 0) (c dt x : K) :
    rk4Lag τ c dt x = approach c (rk4Factor (dt / τ)) x := by
  rw [rk4Factor_eq]
  unfold rk4Lag approach
  norm_num
  field_simp
  ring

/-- Up to one time constant the value does not reach the command. -/
theorem rk4Factor_pos {h : K} (h0 : 0 ≤ h) (h1 : h ≤ 1) : 0 < rk4Factor h := by
  have hcube : 0 ≤ h ^ 2 * (1 - h) := mul_nonneg (sq_nonneg h) (sub_nonneg.mpr h1)
  have hsq : 0 ≤ (1 - h) ^ 2 := sq_nonneg _
  have hquart : 0 ≤ h ^ 4 := pow_nonneg h0 4
  rw [rk4Factor_eq]
  linarith

/-- A step of at most one time constant comes closer to the command. -/
theorem rk4Factor_lt_one {h : K} (h0 : 0 < h) (h1 : h ≤ 1) : rk4Factor h < 1 := by
  have hsq : h * h ≤ h := mul_le_of_le_one_right h0.le h1
  have hquart : h ^ 4 ≤ h ^ 3 := pow_le_pow_of_le_one h0.le h1 (by decide)
  have hcube : 0 ≤ h ^ 3 := pow_nonneg h0.le 3
  rw [rk4Factor_eq]
  linarith

/-- Of two values under two commands, the higher value under the higher command stays the higher one. -/
theorem approach_mono {c c' ρ x x' : K} (h0 : 0 ≤ ρ) (h1 : ρ ≤ 1) (hc : c ≤ c') (hx : x ≤ x') :
    approach c ρ x ≤ approach c' ρ x' := by
  have hsplit (c x : K) : approach c ρ x = c * (1 - ρ) + x * ρ := by
    unfold approach
    ring
  rw [hsplit, hsplit]
  exact add_le_add (mul_le_mul_of_nonneg_right hc (sub_nonneg.mpr h1)) (mul_le_mul_of_nonneg_right hx h0)

/-- A value that comes closer does not pass the command. -/
theorem approach_mem_uIcc {c ρ x : K} (h0 : 0 ≤ ρ) (h1 : ρ ≤ 1) : approach c ρ x ∈ Set.uIcc x c := by
  have hfrom : approach c ρ x - x = (c - x) * (1 - ρ) := by
    unfold approach
    ring
  have hto : c - approach c ρ x = (c - x) * ρ := by
    unfold approach
    ring
  rcases le_total x c with h | h
  · rw [Set.uIcc_of_le h]
    constructor
    · rw [← sub_nonneg, hfrom]
      exact mul_nonneg (sub_nonneg.mpr h) (sub_nonneg.mpr h1)
    · rw [← sub_nonneg, hto]
      exact mul_nonneg (sub_nonneg.mpr h) h0
  · rw [Set.uIcc_of_ge h]
    constructor
    · rw [← sub_nonpos, hto]
      exact mul_nonpos_of_nonpos_of_nonneg (sub_nonpos.mpr h) h0
    · rw [← sub_nonpos, hfrom]
      exact mul_nonpos_of_nonpos_of_nonneg (sub_nonpos.mpr h) (sub_nonneg.mpr h1)

/-- A value is on the way from `x` to `c` when it comes from `x` by scaling the distance to `c` with a factor
between zero and one. -/
def OnTheWay (c x s : K) : Prop := ∃ ρ, 0 ≤ ρ ∧ ρ ≤ 1 ∧ s = approach c ρ x

theorem onTheWay_self (c x : K) : OnTheWay c x x := ⟨1, zero_le_one, le_rfl, (approach_one c x).symm⟩

/-- **The points of the method are on the way**: the slope at one of them, followed from `x` for at most one
time constant, leads to another. -/
theorem OnTheWay.next {τ c x s t : K} (h : OnTheWay c x s) (hτ : 0 < τ) (h0 : 0 ≤ t) (h1 : t ≤ τ) :
    OnTheWay c x (x + t * ((c - s) / τ)) := by
  obtain ⟨ρ, hρ0, hρ1, rfl⟩ := h
  have ht0 : 0 ≤ t / τ := div_nonneg h0 hτ.le
  have ht1 : t / τ ≤ 1 := (div_le_one hτ).mpr h1
  refine ⟨1 - t / τ * ρ, sub_nonneg.mpr (mul_le_one₀ ht1 hρ0 hρ1), ?_, ?_⟩
  · exact sub_le_self 1 (mul_nonneg ht0 hρ0)
  · unfold approach
    field_simp
    ring

/-- What is on the way between two values of an interval is in it. -/
theorem OnTheWay.mem_Icc {c x s a b : K} (h : OnTheWay c x s) (hx : x ∈ Set.Icc a b) (hc : c ∈ Set.Icc a b) :
    s ∈ Set.Icc a b := by
  obtain ⟨ρ, hρ0, hρ1, rfl⟩ := h
  exact Set.uIcc_subset_Icc hx hc (approach_mem_uIcc hρ0 hρ1)

end DroneMini
