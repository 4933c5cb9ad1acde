import DroneMini.Plant.Vehicle
import Mathlib.Algebra.Order.Field.Basic
import Mathlib.Tactic.FieldSimp
import Mathlib.Tactic.FinCases
import Mathlib.Tactic.LinearCombination
import Mathlib.Tactic.NormNum

/-!
# Heading and place

The plant has no preferred heading and no preferred place: turned about the vertical and carried along the
ground, it moves turned and carried (`step_state`), and what it senses stays the same (`sense_state`). A
`Heading` is such a turn, by its unit quaternion. The only readings of the attitude that the plant takes are
the body's up axis, the third column of `quatToR`, and the world's, its third row; the first turns along
(`up_quat`) and the second does not change (`row_quat`).
-/

namespace DroneMini

open Matrix

variable {K : Type} [Field K]

/-- A turn about the vertical and a shift along the ground. -/
structure Heading (K : Type) [Field K] where
  /-- Cosine and sine of half the angle. -/
  c : K
  s : K
  unit : c * c + s * s = 1
  east : K
  north : K

namespace Heading

variable (h : Heading K)

/-- A vector of the world, turned about the vertical by the angle. -/
def vec (v : Fin 3 → K) : Fin 3 → K :=
  ![(h.c * h.c - h.s * h.s) * v 0 - (h.c * h.s + h.s * h.c) * v 1,
    (h.c * h.s + h.s * h.c) * v 0 + (h.c * h.c - h.s * h.s) * v 1, v 2]

/-- An attitude, turned about the vertical by the angle. -/
def quat (q : Fin 4 → K) : Fin 4 → K := quatMul ![h.c, 0, 0, h.s] q

/-- A derivative of the plant, turned in all components that are in world axes. -/
def slope (k : PlantState K) : PlantState K := ⟨h.vec k.pos, h.vec k.vel, h.quat k.quat, k.omega, k.motors⟩

/-- The plant, turned about the vertical and carried along the ground. -/
def state (x : PlantState K) : PlantState K :=
  { h.slope x with pos := fun i => h.vec x.pos i + ![h.east, h.north, 0] i }

/-! ## Vectors and attitudes -/

@[simp] theorem vec_two (v : Fin 3 → K) : h.vec v 2 = v 2 := rfl

/-- A vertical vector does not turn, so weight and ground stay what they are. -/
theorem vec_vertical (u : K) : h.vec ![0, 0, u] = ![0, 0, u] := by
  funext i
  fin_cases i <;> simp [vec]

/-- A turn is linear, so it commutes with moving a vector along another one. -/
theorem vec_add_mul (t : K) (v w : Fin 3 → K) (i : Fin 3) :
    h.vec (fun j => v j + t * w j) i = h.vec v i + t * h.vec w i := by
  fin_cases i <;> simp [vec] <;> ring

theorem quat_add_mul (t : K) (q r : Fin 4 → K) (i : Fin 4) :
    h.quat (fun j => q j + t * r j) i = h.quat q i + t * h.quat r i := by
  fin_cases i <;> simp [quat, quatMul] <;> ring

theorem quat_div (q : Fin 4 → K) (n : K) (i : Fin 4) : h.quat (fun j => q j / n) i = h.quat q i / n := by
  fin_cases i <;> simp [quat, quatMul] <;> ring

/-- A turn of the world is not one of the body. -/
theorem quat_quatMul (q r : Fin 4 → K) : quatMul (h.quat q) r = h.quat (quatMul q r) := by
  funext i
  fin_cases i <;> simp [quat, quatMul] <;> ring

/-- Turning an attitude keeps its length, so it is normalised alike. -/
theorem quat_norm (q : Fin 4 → K) : ∑ i, h.quat q i * h.quat q i = ∑ i, q i * q i := by
  simp only [Fin.sum_univ_four]
  simp [quat, quatMul]
  linear_combination (q 0 * q 0 + q 1 * q 1 + q 2 * q 2 + q 3 * q 3) * h.unit

/-- What the up axis of the world is made of does not change. -/
theorem quat_row (q : Fin 4 → K) :
    h.quat q 1 * h.quat q 3 - h.quat q 0 * h.quat q 2 = q 1 * q 3 - q 0 * q 2 ∧
      h.quat q 2 * h.quat q 3 + h.quat q 0 * h.quat q 1 = q 2 * q 3 + q 0 * q 1 ∧
      h.quat q 1 * h.quat q 1 + h.quat q 2 * h.quat q 2 = q 1 * q 1 + q 2 * q 2 := by
  refine ⟨?_, ?_, ?_⟩ <;> simp only [quat, quatMul, cons_val]
  · linear_combination (q 1 * q 3 - q 0 * q 2) * h.unit
  · linear_combination (q 2 * q 3 + q 0 * q 1) * h.unit
  · linear_combination (q 1 * q 1 + q 2 * q 2) * h.unit

variable [LinearOrder K]

/-- The up axis of the body turns with the attitude, and with it the thrust. -/
theorem up_quat (q : Fin 4 → K) (u : K) :
    quatToR (h.quat q) *ᵥ ![0, 0, u] = h.vec (quatToR q *ᵥ ![0, 0, u]) := by
  obtain ⟨-, -, htilt⟩ := h.quat_row q
  have hlen := h.quat_norm q
  simp only [Fin.sum_univ_four] at hlen
  unfold quatToR
  dsimp only
  rw [hlen, htilt]
  split_ifs
  · rw [one_mulVec, vec_vertical]
  · generalize (2.0 : K) / (q 0 * q 0 + q 1 * q 1 + q 2 * q 2 + q 3 * q 3) = t
    funext i
    fin_cases i <;> simp [mulVec, dotProduct, Fin.sum_univ_three, quat, quatMul, vec] <;> ring

/-- The up axis of the world is seen from the body as before. -/
theorem row_quat (q : Fin 4 → K) : quatToR (h.quat q) 2 = quatToR q 2 := by
  obtain ⟨hfore, hside, htilt⟩ := h.quat_row q
  have hlen := h.quat_norm q
  simp only [Fin.sum_univ_four] at hlen
  unfold quatToR
  dsimp only
  have hthird (a b c d e f u v w : K) : !![a, b, c; d, e, f; u, v, w] 2 = ![u, v, w] := rfl
  rw [hlen, htilt]
  split_ifs
  · rfl
  · rw [hthird, hthird, hfore, hside]

/-! ## The plant -/

open Params Rk4Plant

omit [LinearOrder K] in
@[simp] theorem state_motors (x : PlantState K) : (h.state x).motors = x.motors := rfl

omit [LinearOrder K] in
@[simp] theorem state_omega (x : PlantState K) : (h.state x).omega = x.omega := rfl

omit [LinearOrder K] in
@[simp] theorem state_quat (x : PlantState K) : (h.state x).quat = h.quat x.quat := rfl

omit [LinearOrder K] in
@[simp] theorem state_vel (x : PlantState K) : (h.state x).vel = h.vec x.vel := rfl

omit [LinearOrder K] in
@[simp] theorem state_height (x : PlantState K) : (h.state x).pos 2 = x.pos 2 := add_zero _

omit [Field K] [LinearOrder K] in
/-- Two states of the plant are equal when their parts are. -/
theorem plant_ext {x y : PlantState K} (hpos : x.pos = y.pos) (hvel : x.vel = y.vel) (hquat : x.quat = y.quat)
    (homega : x.omega = y.omega) (hmotors : x.motors = y.motors) : x = y := by
  cases x
  cases y
  rw [PlantState.mk.injEq]
  exact ⟨hpos, hvel, hquat, homega, hmotors⟩

omit [LinearOrder K] in
/-- A turned state that moves along a turned derivative ends in the turned state. -/
theorem move_state (x k : PlantState K) (t : K) : move (h.state x) t (h.slope k) = h.state (move x t k) := by
  refine plant_ext (funext fun i => ?_) (funext fun i => ?_) (funext fun i => ?_) rfl rfl
  · unfold move state
    dsimp only
    rw [vec_add_mul, slope]
    ring
  · exact (h.vec_add_mul t x.vel k.vel i).symm
  · exact (h.quat_add_mul t x.quat k.quat i).symm

omit [LinearOrder K] in
/-- The weighted sum of four turned stages is the turned sum of the stages. -/
theorem stages_slope (k1 k2 k3 k4 : PlantState K) :
    stages (h.slope k1) (h.slope k2) (h.slope k3) (h.slope k4) = h.slope (stages k1 k2 k3 k4) := by
  refine plant_ext (funext fun i => ?_) (funext fun i => ?_) (funext fun i => ?_) rfl rfl
  · fin_cases i <;> simp [stages, slope, vec] <;> ring
  · fin_cases i <;> simp [stages, slope, vec] <;> ring
  · fin_cases i <;> simp [stages, slope, quat, quatMul] <;> ring

/-- The ground is level, so the contact does not depend on place or heading. -/
theorem ground_state (x : PlantState K) : ground (h.state x) = h.state (ground x) := by
  unfold ground
  rw [state_height, state_vel, vec_two]
  split_ifs
  · refine plant_ext (funext fun i => ?_) (funext fun i => ?_) rfl rfl rfl
    · fin_cases i <;> simp [state, slope, vec]
    · fin_cases i <;> simp [state, slope, vec]
  · refine plant_ext (funext fun i => ?_) rfl rfl rfl rfl
    fin_cases i <;> simp [state, slope, vec]
  · rfl

variable [IsStrictOrderedRing K]

/-- In the air the acceleration is that of the thrust and the weight: there is no drag. -/
theorem deriv_vel_eq (x : PlantState K) (duty : Fin 4 → K) (vbat : Flt K) : (Rk4Plant.deriv x duty vbat).vel =
    fun i => (quatToR x.quat *ᵥ ![0, 0, ∑ i, thrust x.motors i]) i / massKg + ![0, 0, -gravity] i := by
  have hzero : (0.0 : K) = 0 := by norm_num
  unfold Rk4Plant.deriv
  dsimp only
  rw [hzero]
  funext i
  fin_cases i <;> simp [linearDrag, hzero]

/-- The derivative of the turned plant is the turned derivative of the plant. -/
theorem deriv_state (x : PlantState K) (duty : Fin 4 → K) (vbat : Flt K) :
    Rk4Plant.deriv (h.state x) duty vbat = h.slope (Rk4Plant.deriv x duty vbat) := by
  refine plant_ext rfl ?_ ?_ rfl rfl
  · show _ = h.vec (Rk4Plant.deriv x duty vbat).vel
    rw [deriv_vel_eq, deriv_vel_eq, state_quat, state_motors, h.up_quat]
    generalize quatToR x.quat *ᵥ _ = up
    funext i
    fin_cases i <;> simp [vec] <;> ring
  · show _ = h.quat (Rk4Plant.deriv x duty vbat).quat
    unfold Rk4Plant.deriv
    dsimp only
    rw [state_quat, state_omega, h.quat_quatMul]
    generalize (0.5 : K) = half
    generalize quatMul x.quat _ = r
    funext i
    fin_cases i <;> simp [quat, quatMul] <;> ring

/-- **A turned plant steps to the turned plant.** The step raises for both or for none. -/
theorem step_state [FloatEnv K] (x : PlantState K) (dt : K) (duty : Fin 4 → K) (vbat : Flt K) :
    step (h.state x) dt duty vbat = (step x dt duty vbat).map h.state := by
  unfold step
  dsimp only
  simp only [deriv_state, move_state, stages_slope, state_quat, quat_norm, state_motors]
  generalize move x (dt / 6.0) _ = y
  split
  · split_ifs
    · rfl
    · rw [Option.map_some, ← ground_state]
      congr 2
      refine plant_ext rfl rfl (funext fun i => ?_) rfl rfl
      exact (h.quat_div y.quat _ i).symm
  · rfl

omit [LinearOrder K] [IsStrictOrderedRing K] in
/-- What is felt along the up axis of the body. -/
theorem rotate_back_of_len {w x y z t : K} (hlen : t * (w * w + x * x + y * y + z * z) = 2) (u : K) :
    let R := !![1 - t * (y * y + z * z), t * (x * y - w * z), t * (x * z + w * y);
      t * (x * y + w * z), 1 - t * (x * x + z * z), t * (y * z - w * x);
      t * (x * z - w * y), t * (y * z + w * x), 1 - t * (x * x + y * y)]
    Rᵀ *ᵥ (R *ᵥ ![0, 0, u]) = ![0, 0, u] := by
  intro R
  funext i
  fin_cases i <;> simp [R, mulVec, dotProduct, Fin.sum_univ_three]
  · linear_combination -(t * (x * z) * u) * hlen
  · linear_combination -(t * (y * z) * u) * hlen
  · linear_combination (t * (x * x + y * y) * u) * hlen

/-- In the air the only force that is felt is the thrust. -/
theorem rotate_back (q : Fin 4 → K) (u : K) : (quatToR q)ᵀ *ᵥ (quatToR q *ᵥ ![0, 0, u]) = ![0, 0, u] := by
  unfold quatToR
  dsimp only
  split_ifs with hshort
  · rw [transpose_one, one_mulVec, one_mulVec]
  · refine rotate_back_of_len ?_ u
    have hpos : (0 : K) < 1e-12 := by norm_num
    have hne : q 0 * q 0 + q 1 * q 1 + q 2 * q 2 + q 3 * q 3 ≠ 0 :=
      (hpos.trans_le (not_lt.mp hshort)).ne'
    rw [div_mul_cancel₀ _ hne]
    norm_num

/-- **A turned plant senses the same.** The sensors are fixed to the body and feel neither place nor
heading. -/
theorem sense_state (x : PlantState K) : sense (h.state x) = sense x := by
  have hzero : (0.0 : K) = 0 := by norm_num
  have hthird (R : Matrix (Fin 3) (Fin 3) K) (v : Fin 3 → K) (hv : v = ![0, 0, v 2]) :
      Rᵀ *ᵥ v = fun i => R 2 i * v 2 := by
    rw [hv]
    funext i
    simp [mulVec, dotProduct, Fin.sum_univ_three]
  unfold sense
  dsimp only
  rw [hzero, state_height, state_vel, vec_two, state_omega, state_motors, state_quat]
  congr 2
  split_ifs
  · have hup : (fun i => (0 : K) + ![0, 0, gravity] i) = ![0, 0, gravity] := by
      funext i
      exact zero_add _
    rw [hup, hthird _ _ rfl, hthird _ _ rfl, row_quat]
  · have hfree (q : Fin 4 → K) (u : K) : (fun i => (quatToR q *ᵥ ![0, 0, u]) i + ![0, 0, -gravity] i
        + ![0, 0, gravity] i) = quatToR q *ᵥ ![0, 0, u] := by
      funext i
      fin_cases i <;> simp
    rw [hfree, hfree, rotate_back, rotate_back]

end Heading

end DroneMini
