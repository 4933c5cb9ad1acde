import DroneMini.Flight.Ports
import Mathlib.Algebra.BigOperators.Fin
import Mathlib.LinearAlgebra.Matrix.Notation

/-!
# The plant

The parameters of `plant/drone_mini_params.py` that the rigid body uses, and `Rk4Plant._deriv`, `step` and
`sense` of `plant/vehicle.py`, in exact arithmetic. World frame ENU, body frame FLU; the firmware speaks
FRD, and `toFrd` is applied at the boundary only. A battery voltage may be any float. `step` is `none`
where the source raises `FloatingPointError`: a quaternion without a length has no direction.
-/

namespace DroneMini

variable {K : Type} [Field K]

/-! ## Parameters -/

namespace Params

def massKg : K := 0.03
def armLengthM : K := 0.043
def gravity : K := 9.81
def tauMS : K := 0.03
def kT : K := 4.7e-8
def kQ : K := 8.0e-10
def omegaMaxRadS : K := 2500.0
def inertia : Fin 3 → K := ![1.4e-5, 1.4e-5, 2.6e-5]
def linearDrag : Fin 3 → K := ![0.0, 0.0, 0.0]
def angularDrag : Fin 3 → K := ![0.0, 0.0, 0.0]
def vbatNominal : K := 3.85

/-- An entry of `ROTOR_MAP`: the position, and the sign of the yaw reaction torque. -/
structure Rotor (K : Type) where
  pos : Fin 3 → K
  dir : K

/-- `ROTOR_MAP`: the place and the turning direction of Mot1 to Mot4. -/
def rotorMap : Fin 4 → Rotor K :=
  ![⟨![-armLengthM, -armLengthM, 0], 1⟩,
    ⟨![armLengthM, -armLengthM, 0], -1⟩,
    ⟨![-armLengthM, armLengthM, 0], -1⟩,
    ⟨![armLengthM, armLengthM, 0], 1⟩]

variable [LinearOrder K]

/-- `pwm_to_omega` on the four motors: the rotor speeds that duties command at a battery voltage. -/
def pwmToOmega (duty : Fin 4 → K) (vbat : Flt K) : Fin 4 → K :=
  let v := match vbat with
    | .fin v => max v 0
    | _ => 0
  let omegaMax := omegaMaxRadS * (v / vbatNominal)
  fun i => max 0 (min 1 (duty i)) * omegaMax

end Params

/-! ## The rigid body -/

/-- `quat_mul`: the product of two quaternions, the scalar part first. -/
def quatMul (a b : Fin 4 → K) : Fin 4 → K :=
  ![a 0 * b 0 - a 1 * b 1 - a 2 * b 2 - a 3 * b 3,
    a 0 * b 1 + a 1 * b 0 + a 2 * b 3 - a 3 * b 2,
    a 0 * b 2 - a 1 * b 3 + a 2 * b 0 + a 3 * b 1,
    a 0 * b 3 + a 1 * b 2 - a 2 * b 1 + a 3 * b 0]

/-- `np.cross`: the cross product of two vectors. -/
def cross (a b : Fin 3 → K) : Fin 3 → K :=
  ![a 1 * b 2 - a 2 * b 1, a 2 * b 0 - a 0 * b 2, a 0 * b 1 - a 1 * b 0]

/-- `to_frd`: a body vector in the axes of the sensors, front, right and down. -/
def toFrd (v : Fin 3 → K) : Fin 3 → K := ![v 0, -v 1, -v 2]

/-- The state of the plant; its derivative has the same components. -/
structure PlantState (K : Type) where
  pos : Fin 3 → K
  vel : Fin 3 → K
  quat : Fin 4 → K
  omega : Fin 3 → K
  motors : Fin 4 → K

variable [LinearOrder K]

/-- `quat_to_R`: the rotation matrix of a quaternion. -/
def quatToR (q : Fin 4 → K) : Matrix (Fin 3) (Fin 3) K :=
  let (w, x, y, z) := (q 0, q 1, q 2, q 3)
  let n := w * w + x * x + y * y + z * z
  if n < 1e-12 then 1
  else
    let s := 2.0 / n
    !![1 - s * (y * y + z * z), s * (x * y - w * z), s * (x * z + w * y);
       s * (x * y + w * z), 1 - s * (x * x + z * z), s * (y * z - w * x);
       s * (x * z - w * y), s * (y * z + w * x), 1 - s * (x * x + y * y)]

namespace Rk4Plant

open Params Matrix

/-- The thrust of each rotor, which grows with the square of its speed. -/
def thrust (om : Fin 4 → K) : Fin 4 → K := fun i => kT * om i * om i

/-- The torque of the rotors on the body, from their thrust at their places and from their drag. -/
def torque (om : Fin 4 → K) : Fin 3 → K :=
  ![∑ i, (rotorMap i).pos 1 * thrust om i,
    -∑ i, (rotorMap i).pos 0 * thrust om i,
    ∑ i, (rotorMap i).dir * kQ * om i * om i]

/-- `Rk4Plant._deriv`: the derivative of the state under duties and a battery voltage. -/
def deriv (x : PlantState K) (duty : Fin 4 → K) (vbat : Flt K) : PlantState K :=
  let omDot := fun i => (pwmToOmega duty vbat i - x.motors i) / tauMS
  let fb : Fin 3 → K := ![0.0, 0.0, ∑ i, thrust x.motors i]
  let acc := fun i => (quatToR x.quat *ᵥ fb) i / massKg + ![0.0, 0.0, -gravity] i
  let iw := fun i => inertia i * x.omega i
  let wDot := fun i => 1 / inertia i * (torque x.motors i - cross x.omega iw i)
  let acc := fun i => acc i - linearDrag i * x.vel i / massKg
  let wDot := fun i => wDot i - angularDrag i * x.omega i / inertia i
  let qDot := fun i => 0.5 * quatMul x.quat ![0.0, x.omega 0, x.omega 1, x.omega 2] i
  ⟨x.vel, acc, qDot, wDot, omDot⟩

/-- `Rk4Plant.rate_deriv`: the angular acceleration of the body, without a step. -/
def rateDeriv (x : PlantState K) (duty : Fin 4 → K) (vbat : Flt K) : Fin 3 → K :=
  (deriv x duty vbat).omega

/-- A state that is moved along a derivative for some time. -/
def move (x : PlantState K) (t : K) (k : PlantState K) : PlantState K where
  pos i := x.pos i + t * k.pos i
  vel i := x.vel i + t * k.vel i
  quat i := x.quat i + t * k.quat i
  omega i := x.omega i + t * k.omega i
  motors i := x.motors i + t * k.motors i

/-- The weighted sum of the four stages of a Runge–Kutta step. -/
def stages (k1 k2 k3 k4 : PlantState K) : PlantState K where
  pos i := k1.pos i + 2.0 * k2.pos i + 2.0 * k3.pos i + k4.pos i
  vel i := k1.vel i + 2.0 * k2.vel i + 2.0 * k3.vel i + k4.vel i
  quat i := k1.quat i + 2.0 * k2.quat i + 2.0 * k3.quat i + k4.quat i
  omega i := k1.omega i + 2.0 * k2.omega i + 2.0 * k3.omega i + k4.omega i
  motors i := k1.motors i + 2.0 * k2.motors i + 2.0 * k3.motors i + k4.motors i

/-- The simple ground contact of `step`: no altitude below zero, and no velocity into the ground there. -/
def ground (x : PlantState K) : PlantState K :=
  if x.pos 2 < 0 then
    { x with
      pos := ![x.pos 0, x.pos 1, 0]
      vel := if x.vel 2 < 0 then ![x.vel 0, x.vel 1, 0] else x.vel }
  else x

/-- `Rk4Plant.step`: one Runge–Kutta step, the quaternion normalised, and then the ground contact. -/
def step [FloatEnv K] (x : PlantState K) (dt : K) (duty : Fin 4 → K) (vbat : Flt K) :
    Option (PlantState K) :=
  let duty := fun i => max 0 (min 1 (duty i))
  let k1 := deriv x duty vbat
  let k2 := deriv (move x (0.5 * dt) k1) duty vbat
  let k3 := deriv (move x (0.5 * dt) k2) duty vbat
  let k4 := deriv (move x dt k3) duty vbat
  let x := move x (dt / 6.0) (stages k1 k2 k3 k4)
  match FloatEnv.sqrt (.fin (∑ i, x.quat i * x.quat i)) with
  | .fin norm =>
    if norm = 0 then none
    else
      some (ground
        { x with
          quat := fun i => x.quat i / norm
          motors := fun i => max (x.motors i) 0 })
  | _ => none

/-- `Rk4Plant.sense`: the body rate and the specific force, in FRD. -/
def sense (x : PlantState K) : (Fin 3 → K) × (Fin 3 → K) :=
  let fb : Fin 3 → K := ![0.0, 0.0, (∑ i, thrust x.motors i) / massKg]
  let R := quatToR x.quat
  let aWorld := fun i => (R *ᵥ fb) i + ![0.0, 0.0, -gravity] i
  let aWorld := if x.pos 2 ≤ 1e-9 ∧ x.vel 2 ≤ 1e-9 then fun _ => 0 else aWorld
  let fBody := Rᵀ *ᵥ fun i => aWorld i + ![0.0, 0.0, gravity] i
  (toFrd x.omega, toFrd fBody)

end Rk4Plant

end DroneMini
