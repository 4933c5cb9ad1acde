import DroneMini.Flight.Ports
import DroneMini.Flight.Failsafe
import DroneMini.Lib.While

/-!
# The attitude estimator

`ComplementaryEstimator` of `flight/estimator.cpp`: the calibration of the gyro bias and the fusion
of gyro and accelerometer. `wrapPi` loops, so it runs within a step budget; `sqrt` and `atan2` are
those of the floating-point environment.
-/

namespace DroneMini

def kCalibSamples : Nat := 200
def kEstDecim : Nat := 2

/-- `ComplementaryEstimator::State`: the calibration has not begun, collects samples, or is complete. -/
inductive CalibState where
  | kIdle
  | kCollect
  | kDone
  deriving DecidableEq, Repr

/-- `ComplementaryEstimator`: the state of the calibration, the attitude and the judgement on the samples. -/
structure ComplementaryEstimator (K : Type) where
  state : CalibState
  n : Nat
  sum : Fin 3 → Flt K
  bias : Fin 3 → Flt K
  roll : Flt K
  pitch : Flt K
  yaw : Flt K
  invalidCount : Nat
  imuValid : Bool
  decim : Nat
  alpha : Flt K

/-- `finite3`: all three components of a vector are finite. -/
def finite3 {K : Type} (v : Fin 3 → Flt K) : Bool :=
  (v 0).isFinite && (v 1).isFinite && (v 2).isFinite

namespace ComplementaryEstimator

variable {K : Type} [Field K] [FloatEnv K]

def kCalibMaxGyroRps : Flt K := .lit 0.349
def kPi : Flt K := .lit 3.14159265359

/-- A newly constructed estimator, which has not calibrated and holds the level attitude. -/
def new : ComplementaryEstimator K where
  state := .kIdle
  n := 0
  sum := fun _ => 0
  bias := fun _ => 0
  roll := 0
  pitch := 0
  yaw := 0
  invalidCount := 0
  imuValid := true
  decim := 0
  alpha := .lit 0.998

/-- `ComplementaryEstimator::reset`: everything but the filter constant takes its initial value. -/
def reset (est : ComplementaryEstimator K) : ComplementaryEstimator K := { new with alpha := est.alpha }

/-- `ComplementaryEstimator::calibrated`: the bias is known. -/
def calibrated (est : ComplementaryEstimator K) : Bool := est.state == .kDone

/-- `ComplementaryEstimator::getAttitude`: roll, pitch and yaw in this order. -/
def getAttitude (est : ComplementaryEstimator K) : Fin 3 → Flt K := ![est.roll, est.pitch, est.yaw]

variable [LinearOrder K]

/-- The Euclidean norm of a vector, in the order of operations of `calibrateUpdate` and `update`. -/
def norm3 (v : Fin 3 → Flt K) : Flt K := FloatEnv.sqrt (v 0 * v 0 + v 1 * v 1 + v 2 * v 2)

/-- `wrapPi`: two loops that add or subtract a whole turn until the angle is in range. -/
def wrapPi (fuel : Nat) (a : Flt K) : Option (Flt K) := do
  let a ← whileLoop (fun a : Flt K => decide (kPi < a)) (fun a => some (a - .lit 2 * kPi)) fuel a
  whileLoop (fun a : Flt K => decide (a < -kPi)) (fun a => some (a + .lit 2 * kPi)) fuel a

/-- `ComplementaryEstimator::calibrateUpdate`: one sample of the calibration, which does nothing once it is
complete. -/
def calibrateUpdate (est : ComplementaryEstimator K) (imu : ImuSample K) :
    ComplementaryEstimator K :=
  if est.state = .kDone then est
  else
    let est := if est.state = .kIdle then { est with state := .kCollect } else est
    if !imu.valid || !finite3 imu.gyroRps then est
    else if kCalibMaxGyroRps < norm3 imu.gyroRps then  -- motion detected: restart collection
      { est with n := 0, sum := fun _ => 0 }
    else
      let sum : Fin 3 → Flt K := fun i => est.sum i + imu.gyroRps i
      let n := est.n + 1
      if kCalibSamples ≤ n then
        let inv : Flt K := 1 / .ofInt n
        { est with n := n, sum := sum, bias := fun i => sum i * inv, state := .kDone }
      else { est with n := n, sum := sum }

/-- The calibration changes its own variables only: it leaves the attitude and the judgement on the samples
alone. -/
theorem calibrateUpdate_eq (est : ComplementaryEstimator K) (imu : ImuSample K) :
    est.calibrateUpdate imu =
      { est with
        state := (est.calibrateUpdate imu).state
        n := (est.calibrateUpdate imu).n
        sum := (est.calibrateUpdate imu).sum
        bias := (est.calibrateUpdate imu).bias } := by
  unfold calibrateUpdate
  dsimp only
  split_ifs <;> rfl

/-- The samples that `update` rejects: invalid ones and those with a component that is not finite. -/
def rejects (imu : ImuSample K) (dt : Flt K) : Bool :=
  !imu.valid || !finite3 imu.gyroRps || !finite3 imu.accelMps2 || !decide (0 < dt)

/-- The part of `update` that fuses a sample: the attitude is moved by the gyro and drawn to the
accelerometer. -/
def fuse (est : ComplementaryEstimator K) (fuel : Nat) (imu : ImuSample K) (dt : Flt K) :
    Option (ComplementaryEstimator K) := do
  let dte := dt * .ofInt kEstDecim
  let a := imu.accelMps2
  let usable := decide (.lit 1e-3 < norm3 a)
  let rollA := if usable then FloatEnv.atan2 (-a 1) (-a 2) else est.roll
  let pitchA := if usable then FloatEnv.atan2 (-a 0) (-a 2) else est.pitch
  let gx := imu.gyroRps 0
  let gy := -imu.gyroRps 1  -- nose-down positive
  let gz := imu.gyroRps 2
  let roll ← wrapPi fuel (est.alpha * (est.roll + gx * dte) + (1 - est.alpha) * rollA)
  let pitch ← wrapPi fuel (est.alpha * (est.pitch + gy * dte) + (1 - est.alpha) * pitchA)
  let yaw ← wrapPi fuel (est.yaw + gz * dte)
  return { est with roll := roll, pitch := pitch, yaw := yaw }

/-- The fusion changes the attitude only. -/
theorem fuse_eq {est est' : ComplementaryEstimator K} {fuel : Nat} {imu : ImuSample K} {dt : Flt K}
    (h : est.fuse fuel imu dt = some est') :
    est' = { est with roll := est'.roll, pitch := est'.pitch, yaw := est'.yaw } := by
  unfold fuse at h
  obtain ⟨roll, -, h⟩ := Option.bind_eq_some_iff.mp h
  obtain ⟨pitch, -, h⟩ := Option.bind_eq_some_iff.mp h
  obtain ⟨yaw, -, h⟩ := Option.bind_eq_some_iff.mp h
  cases h
  rfl

/-- `ComplementaryEstimator::update`: a rejected sample is counted, every `kEstDecim`-th accepted one is
fused. -/
def update (est : ComplementaryEstimator K) (fuel : Nat) (imu : ImuSample K) (dt : Flt K) :
    Option (ComplementaryEstimator K) :=
  if rejects imu dt then
    let count :=
      if est.invalidCount < kImuInvalidDebounce then est.invalidCount + 1 else est.invalidCount
    some { est with invalidCount := count, imuValid := decide (count < kImuInvalidDebounce) }
  else
    let est := { est with invalidCount := 0, imuValid := true, decim := est.decim + 1 }
    if est.decim < kEstDecim then some est
    else fuse { est with decim := 0 } fuel imu dt

end ComplementaryEstimator

end DroneMini
