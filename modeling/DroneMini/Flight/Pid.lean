import DroneMini.Flight.Mixer
import DroneMini.Lib.While

/-!
# The PID unit, the rate cascade and the attitude cascade

`Pid`, `RateController`, `AttitudeController` and the stick mapping of `flight/pid.cpp`, with the
gains of `flight/flight_params.hpp`. The two loops that bring the yaw error to the shortest path run
within a step budget, so `AttitudeController.update` returns `none` when the budget is too small.
-/

namespace DroneMini

variable {K : Type} [Field K] [FloatEnv K]

/-! ## Parameters -/

def kControlDtS : Flt K := .lit 0.001

/-- `flight_params_t`: the gains, limits and filter constants of the controllers. -/
structure FlightParams (K : Type) where
  rateKp : Fin 3 → Flt K
  rateKi : Fin 3 → Flt K
  rateKd : Fin 3 → Flt K
  rateILimit : Flt K
  rateOutLimit : Flt K
  rateDLpfHz : Flt K
  attKp : Fin 3 → Flt K
  attRateLimit : Flt K

def kFlightParams : FlightParams K where
  rateKp := ![.lit 0.15, .lit 0.15, .lit 0.16]
  rateKi := ![.lit 2.40, .lit 2.40, .lit 2.00]
  rateKd := ![.lit 0.006, .lit 0.006, .lit 0.004]
  rateILimit := .lit 0.06
  rateOutLimit := .lit 0.40
  rateDLpfHz := .lit 100
  attKp := ![.lit 6, .lit 6, 0]
  attRateLimit := .lit 5.236

def kTwoPi : Flt K := .lit 6.28318530718
def kMaxRateRad : Flt K := .lit 5.236
def kMaxAttRad : Flt K := .lit 0.5236

/-! ## The PID unit -/

/-- `Pid`: the gains and limits of one unit, its integrator, its derivative filter and its last
measurement. -/
structure Pid (K : Type) where
  kp : Flt K
  ki : Flt K
  kd : Flt K
  iLimit : Flt K
  outLimit : Flt K
  dTau : Flt K
  i : Flt K
  dFilt : Flt K
  measPrev : Flt K
  hasPrev : Bool

namespace Pid

/-- `Pid::reset`: the integrator, the derivative filter and the last measurement are forgotten, the gains are
not. -/
def reset (pid : Pid K) : Pid K := { pid with i := 0, dFilt := 0, measPrev := 0, hasPrev := false }

variable [LinearOrder K]

/-- `Pid::setGains` on a newly constructed unit; the filter frequency becomes a time constant. -/
def ofGains (kp ki kd iLimit outLimit dLpfHz : Flt K) : Pid K where
  kp := kp
  ki := ki
  kd := kd
  iLimit := iLimit
  outLimit := outLimit
  dTau := if 0 < dLpfHz then 1 / (kTwoPi * dLpfHz) else 0
  i := 0
  dFilt := 0
  measPrev := 0
  hasPrev := false

/-- The symmetric clamp that `step` uses twice: above first, below second. -/
def clampSym (v limit : Flt K) : Flt K :=
  let v := if limit < v then limit else v
  if v < -limit then -limit else v

/-- The inputs that `step` rejects, on which it leaves the unit alone and returns zero. -/
def rejects (sp meas dt : Flt K) : Bool := !sp.isFinite || !meas.isFinite || !decide (0 < dt)

/-- `Pid::step`: the unit after the step, and its output. -/
def step (pid : Pid K) (sp meas dt : Flt K) (satPos satNeg : Bool) : Pid K × Flt K :=
  if rejects sp meas dt then (pid, 0)
  else
    let e := sp - meas
    -- D on measurement, first-order low-pass
    let dmeas : Flt K := if pid.hasPrev then (meas - pid.measPrev) / dt else 0
    let alpha : Flt K := if 0 < pid.dTau then dt / (pid.dTau + dt) else 1
    let dFilt := pid.dFilt + alpha * (dmeas - pid.dFilt)
    let dterm := -pid.kd * dFilt
    -- conditional integration: hold I while saturated in the error's direction
    let block := (satPos && decide (0 < e)) || (satNeg && decide (e < 0))
    let i := if block then pid.i else clampSym (pid.i + pid.ki * e * dt) pid.iLimit
    let out := clampSym (pid.kp * e + i + dterm) pid.outLimit
    ({ pid with i := i, dFilt := dFilt, measPrev := meas, hasPrev := true },
      if out.isFinite then out else 0)

end Pid

/-! ## The rate cascade -/

/-- `RateController`: the three units and the last shift of the mixer. -/
structure RateController (K : Type) where
  pids : Fin 3 → Pid K
  lastShift : Flt K

namespace RateController
variable [LinearOrder K]

/-- The constructor of `RateController`: three units with the gains of `kFlightParams`, and no shift so
far. -/
def new : RateController K where
  pids i := .ofGains (kFlightParams.rateKp i) (kFlightParams.rateKi i) (kFlightParams.rateKd i)
    kFlightParams.rateILimit kFlightParams.rateOutLimit kFlightParams.rateDLpfHz
  lastShift := 0

/-- `RateController::reset`: the three units are reset and the last shift is forgotten. -/
def reset (rate : RateController K) : RateController K := ⟨fun i => (rate.pids i).reset, 0⟩

/-- `RateController::update`: the controller after the step, the command and the shift. The pitch
axis works nose-down positive, against the gyro. -/
def update (rate : RateController K) (imu : ImuSample K) (sp : RateSp K) :
    RateController K × PwmCmd K × Flt K :=
  let satPos := decide (rate.lastShift < 0)
  let satNeg := decide (0 < rate.lastShift)
  let r := (rate.pids 0).step sp.roll (imu.gyroRps 0) kControlDtS satPos satNeg
  let p := (rate.pids 1).step sp.pitch (-imu.gyroRps 1) kControlDtS satPos satNeg
  let y := (rate.pids 2).step sp.yaw (imu.gyroRps 2) kControlDtS satPos satNeg
  let (out, shift) := QuadXMixer.write sp.throttle r.2 p.2 y.2
  (⟨![r.1, p.1, y.1], shift⟩, out, shift)

end RateController

/-! ## The attitude cascade -/

/-- `AttitudeController`: the gains of the three axes and the limit of the rate that they ask for. -/
structure AttitudeController (K : Type) where
  kp : Fin 3 → Flt K
  limit : Flt K

namespace AttitudeController

/-- The constructor of `AttitudeController`, with the gains of `kFlightParams`. -/
def new : AttitudeController K := ⟨kFlightParams.attKp, kFlightParams.attRateLimit⟩

variable [LinearOrder K]

/-- The two loops of `update` that take the yaw error to the shortest path. -/
def shortestYaw (fuel : Nat) (e : Flt K) : Option (Flt K) := do
  let e ← whileLoop (fun e : Flt K => decide (.lit 3.14159265 < e)) (fun e => some (e - kTwoPi)) fuel e
  whileLoop (fun e : Flt K => decide (e < -.lit 3.14159265)) (fun e => some (e + kTwoPi)) fuel e

/-- One axis of `update`: the error, on the yaw axis by the shortest path, times the gain and clamped. -/
def axis (att : AttitudeController K) (fuel : Nat) (sp est : Flt K) (i : Fin 3) :
    Option (Flt K) := do
  let e := sp - est
  let e := if e.isFinite then e else 0
  let e ← if i = 2 then shortestYaw fuel e else some e
  let r := Pid.clampSym (att.kp i * e) att.limit
  return if r.isFinite then r else 0

/-- `AttitudeController::update`: the rates that bring the attitude to its set point. -/
def update (att : AttitudeController K) (fuel : Nat) (sp est : Fin 3 → Flt K) :
    Option (Fin 3 → Flt K) := do
  let r ← att.axis fuel (sp 0) (est 0) 0
  let p ← att.axis fuel (sp 1) (est 1) 1
  let y ← att.axis fuel (sp 2) (est 2) 2
  return ![r, p, y]

end AttitudeController

/-! ## Stick mapping -/

/-- A stick that is not finite reads as centred, here and in both mappings. -/
def stickOrZero (v : Flt K) : Flt K := if v.isFinite then v else 0

variable [LinearOrder K]

/-- `rc_stick_to_rate_sp`: sticks ask for rates, all three of them. -/
def rcStickToRateSp (rc : RcSample K) : RateSp K where
  roll := stickOrZero rc.roll * kMaxRateRad
  pitch := stickOrZero rc.pitch * kMaxRateRad
  yaw := stickOrZero rc.yaw * kMaxRateRad
  throttle := stickOrZero rc.throttle

/-- `rc_stick_to_att_sp`: sticks ask for an attitude, but for the yaw, which stays at zero. -/
def rcStickToAttSp (rc : RcSample K) : Fin 3 → Flt K :=
  ![stickOrZero rc.roll * kMaxAttRad, stickOrZero rc.pitch * kMaxAttRad, 0]

end DroneMini
