import DroneMini.Flight.RcParse
import DroneMini.Flight.Failsafe
import DroneMini.Flight.Estimator
import DroneMini.Flight.Pid

/-!
# One control tick

`LedFsm` of `flight/led.cpp`, `FlightContext` of `flight/context.hpp` and `ControlLoop::tick` of
`flight/control_loop.cpp`. The modules behind the context's references are its fields; the mixer and
the output stage have no state. `tick` is `none` when the parser would index outside its buffer or
when a loop of the estimator or the attitude controller does not return within the budget `fuel`.
-/

namespace DroneMini

/-- `LedFsm`: what the LED shows, the time it was last updated, and whether it is lit. -/
structure LedFsm where
  mode : LedMode
  tMs : UInt32
  on : Bool

namespace LedFsm

/-- `LedFsm::set`: the mode changes, the light itself at the next update. -/
def set (led : LedFsm) (mode : LedMode) : LedFsm := { led with mode := mode }

/-- `LedFsm::update`: whether the LED is lit is read off the mode and the time. -/
def update (led : LedFsm) (tMs : UInt32) : LedFsm :=
  { led with
    tMs := tMs
    on := match led.mode with
      | .kArmed => true
      | .kBoot => decide (tMs % 200 < 100)
      | .kCalib => decide (tMs % 500 < 250)
      | .kError => decide (tMs % 100 < 50)
      | .kFailsafe => decide (tMs % 250 < 125) }

end LedFsm

/-- `ControlMode`: open loop, rates only, or the attitude cascade. -/
inductive ControlMode where
  | kOpenLoop
  | kRateOnly
  | kAttitude
  deriving DecidableEq, Repr

/-- `FlightContext`, with the modules behind its references as fields. -/
structure FlightContext (K : Type) where
  rc : SbusParser
  est : ComplementaryEstimator K
  fs : FailsafeFsm
  led : LedFsm
  rate : RateController K
  att : AttitudeController K
  mode : ControlMode
  olFromRc : Bool
  olThr : Flt K
  olRoll : Flt K
  olPitch : Flt K
  olYaw : Flt K
  satShift : Flt K
  tick : UInt32

/-- The context at boot: newly constructed modules and a booted arm state machine. -/
def FlightContext.boot {K : Type} [Field K] [LinearOrder K] [FloatEnv K] (resetReason : UInt32)
    (mode : ControlMode) : FlightContext K where
  rc := .reset
  est := .new
  fs := .boot resetReason
  led := ⟨.kBoot, 0, false⟩
  rate := .new
  att := .new
  mode := mode
  olFromRc := false
  olThr := 0
  olRoll := 0
  olPitch := 0
  olYaw := 0
  satShift := 0
  tick := 0

/-- The inputs of one tick: the answers of the HAL and the argument `arm_test`. -/
structure TickInput (K : Type) where
  hal : HalReads K
  armTest : Bool

/-- The sensor values of one tick, the parser after it and the windows it accepted. -/
structure Sensed (K : Type) where
  imu : ImuSample K
  rc : RcSample K
  vbat : Flt K
  parser : SbusParser
  accepted : List (Nat × List UInt8)

/-- What one tick does beside changing the context: the sensor values it used, the mixer output it
offered to the gate and its calls to the HAL, in order. -/
structure TickOutput (K : Type) where
  sensed : Sensed K
  pwm : PwmCmd K
  calls : List (HalCall K)

namespace ControlLoop

variable {K : Type} [Field K] [LinearOrder K] [FloatEnv K]

/-- `tick`, "sensors": what the HAL says in this tick, and what the parser makes of the RC bytes. -/
def sense (rc : SbusParser) (h : HalReads K) : Option (Sensed K) := do
  let imu := if h.imuOk then h.imu else { h.imu with valid := false }
  let vbat := if h.vbatOk then h.vbat else .nan
  if h.raw.length = 0 then
    return ⟨imu, { RcSample.zero with tUs := h.rcUs }, vbat, rc, []⟩
  let r ← rc.feed h.raw .zero
  return ⟨imu, { r.out with frameOk := r.decoded, tUs := h.rcUs }, vbat, r.parser, r.accepted⟩

/-- `tick`, the sample without the bias, as soon as the bias is known. -/
def correct (est : ComplementaryEstimator K) (imu : ImuSample K) : ImuSample K :=
  if est.calibrated then { imu with gyroRps := fun i => imu.gyroRps i - est.bias i } else imu

/-- `tick`, "estimation": an armed craft fuses the corrected sample, a disarmed one calibrates on the raw
one. -/
def estimate (fuel : Nat) (est : ComplementaryEstimator K) (armed : Bool) (imu imuCtl : ImuSample K) :
    Option (ComplementaryEstimator K) :=
  if armed then est.update fuel imuCtl kControlDtS else some (est.calibrateUpdate imu)

/-- `tick`, "control": the rate controller after it, the command and the shift. -/
def control (fuel : Nat) (c : FlightContext K) (rc : RcSample K) (imuCtl : ImuSample K) :
    Option (RateController K × PwmCmd K × Flt K) :=
  match c.mode with
  | .kOpenLoop =>
    if c.olFromRc then some (c.rate, QuadXMixer.write rc.throttle rc.roll rc.pitch rc.yaw)
    else some (c.rate, QuadXMixer.write c.olThr c.olRoll c.olPitch c.olYaw)
  | .kRateOnly => some (c.rate.update imuCtl (rcStickToRateSp rc))
  | .kAttitude => do
    let rateSp ← c.att.update fuel (rcStickToAttSp rc) c.est.getAttitude
    return c.rate.update imuCtl ⟨rateSp 0, rateSp 1, rateSp 2, rc.throttle⟩

/-- `tick`, the choice of the LED mode: boot latch, failsafe, arm state, calibration, in this order. -/
def ledMode (fs : FailsafeFsm) (calibrated : Bool) : LedMode :=
  if fs.bootLatched then .kError
  else if fs.active then .kFailsafe
  else if fs.armed then .kArmed
  else if !calibrated then .kCalib
  else .kBoot

/-- `ControlLoop::tick`: sensors, arm state, estimation, control, output gate and LED. -/
def tick (fuel : Nat) (c : FlightContext K) (inp : TickInput K) :
    Option (FlightContext K × TickOutput K) := do
  let h := inp.hal
  let s ← sense c.rc h
  let c := { c with rc := s.parser }
  let c := { c with fs := c.fs.update ⟨s.rc, s.imu, s.vbat, h.fsUs, c.est.calibrated, inp.armTest⟩ }
  let imuCtl := correct c.est s.imu
  let est ← estimate fuel c.est c.fs.armed s.imu imuCtl
  let c := { c with est := est }
  let (rate, pwm, shift) ← control fuel c s.rc imuCtl
  let c := { c with rate := rate, satShift := shift, tick := c.tick + 1 }
  let gate := (OutputStage.apply pwm c.fs.armed c.fs.active c.est.imuValid).2
  let led := (c.led.set (ledMode c.fs c.est.calibrated)).update (h.ledUs / 1000).toUInt32
  let c := { c with led := led }
  return (c, ⟨s, pwm, [gate, .ledSet led.mode]⟩)

end ControlLoop

end DroneMini
