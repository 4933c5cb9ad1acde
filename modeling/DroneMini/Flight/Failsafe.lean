import DroneMini.Flight.Ports

/-!
# The arm state machine and the failsafe latches

`FailsafeFsm` of `flight/failsafe.cpp`. `update` is one function in the source; here each of its
commented sections (liveness, IMU validity, battery, latch, arm / disarm) is a definition of its own
and `update` runs them in the order of the source. `good_frames_`, `lost_count_` and
`imu_bad_count_` are natural numbers; the `int` they are in the source only matters for how far
`good_frames_` can count.
-/

namespace DroneMini

/-! ## Constants of `failsafe.hpp` -/

def kReasonNone : UInt32 := 0
def kReasonRcTimeout : UInt32 := (1 : UInt32) <<< 0
def kReasonRcFlag : UInt32 := (1 : UInt32) <<< 1
def kReasonImuInvalid : UInt32 := (1 : UInt32) <<< 2
def kReasonVbatCrit : UInt32 := (1 : UInt32) <<< 3
def kReasonBootLatch : UInt32 := (1 : UInt32) <<< 4

def kResetIntWdt : UInt32 := 5
def kResetTaskWdt : UInt32 := 6
def kResetWdt : UInt32 := 7
def kResetBrownout : UInt32 := 9

def kRcTimeoutUs : UInt64 := 100000
def kRcFrameLostN : Nat := 3
def kArmMinGoodFrames : Nat := 10
def kImuInvalidDebounce : Nat := 5

/-- `FailsafeFsm`: the arm state, the latches, and the counters and times from which the faults are judged. -/
structure FailsafeFsm where
  armed : Bool := false
  active : Bool := false
  latched : Bool := false
  bootLatched : Bool := false
  vbatNan : Bool := false
  armTestPrev : Bool := false
  reason : UInt32 := 0
  lastGoodUs : UInt64 := 0
  haveFrame : Bool := false
  goodFrames : Nat := 0
  lostCount : Nat := 0
  imuBadCount : Nat := 0
  deriving DecidableEq

/-- The arguments of `FailsafeFsm::update`: the samples of a tick, its time, and the two flags from
outside. -/
structure UpdateArgs (K : Type) where
  rc : RcSample K
  imu : ImuSample K
  vbat : Flt K
  nowUs : UInt64
  calibrated : Bool
  armTest : Bool

namespace FailsafeFsm

/-- `FailsafeFsm::outputZero`: the motors are to be off because the craft is disarmed or a failsafe is
active. -/
def outputZero (fs : FailsafeFsm) : Bool := !fs.armed || fs.active

/-- `FailsafeFsm::reset`: every variable takes its initial value. -/
def reset : FailsafeFsm := {}

/-- The reset reasons that stand for a fault: a brown-out and the three watchdogs. -/
def afterFault (resetReason : UInt32) : Bool :=
  resetReason == kResetBrownout || resetReason == kResetIntWdt || resetReason == kResetTaskWdt ||
    resetReason == kResetWdt

/-- `FailsafeFsm::boot`: a reset, with the boot latch set when the reset reason stands for a fault. -/
def boot (resetReason : UInt32) : FailsafeFsm :=
  if afterFault resetReason then
    { reset with bootLatched := true, latched := true, reason := reset.reason ||| kReasonBootLatch }
  else reset

variable {K : Type} (fs : FailsafeFsm)

/-- Only a fresh frame counts: `t_us` is past that of the last one. -/
def fresh (rc : RcSample K) : Bool :=
  rc.frameOk && (!fs.haveFrame || decide (fs.lastGoodUs < rc.tUs))

/-- `update`, "liveness from virtual time": a fresh frame is counted and its time kept, any other tick clears
the count of good frames. -/
def liveness (rc : RcSample K) : FailsafeFsm :=
  if fs.fresh rc then
    { fs with
      goodFrames := fs.goodFrames + 1
      lastGoodUs := rc.tUs
      haveFrame := true
      lostCount := 0 }
  else
    { fs with
      goodFrames := 0
      lostCount :=
        if rc.frameLost then
          if kRcFrameLostN ≤ fs.lostCount + 1 then kRcFrameLostN else fs.lostCount + 1
        else fs.lostCount }

/-- The timeout test; the difference of the two times is unsigned. -/
def rcTimeout (nowUs : UInt64) : Bool :=
  fs.haveFrame && decide (kRcTimeoutUs ≤ nowUs - fs.lastGoodUs)

/-- A sample no consumer may use: flagged invalid, or with a component that is not finite. -/
def imuBad (imu : ImuSample K) : Bool :=
  !imu.valid || !(imu.gyroRps 0).isFinite || !(imu.gyroRps 1).isFinite ||
    !(imu.gyroRps 2).isFinite || !(imu.accelMps2 0).isFinite || !(imu.accelMps2 1).isFinite ||
    !(imu.accelMps2 2).isFinite

/-- `update`, "IMU validity (debounced)": bad samples in a row are counted up to the limit, a good one clears
the count. -/
def imuDebounce (imu : ImuSample K) : FailsafeFsm :=
  if imuBad imu then
    if fs.imuBadCount < kImuInvalidDebounce then { fs with imuBadCount := fs.imuBadCount + 1 }
    else fs
  else { fs with imuBadCount := 0 }

/-- The debounced IMU judgement: the last `kImuInvalidDebounce` samples were all bad. -/
def imuInvalid : Bool := decide (kImuInvalidDebounce ≤ fs.imuBadCount)

/-- The bits that the fault conditions of one update set in `reason_`, one for each condition. -/
def faultBits (rcTimeout rxFailsafe imuInvalid vbatCrit : Bool) : UInt32 :=
  let r := kReasonNone
  let r := if rcTimeout then r ||| kReasonRcTimeout else r
  let r := if rxFailsafe then r ||| kReasonRcFlag else r
  let r := if imuInvalid then r ||| kReasonImuInvalid else r
  if vbatCrit then r ||| kReasonVbatCrit else r

/-- `update`, "latch": a fault sets the failsafe and its latch and adds its bits to the reason. -/
def latch (r : UInt32) : FailsafeFsm :=
  if r ≠ kReasonNone then
    { fs with latched := true, active := true, reason := fs.reason ||| r }
  else fs

section Update
variable [Field K] [LinearOrder K] [FloatEnv K]

def kVbatCrit : Flt K := .lit 3.3
def kArmThrottleMax : Flt K := .lit 0.05

/-- `update`, "battery": a reading that is not finite is remembered, and is no fault. -/
def battery (vbat : Flt K) : FailsafeFsm := { fs with vbatNan := !vbat.isFinite }

/-- The battery test: only a finite voltage can be critical. -/
def vbatCrit (vbat : Flt K) : Bool := vbat.isFinite && decide (vbat < kVbatCrit)

/-- `update`, "arm / disarm": an edge of `arm_test` clears the latches and arms, otherwise the sticks arm and
disarm. -/
def arm (rc : RcSample K) (imuInvalid calibrated armTest : Bool) : FailsafeFsm :=
  let fs :=
    if armTest then
      if !fs.armTestPrev then  -- explicit arm request clears the latch
        { fs with
          latched := false
          bootLatched := false
          active := false
          reason := kReasonNone
          armed := true }
      else { fs with armed := fs.armed && !fs.latched }
    else if fs.armed then
      { fs with
        armed := rc.frameOk && rc.armedSwitch && !fs.latched && !fs.bootLatched && !imuInvalid }
    else
      { fs with
        armed := rc.frameOk && rc.armedSwitch && calibrated && !fs.latched && !fs.bootLatched &&
          decide (kArmMinGoodFrames ≤ fs.goodFrames) && decide (rc.throttle ≤ kArmThrottleMax) &&
          !imuInvalid }
  let fs := if fs.active then { fs with armed := false } else fs
  { fs with armTestPrev := armTest }

/-- `FailsafeFsm::update`: liveness, the judgements of the IMU and the battery, the faults and then the arm
state. -/
def update (u : UpdateArgs K) : FailsafeFsm :=
  let fs := fs.liveness u.rc
  let rcTimeout := fs.rcTimeout u.nowUs
  let fs := fs.imuDebounce u.imu
  let imuInvalid := fs.imuInvalid
  let fs := fs.battery u.vbat
  let fs := fs.latch (faultBits rcTimeout u.rc.rxFailsafe imuInvalid (vbatCrit u.vbat))
  fs.arm u.rc imuInvalid u.calibrated u.armTest

end Update

end FailsafeFsm

end DroneMini
