import DroneMini.Lib.Flt
import Mathlib.Data.Fin.VecNotation

/-!
# The port interfaces

The POD types of `flight/ports.hpp` and, for `IHal`, what one control tick exchanges with it. A tick
reads the IMU, the RC bytes, the clock (three times: to stamp the RC sample, for the failsafe
machine and for the LED) and the battery; `HalReads` holds the answers. It writes through `pwmWrite`,
`pwmOff` and `ledSet`; `HalCall` is such a call. `init`, `rcRead` and `log` are not used by a tick.
-/

namespace DroneMini

/-- The three axes have a first one, which the literals of `Fin 3` need. -/
instance instNeZeroAxes : NeZero 3 := ⟨Nat.succ_ne_zero 2⟩

/-- The four motors have a first one, which the literals of `Fin 4` need. -/
instance instNeZeroMotors : NeZero 4 := ⟨Nat.succ_ne_zero 3⟩

variable {K : Type}

/-- `ImuSample`: the rates, the specific force and the magnetic field on the three axes, and whether they are
valid. -/
structure ImuSample (K : Type) where
  gyroRps : Fin 3 → Flt K
  accelMps2 : Fin 3 → Flt K
  magUT : Fin 3 → Flt K
  tempC : Flt K
  tUs : UInt64
  valid : Bool

/-- `RcSample`: the sticks, the arm switch and what the receiver and the parser say about the frame. -/
structure RcSample (K : Type) where
  roll : Flt K
  pitch : Flt K
  yaw : Flt K
  throttle : Flt K
  armedSwitch : Bool
  frameOk : Bool
  rxFailsafe : Bool
  frameLost : Bool
  tUs : UInt64

/-- `PwmCmd`: the duties of the motors Mot1 to Mot4. -/
structure PwmCmd (K : Type) where
  mot : Fin 4 → Flt K

/-- `RateSp`: the rates that are asked for on the three axes, and the throttle. -/
structure RateSp (K : Type) where
  roll : Flt K
  pitch : Flt K
  yaw : Flt K
  throttle : Flt K

/-- `LedMode`: what the LED shows. -/
inductive LedMode where
  | kBoot
  | kCalib
  | kArmed
  | kError
  | kFailsafe
  deriving DecidableEq, Repr

/-- The value-initialised sample `RcSample{}`, which a tick without RC bytes starts from. -/
def RcSample.zero [Field K] : RcSample K where
  roll := 0
  pitch := 0
  yaw := 0
  throttle := 0
  armedSwitch := false
  frameOk := false
  rxFailsafe := false
  frameLost := false
  tUs := 0

/-- What the HAL answers during one tick. `imuRead` and `vbatRead` return a flag beside the value
they leave in their argument; `rcRawRead` returns the bytes it copied, or a negative count
(`none`). -/
structure HalReads (K : Type) where
  imuOk : Bool
  imu : ImuSample K
  rcRaw : Option (List UInt8)
  rcUs : UInt64
  vbatOk : Bool
  vbat : Flt K
  fsUs : UInt64
  ledUs : UInt64

/-- The bytes `rcRawRead` copied; a negative count reads as none. -/
def HalReads.raw (h : HalReads K) : List UInt8 := h.rcRaw.getD []

/-- A call that a control tick makes to the HAL. The source makes three kinds of them. -/
inductive HalCall (K : Type) where
  | pwmWrite (out : PwmCmd K)
  | pwmOff
  | ledSet (mode : LedMode)

/-- The two calls that drive the motors: the one that writes duties and the one that turns them off. -/
def HalCall.isPwm : HalCall K → Bool
  | .pwmWrite _ | .pwmOff => true
  | .ledSet _ => false

end DroneMini
