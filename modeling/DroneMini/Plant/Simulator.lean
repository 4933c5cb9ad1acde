import DroneMini.Lib.RoundHalfEven
import DroneMini.Plant.Battery
import DroneMini.Plant.Ground
import DroneMini.Plant.Runner

/-!
# The simulator

`Icm20948` of `plant/icm20948.py`, and the craft of `plant/runner.py` as it is by default: `Rk4Plant`,
`Icm20948` and `Battery` together, in exact arithmetic. The draws of the random number generator are a
parameter.
-/

namespace DroneMini

variable {K : Type} [Field K]

namespace Params

def dt : K := 0.001
def gyroFsrDps : K := 2000.0
def gyroLsbPerDps : K := 16.4
def accelFsrG : K := 16.0
def accelLsbPerG : K := 2048.0

end Params

open Params

/-- `Icm20948`: what it was built with, and how many samples it has taken. -/
structure Icm20948 (K : Type) where
  clean : Bool
  /-- `DPS_TO_RPS`. -/
  dpsToRps : K
  bias : Fin 3 → K
  /-- The draws for the rates and for the accelerations, sample by sample. -/
  gyroNormal : Nat → Fin 3 → K
  accelNormal : Nat → Fin 3 → K
  drawn : Nat

namespace Icm20948

/-- `self.gyro_lsb`: the rate of one count of the gyro. -/
def gyroLsb (icm : Icm20948 K) : K := 1.0 / gyroLsbPerDps * icm.dpsToRps

/-- `self.acc_lsb`: the acceleration of one count of the accelerometer. -/
def accLsb : K := 1.0 / accelLsbPerG * gravity

variable [LinearOrder K] [FloorRing K]

/-- `Icm20948._quantize`: rounded to whole counts and clipped to the full scale. -/
def quantize (v : Fin 3 → K) (lsb fsr : K) : Fin 3 → K := fun i => min (max (roundAt lsb (v i)) (-fsr)) fsr

/-- `Icm20948.sample`: bias and noise added, quantised, and the next draws due. -/
def sample (icm : Icm20948 K) (gyroTrue accelTrue : Fin 3 → K) : ((Fin 3 → K) × (Fin 3 → K)) × Icm20948 K :=
  let (gyro, accel) :=
    if icm.clean then (gyroTrue, accelTrue)
    else
      (fun i => gyroTrue i + icm.bias i + icm.gyroNormal icm.drawn i,
        fun i => accelTrue i + icm.accelNormal icm.drawn i)
  ((quantize gyro icm.gyroLsb (gyroFsrDps * icm.dpsToRps), quantize accel accLsb (accelFsrG * gravity)),
    { icm with drawn := icm.drawn + 1 })

end Icm20948

/-- The craft of the runner: the plant, the IMU and the battery. -/
structure Simulator (K : Type) where
  plant : PlantState K
  icm : Icm20948 K
  batt : Battery K

namespace Simulator

open Struct

/-- A duty as the plant takes it: an infinite one is clipped, and one that is not a number makes it diverge. -/
def duty : Value → Option K
  | .float bits =>
    match (Flt.ofBits bits : Flt K) with
    | .fin d => some d
    | .posInf => some 1
    | .negInf => some 0
    | .nan => none
  | .int n => some n
  | .bytes _ => none

/-- The duties of the four motors in a message, when all of them are numbers. -/
def duties (mot : List Value) : Option (Fin 4 → K) := do
  let d0 ← duty (mot.getD 0 (.int 0))
  let d1 ← duty (mot.getD 1 (.int 0))
  let d2 ← duty (mot.getD 2 (.int 0))
  let d3 ← duty (mot.getD 3 (.int 0))
  return ![d0, d1, d2, d3]

/-- `duty_sum`: the sum of the duties of a message, when all of them are numbers. -/
def dutySum (mot : List Value) : K :=
  match duties mot with
  | some d => ∑ i, d i
  | none => 0

variable [LinearOrder K] [FloorRing K]

/-- What `run` does with its plant, its IMU and its battery. -/
def craft [FloatEnv K] (bits : K → UInt32) : PlantRunner.Craft (Simulator K) K where
  sense c :=
    let (gyro, accel) := Rk4Plant.sense c.plant
    let (v, icm) := c.icm.sample gyro accel
    (v, { c with icm := icm })
  battery c mot :=
    match c.batt.step dt (dutySum mot) with
    | some (batt, v) => (v, { c with batt := batt })
    | none => (0, c)
  step c mot vbat := do
    let plant ← Rk4Plant.step c.plant dt (← duties mot) (.fin vbat)
    return { c with plant := plant }
  finite _ := true
  bits := bits

end Simulator

end DroneMini
