import DroneMini.Flight.Ports

/-!
# The quad-X mixer and the output gate

`QuadXMixer` of `flight/mixer.cpp` and `OutputStage` of `flight/output.cpp`. Neither has state.
-/

namespace DroneMini

variable {K : Type} [Field K] [LinearOrder K]

namespace QuadXMixer

/-- `QuadXMixer::clampf`: a value that is not finite becomes zero, any other one is clamped, below first and
above second. -/
def clampf (v lo hi : Flt K) : Flt K :=
  if v.isFinite = false then 0 else if v < lo then lo else if hi < v then hi else v

variable [FloatEnv K]

/-- `QuadXMixer::desaturate`: the channels after a common shift into the range, and the shift. -/
def desaturate (m : Fin 4 → Flt K) : (Fin 4 → Flt K) × Flt K :=
  let pick (better : Flt K → Flt K → Bool) : Flt K :=
    [m 1, m 2, m 3].foldl (fun best v => if better v best then v else best) (m 0)
  let hi := pick fun v best => decide (best < v)
  let lo := pick fun v best => decide (v < best)
  let shift : Flt K := if 1 < hi then 0 - (hi - 1) else 0
  let shift := if lo + shift < 0 then shift - (lo + shift) else shift
  (fun i => m i + shift, shift)

/-- `QuadXMixer::write`: the command to the motors and the shift that desaturation made. -/
def write (thr roll pitch yaw : Flt K) : PwmCmd K × Flt K :=
  let t := clampf thr 0 1
  let r := clampf roll (-1) 1
  let p := clampf pitch (-1) 1
  let y := clampf yaw (-1) 1
  let m : Fin 4 → Flt K :=
    ![t - r + p - y,   -- Mot1, GPIO0
      t - r - p + y,   -- Mot2, GPIO1
      t + r + p + y,   -- Mot3, GPIO2
      t + r - p - y]   -- Mot4, GPIO3
  let (m, shift) := desaturate m
  (⟨fun i => clampf (m i) 0 1⟩, shift)

end QuadXMixer

namespace OutputStage

/-- The range check that `OutputStage::apply` makes on each channel of a command. -/
def inRange (v : Flt K) : Bool := v.isFinite && !decide (v < 0) && !decide (1 < v)

/-- `OutputStage::apply`: whether channels were written, and the call to the HAL. -/
def apply (cmd : PwmCmd K) (armed failsafe imuValid : Bool) : Bool × HalCall K :=
  if !armed || failsafe || !imuValid then (false, .pwmOff)
  else if (List.finRange 4).all fun i => inRange (cmd.mot i) then (true, .pwmWrite cmd)
  else (false, .pwmOff)

end OutputStage

end DroneMini
