import DroneMini.Lib.LittleEndian
import DroneMini.Lib.RoundHalfEven
import Mathlib.Data.Rat.Floor

/-!
# The SBUS codec of the plant

`sbus_encode` and `sbus_decode` of `plant/rc.py`, the channels of a stick and the sticks of a channel, in
exact arithmetic. The channel values are natural numbers; a list shorter than 16 is padded with zeros and
a longer one is cut. The decoder's `ValueError` is its text.
-/

namespace DroneMini

/-- The 176 bits that `sbus_encode` packs the sixteen channels into, eleven bits each. -/
def sbusBits (channels : List Nat) : Nat :=
  (List.range 16).foldl (fun bits i => bits ||| (channels.getD i 0 &&& 0x7FF) <<< (11 * i)) 0

/-- `sbus_encode`: the header, the channel bits in 22 bytes, the flags and the footer. -/
def sbusEncode (channels : List Nat) (flags : Nat) : List UInt8 :=
  let bits := sbusBits channels
  0x0F :: (List.range 22).map (fun b => UInt8.ofNat ((bits >>> (8 * b)) &&& 0xFF)) ++
    [UInt8.ofNat (flags &&& 0x0F), 0x00]

/-- `sbus_decode`: the channels and the flags byte, or the text of the exception. -/
def sbusDecode (data : List UInt8) : Except String (List Nat × UInt8) :=
  if data.length ≠ 25 then .error "sbus frame must be 25 bytes"
  else if data.getD 0 0 ≠ 0x0F then .error "bad sbus header"
  else
    let bits := LittleEndian.leNat ((data.drop 1).take 22)
    .ok ((List.range 16).map fun i => (bits >>> (11 * i)) &&& 0x7FF, data.getD 23 0)

def SBUS_MIN : Nat := 172
def SBUS_MID : Nat := 992
def SBUS_MAX : Nat := 1811

/-- The arm switch is on the fifth channel, counted from zero. -/
def ARM_CHANNEL : Nat := 4

/-- `stick_to_sbus` in exact arithmetic. The result of `round` is not negative, so the count is a natural
number. -/
def stickToSbus (v : ℚ) : Nat :=
  let v := max (-1) (min 1 v)
  if 0 ≤ v then (roundHalfEven (SBUS_MID + v * (SBUS_MAX - SBUS_MID))).toNat
  else (roundHalfEven (SBUS_MID + v * (SBUS_MID - SBUS_MIN))).toNat

/-- `throttle_to_sbus` in exact arithmetic, with the throttle clamped between zero and one. -/
def throttleToSbus (t : ℚ) : Nat :=
  let t := max 0 (min 1 t)
  (roundHalfEven (SBUS_MIN + t * (SBUS_MAX - SBUS_MIN))).toNat

/-- `sbus_to_stick` in exact arithmetic, with a slope of its own on either side of the centre. -/
def sbusToStick (v : Nat) : ℚ :=
  if SBUS_MID ≤ v then ((v : ℚ) - SBUS_MID) / (SBUS_MAX - SBUS_MID)
  else ((v : ℚ) - SBUS_MID) / (SBUS_MID - SBUS_MIN)

/-- `sbus_to_throttle` in exact arithmetic, clamped between zero and one. -/
def sbusToThrottle (v : Nat) : ℚ := max 0 (min 1 (((v : ℚ) - SBUS_MIN) / (SBUS_MAX - SBUS_MIN)))

/-- `RcScenario._base_channels`: the four sticks, the arm switch and eleven channels in the middle. -/
def baseChannels (roll pitch throttle yaw : ℚ) (arm : Bool) : List Nat :=
  List.replicate 16 0
    |>.set 0 (stickToSbus roll)
    |>.set 1 (stickToSbus pitch)
    |>.set 2 (throttleToSbus throttle)
    |>.set 3 (stickToSbus yaw)
    |>.set ARM_CHANNEL (if arm then SBUS_MAX else SBUS_MIN)

/-- An encoded frame is 25 bytes long, whatever the channels and flags are. -/
@[simp] theorem length_sbusEncode (channels : List Nat) (flags : Nat) :
    (sbusEncode channels flags).length = 25 := by
  simp [sbusEncode]

end DroneMini
