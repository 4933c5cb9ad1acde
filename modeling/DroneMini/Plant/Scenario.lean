import DroneMini.Sbus.Codec
import DroneMini.Sbus.Quantise

/-!
# The stick scenarios

The scenarios of `plant/rc.py`: what each commands (`_cmd`) and the frame it delivers (`_frame`), in exact
arithmetic, and the table of `make_scenario`. Every scenario delivers the frame of its own command with the
arm switch on, save that `rc_loss` delivers none and `rx_failsafe` and `frame_lost` raise a flag, all three
from 3 s on (`frame_of_makeScenario`). Every delivered frame is accepted by the parser
(`acceptable_of_makeScenario`).
-/

namespace DroneMini

def FLAG_FRAME_LOST : Nat := 0x04
def FLAG_FAILSAFE : Nat := 0x08

/-- What a scenario commands in a tick: `(roll, pitch, yaw, throttle)`. -/
structure Command where
  roll : ℚ
  pitch : ℚ
  yaw : ℚ
  throttle : ℚ
  deriving DecidableEq

/-- The four values of a command are within the ranges of the sticks. -/
structure Command.InRange (c : Command) : Prop where
  roll : -1 ≤ c.roll ∧ c.roll ≤ 1
  pitch : -1 ≤ c.pitch ∧ c.pitch ≤ 1
  yaw : -1 ≤ c.yaw ∧ c.yaw ≤ 1
  throttle : 0 ≤ c.throttle ∧ c.throttle ≤ 1

/-- The channels of a command, with the arm switch on. -/
def Command.channels (c : Command) : List Nat := baseChannels c.roll c.pitch c.throttle c.yaw true

/-- `RcScenario`: its `_cmd` and its `_frame`, as functions of the tick. -/
structure RcScenario where
  cmd : Nat → Command
  frame : Nat → Option (List Nat × Nat)

namespace RcScenario

/-- `tick * 0.001`, the time of a tick in seconds. -/
def seconds (tick : Nat) : ℚ := tick * 0.001

/-- `_Hover`: a constant command. The frame is that of the base class. -/
def hover : RcScenario where
  cmd _ := ⟨0, 0, 0, 0.5⟩
  frame _ := some (baseChannels 0 0 0.5 0 true, 0)

/-- `_Steps._cmd`: every two seconds another of a centred, a roll and a pitch command. -/
def stepsCmd (tick : Nat) : Command :=
  let period := 2000  -- 2 s
  let phase := tick / period % 3
  if phase = 1 then ⟨0.3, 0, 0, 0.5⟩
  else if phase = 2 then ⟨0, 0.3, 0, 0.5⟩
  else ⟨0, 0, 0, 0.5⟩

/-- `_Steps`: the frame carries the command. -/
def steps : RcScenario where
  cmd := stepsCmd
  frame tick :=
    let c := stepsCmd tick
    some (baseChannels c.roll c.pitch c.throttle c.yaw true, 0)

/-- `_Cut._cmd`: half throttle, and no throttle from three seconds on. -/
def cutCmd (tick : Nat) : Command := if 3 ≤ seconds tick then ⟨0, 0, 0, 0⟩ else ⟨0, 0, 0, 0.5⟩

/-- `_Cut`: the frame carries the command. -/
def cut : RcScenario where
  cmd := cutCmd
  frame tick :=
    let c := cutCmd tick
    some (baseChannels c.roll c.pitch c.throttle c.yaw true, 0)

/-- `_RxFailsafe`: from three seconds on every frame carries the failsafe flag. -/
def rxFailsafe : RcScenario where
  cmd _ := ⟨0, 0, 0, 0.5⟩
  frame tick :=
    let ch := baseChannels 0 0 0.5 0 true
    if 3 ≤ seconds tick then some (ch, FLAG_FAILSAFE) else some (ch, 0)

/-- `_FrameLost`: from three seconds on every frame carries the frame-lost flag. -/
def frameLost : RcScenario where
  cmd _ := ⟨0, 0, 0, 0.5⟩
  frame tick :=
    let ch := baseChannels 0 0 0.5 0 true
    if 3 ≤ seconds tick then some (ch, FLAG_FRAME_LOST) else some (ch, 0)

/-- `_RateStep` with its class attributes: closed throttle to arm, then `thr`, and a step on one axis after a
second. -/
def rateStep (axis : Nat) (amp thr : ℚ) : RcScenario where
  cmd tick :=
    if seconds tick < 0.4 then ⟨0, 0, 0, 0.02⟩
    else
      let v := if 1 ≤ seconds tick then amp else 0
      if axis = 0 then ⟨v, 0, 0, thr⟩ else if axis = 1 then ⟨0, v, 0, thr⟩ else ⟨0, 0, v, thr⟩
  frame tick :=
    if seconds tick < 0.4 then some (baseChannels 0 0 0.02 0 true, 0)
    else
      let v := if 1 ≤ seconds tick then amp else 0
      let sticks := [0, 0, 0].set axis v
      some (baseChannels (sticks.getD 0 0) (sticks.getD 1 0) thr (sticks.getD 2 0) true, 0)

/-- `_StickStep`, whose `thr` is 0.52: the roll stick is moved for half a second. -/
def stickStep : RcScenario where
  cmd tick :=
    if seconds tick < 0.4 then ⟨0, 0, 0, 0.02⟩
    else ⟨if 2 ≤ seconds tick ∧ seconds tick < 2.5 then 0.05 else 0, 0, 0, 0.52⟩
  frame tick :=
    if seconds tick < 0.4 then some (baseChannels 0 0 0.02 0 true, 0)
    else
      let roll := if 2 ≤ seconds tick ∧ seconds tick < 2.5 then 0.05 else 0
      some (baseChannels roll 0 0.52 0 true, 0)

/-- The throttle of `_HoverSweep` from 0.4 s on: five levels about the nominal one, in turn. -/
def sweepThrottle (tick : Nat) : ℚ :=
  let factors : List ℚ := [0.8, 0.9, 1, 1.1, 1.2]
  let idx := (⌊(seconds tick - 0.4) / 1.5⌋ % factors.length).toNat
  min 1 (factors.getD idx 0 * 0.5)

/-- `_HoverSweep`: closed throttle to arm, and then the sweep. -/
def hoverSweep : RcScenario where
  cmd tick := if seconds tick < 0.4 then ⟨0, 0, 0, 0.02⟩ else ⟨0, 0, 0, sweepThrottle tick⟩
  frame tick :=
    if seconds tick < 0.4 then some (baseChannels 0 0 0.02 0 true, 0)
    else some (baseChannels 0 0 (sweepThrottle tick) 0 true, 0)

/-- `_RcLoss`, whose `thr` is 0.52: no frames at all from three seconds on. -/
def rcLoss : RcScenario where
  cmd tick := ⟨0, 0, 0, if 0.4 ≤ seconds tick then 0.52 else 0.02⟩
  frame tick :=
    if seconds tick < 0.4 then some (baseChannels 0 0 0.02 0 true, 0)
    else if 3 ≤ seconds tick then none
    else some (baseChannels 0 0 0.52 0 true, 0)

end RcScenario

open RcScenario in
/-- `make_scenario`; an unknown name raises a `ValueError` with this text. -/
def makeScenario (name : String) : Except String RcScenario :=
  match name with
  | "hover" => .ok hover
  | "steps" => .ok steps
  | "cut" => .ok cut
  | "rc_loss" => .ok rcLoss
  | "rx_failsafe" => .ok rxFailsafe
  | "frame_lost" => .ok frameLost
  | "rate_step_roll" => .ok (rateStep 0 0.25 0.55)
  | "rate_step_pitch" => .ok (rateStep 1 0.25 0.55)
  | "rate_step_yaw" => .ok (rateStep 2 0.5 0.55)
  | "rate_hover" => .ok (rateStep 0 0 0.55)
  | "att_hover" => .ok (rateStep 0 0 0.52)
  | "stick_step" => .ok stickStep
  | "hover_sweep" => .ok hoverSweep
  | "saturation" => .ok (rateStep 0 1 0.30)
  | _ => .error s!"unknown scenario: {name}"

namespace RcScenario

/-! ## The frame of a command -/

/-- The flag byte that the named scenario sends at a tick; two of the scenarios ever set a flag. -/
def flagsOf (name : String) (tick : Nat) : Nat :=
  if name = "rx_failsafe" ∧ 3000 ≤ tick then FLAG_FAILSAFE
  else if name = "frame_lost" ∧ 3000 ≤ tick then FLAG_FRAME_LOST
  else 0

/-- Three seconds are reached at tick 3000. -/
theorem three_le_seconds (tick : Nat) : 3 ≤ seconds tick ↔ 3000 ≤ tick := by
  have hcast : (3000 : ℚ) ≤ tick ↔ 3000 ≤ tick := by exact_mod_cast Iff.rfl
  rw [← hcast, seconds]
  constructor
  · intro h
    linarith
  · intro h
    linarith

/-- Four tenths of a second are reached at tick 400. -/
theorem seconds_lt (tick : Nat) : seconds tick < 0.4 ↔ tick < 400 := by
  have hcast : (tick : ℚ) < 400 ↔ tick < 400 := by exact_mod_cast Iff.rfl
  rw [← hcast, seconds]
  constructor
  · intro h
    linarith
  · intro h
    linarith

/-- A rate step delivers its command in a frame at every tick, without flags. -/
theorem rateStep_frame {axis : Nat} (haxis : axis < 3) (amp thr : ℚ) (k : Nat) :
    (rateStep axis amp thr).frame k = some (((rateStep axis amp thr).cmd k).channels, 0) := by
  unfold rateStep
  dsimp only
  generalize (if 1 ≤ seconds k then amp else 0) = v
  split_ifs with hearly hroll hpitch
  · rfl
  · subst hroll
    rfl
  · subst hpitch
    rfl
  · obtain rfl : axis = 2 := by omega
    rfl

/-- A stick step delivers its command in a frame at every tick, without flags. -/
theorem stickStep_frame (k : Nat) : stickStep.frame k = some ((stickStep.cmd k).channels, 0) := by
  unfold stickStep
  dsimp only
  split_ifs <;> rfl

/-- A throttle sweep delivers its command in a frame at every tick, without flags. -/
theorem hoverSweep_frame (k : Nat) : hoverSweep.frame k = some ((hoverSweep.cmd k).channels, 0) := by
  unfold hoverSweep
  dsimp only
  split_ifs <;> rfl

/-- A lost link delivers its command for three seconds, and no frame after that. -/
theorem rcLoss_frame (k : Nat) :
    rcLoss.frame k = if 3000 ≤ k then none else some ((rcLoss.cmd k).channels, 0) := by
  have hlate : 0.4 ≤ seconds k ↔ ¬ k < 400 := by rw [← not_lt, seconds_lt]
  unfold rcLoss
  simp only [three_le_seconds, seconds_lt, hlate]
  split_ifs with hearly hlost
  · omega
  · rfl
  · rfl
  · rfl

/-- **The frame of a tick.** Every scenario delivers its command, save that `rc_loss` delivers nothing from 3 s
on. -/
theorem frame_of_makeScenario {name : String} {sc : RcScenario} (h : makeScenario name = .ok sc) (k : Nat) :
    sc.frame k = if name = "rc_loss" ∧ 3000 ≤ k then none
      else some ((sc.cmd k).channels, flagsOf name k) := by
  unfold makeScenario at h
  split at h <;> cases h
  case h_4 => simp [rcLoss_frame, flagsOf]
  case h_5 | h_6 =>
    simp only [rxFailsafe, frameLost, three_le_seconds, flagsOf]
    split_ifs <;> simp_all [Command.channels]
  case h_7 | h_8 | h_9 | h_10 | h_11 | h_14 => simp [rateStep_frame, flagsOf]
  case h_12 => simp [stickStep_frame, flagsOf]
  case h_13 => simp [hoverSweep_frame, flagsOf]
  all_goals
    simp only [flagsOf]
    rfl

/-! ## The parser and the frames of a scenario -/

/-- The flags of a scenario fit into the flag byte of a frame. -/
theorem flagsOf_lt (name : String) (k : Nat) : flagsOf name k < 16 := by
  unfold flagsOf
  split_ifs <;> decide

/-- The throttle of the sweep stays between zero and one. -/
theorem sweepThrottle_mem (k : Nat) : 0 ≤ sweepThrottle k ∧ sweepThrottle k ≤ 1 := by
  have hfactor (i : Nat) : (0 : ℚ) ≤ [0.8, 0.9, 1, 1.1, 1.2].getD i 0 := by
    match i with
    | 0 | 1 | 2 | 3 | 4 => norm_num
    | i + 5 => exact le_refl 0
  exact ⟨le_min zero_le_one (mul_nonneg (hfactor _) (by norm_num)), min_le_left _ _⟩

/-- Every command of a scenario is within the ranges of the sticks. -/
theorem inRange_of_makeScenario {name : String} {sc : RcScenario} (h : makeScenario name = .ok sc) (k : Nat) :
    (sc.cmd k).InRange := by
  unfold makeScenario at h
  split at h <;> cases h
  case h_2 =>
    show (stepsCmd k).InRange
    unfold stepsCmd
    dsimp only
    split_ifs <;> constructor <;> norm_num
  case h_3 =>
    show (cutCmd k).InRange
    unfold cutCmd
    split_ifs <;> constructor <;> norm_num
  case h_4 =>
    unfold rcLoss
    dsimp only
    split_ifs <;> constructor <;> norm_num
  case h_7 | h_8 | h_9 | h_10 | h_11 | h_14 =>
    unfold rateStep
    dsimp only
    split_ifs <;> constructor <;> norm_num
  case h_12 =>
    unfold stickStep
    dsimp only
    split_ifs <;> constructor <;> norm_num
  case h_13 =>
    have hmem := sweepThrottle_mem k
    unfold hoverSweep
    dsimp only
    split_ifs
    · constructor <;> norm_num
    · exact ⟨by norm_num, by norm_num, by norm_num, hmem⟩
  all_goals exact ⟨by norm_num [hover, rxFailsafe, frameLost], by norm_num [hover, rxFailsafe, frameLost],
    by norm_num [hover, rxFailsafe, frameLost], by norm_num [hover, rxFailsafe, frameLost]⟩

end RcScenario

namespace Command

variable (c : Command)

/-- The sixteen channels of a command, each of 11 bits. -/
theorem length_channels : c.channels.length = 16 := by
  simp [channels, baseChannels]

theorem channels_le : ∀ n ∈ c.channels, n ≤ 2047 := baseChannels_le c.roll c.pitch c.throttle c.yaw true

/-- The plant and the firmware decode the channels of a command. -/
theorem decoded (flags : Nat) : SbusParser.channels (sbusEncode c.channels flags) = c.channels := by
  rw [channels_sbusEncode c.length_channels.le c.channels_le, c.length_channels]
  simp

/-- The parser accepts the frame of a command: a stick is never 0 counts, as the spare channels are. -/
theorem acceptable {flags : Nat} (hflags : flags < 16) :
    SbusParser.acceptable (sbusEncode c.channels flags) = true := by
  have hstuck : SbusParser.stuck (sbusEncode c.channels flags) = false := by
    rw [← Bool.not_eq_true, stuck_iff, c.decoded]
    intro hall
    have hroll : stickToSbus c.roll = 0 := by
      apply hall <;> simp [channels, baseChannels, ARM_CHANNEL]
    have hmin := (stickToSbus_mem c.roll).1
    rw [hroll] at hmin
    exact absurd hmin (by decide)
  have hbyte : (sbusEncode c.channels flags).getD 23 0 = UInt8.ofNat (flags &&& 0x0F) := rfl
  have hnibble : ∀ n < 16, UInt8.ofNat (n &&& 0x0F) &&& 0xF0 = 0 := by decide
  have hhead : (sbusEncode c.channels flags).getD 0 0 = kSbusHeader := rfl
  rw [SbusParser.acceptable, hstuck, hhead, hbyte, hnibble flags hflags]
  rfl

end Command

/-- The parser accepts every frame that one of the scenarios delivers. -/
theorem RcScenario.acceptable_of_makeScenario {name : String} {sc : RcScenario}
    (h : makeScenario name = .ok sc) {k : Nat} {f : List Nat × Nat} (hf : sc.frame k = some f) :
    SbusParser.acceptable (sbusEncode f.1 f.2) = true := by
  rw [frame_of_makeScenario h] at hf
  split_ifs at hf
  cases hf
  exact (sc.cmd k).acceptable (flagsOf_lt name k)

end DroneMini
