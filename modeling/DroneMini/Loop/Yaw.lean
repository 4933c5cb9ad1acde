import DroneMini.Loop.Sticks
import DroneMini.Lib.FltRound
import Mathlib.Tactic.Linarith

/-!
# The yaw stick in the two closed-loop modes

The rate setpoint of yaw that a tick passes to the rate controller, in rate mode and in attitude mode,
for the same frame. In rate mode it is the stick times the full rate; in attitude mode it is zero whatever
the stick and the estimate say, since the stick mapping drops yaw and its attitude gain is zero
(`AttitudeController.axis_yaw`). So the two agree when the stick is centred and only then
(`yaw_rate_iff`).
-/

namespace DroneMini

variable {K : Type} [Field K] [LinearOrder K] [FloatEnv K]

/-! ## The yaw channel -/

omit [FloatEnv K] in
/-- A value of positive magnitude after a clamp to the unit interval about zero. -/
theorem Flt.Band.clamp [IsStrictOrderedRing K] {lo hi : K} {v : Flt K} (h : Band lo hi v)
    (hlo : lo ≤ 1) :
    Band lo 1 (if 1 < (if v < -1 then -1 else v) then 1 else if v < -1 then -1 else v) := by
  have hone : ¬ (1 : K) < -1 := not_lt.mpr ((neg_nonpos.mpr zero_le_one).trans zero_le_one)
  obtain ⟨x, rfl, hx, -⟩ := h
  rw [one_def, neg_fin]
  simp only [fin_lt_fin]
  split_ifs with hbelow habove habove
  · exact absurd habove (fin_lt_fin.not.mpr hone)
  · exact ⟨-1, rfl, by rwa [abs_neg, abs_one], by rw [abs_neg, abs_one]⟩
  · exact ⟨1, rfl, by rwa [abs_one], by rw [abs_one]⟩
  · exact ⟨x, rfl, hx, abs_le.mpr ⟨not_lt.mp hbelow, not_lt.mp (fin_lt_fin.not.mp habove)⟩⟩

namespace SbusParser

/-- A channel that the parser reads is at most 2047. -/
theorem channel_le (f : List UInt8) (i : Nat) : channel f i ≤ 2047 := Nat.and_le_right

/-- The yaw of a decoded sample is channel 4 of the frame, scaled to ±1. -/
theorem decodeFrame_yaw {f : List UInt8} {out rc : RcSample K} (h : decodeFrame f out = some rc) :
    rc.yaw = norm (channel f 3) (-1) 1 := by
  unfold decodeFrame at h
  split_ifs at h
  cases h
  rfl

section Rounding
variable [RoundsToNearest K] [IsStrictOrderedRing K]

/-- The length of the half of the stick's way that a channel is on. -/
theorem span_band (v : Nat) :
    Flt.Band (819 : K) 820
      (if kSbusMid ≤ v then .ofInt (kSbusMax - kSbusMid) else .ofInt (kSbusMid - kSbusMin)) := by
  split_ifs
  · refine ⟨819, ?_, by norm_num, by norm_num⟩
    rw [Flt.ofInt_eq (by decide)]
    norm_num [kSbusMax, kSbusMid]
  · refine ⟨820, ?_, by norm_num, by norm_num⟩
    rw [Flt.ofInt_eq (by decide)]
    norm_num [kSbusMid, kSbusMin]

/-- A stick channel in the middle is read as exactly zero. -/
theorem norm_mid : (norm kSbusMid (-1) 1 : Flt K) = 0 := by
  obtain ⟨x, hx, hpos, -⟩ := span_band (K := K) kSbusMid
  have hne : x ≠ 0 := by
    rintro rfl
    norm_num at hpos
  have hmid : (.ofInt kSbusMid - .ofInt kSbusMid : Flt K) = 0 := by
    rw [Flt.ofInt_sub_ofInt (by decide) (by decide) (by decide), sub_self, Int.cast_zero]
    rfl
  have hbelow : ¬ (0 : Flt K) < -1 := Flt.fin_lt_fin.not.mpr (neg_nonpos.mpr zero_le_one).not_gt
  have habove : ¬ (1 : Flt K) < 0 := Flt.fin_lt_fin.not.mpr zero_le_one.not_gt
  unfold norm
  dsimp only
  rw [hx, hmid, Flt.zero_div_fin hne, if_neg hbelow, if_neg habove]

/-- A stick channel anywhere but in the middle is read as something off the centre, by at least half a channel
count, and at most as full deflection. -/
theorem norm_band {v : Nat} (hv : v ≤ 2047) (hmid : v ≠ kSbusMid) :
    Flt.Band (1 / 1640 : K) 1 (norm v (-1) 1) := by
  have hmidpos : kSbusMid = 992 := rfl
  have hdiff : Flt.Band (1 : K) 2047 (.ofInt v - .ofInt kSbusMid) := by
    refine ⟨((v - kSbusMid : ℤ) : K), Flt.ofInt_sub_ofInt ?_ (by decide) ?_, ?_, ?_⟩
    · rw [abs_le]
      omega
    · rw [abs_le]
      omega
    · rw [← Int.cast_abs]
      have h : (1 : ℤ) ≤ |(v : ℤ) - kSbusMid| := by
        rw [le_abs]
        omega
      exact_mod_cast h
    · rw [← Int.cast_abs]
      have h : |(v : ℤ) - kSbusMid| ≤ 2047 := by
        rw [abs_le]
        omega
      exact_mod_cast h
  have hquot := hdiff.div (span_band v) (by norm_num) (by norm_num) (by norm_num)
  exact (hquot.mono (by norm_num) le_rfl).clamp (by norm_num)

end Rounding

end SbusParser

/-! ## The setpoints -/

section Rounding
variable [RoundsToNearest K] [IsStrictOrderedRing K]

/-- The full rate, which is also the limit of the attitude controller. -/
theorem fullRate_eq : ∃ x : K, 5 / 2 ≤ x ∧ x ≤ 12 ∧ (.lit 5.236 : Flt K) = .fin x := by
  obtain ⟨x, hx, hlo, hhi⟩ := RoundsToNearest.round_normal ((5.236 : ℚ) : K) (by norm_num) (by norm_num)
  refine ⟨x, le_trans ?_ hlo, hhi.trans ?_, hx⟩
  · norm_num
  · norm_num

/-- Yaw in rate mode: the setpoint is zero when the stick is centred and only then. -/
theorem rateYaw_iff {f : List UInt8} {out rc : RcSample K}
    (hf : SbusParser.decodeFrame f out = some rc) :
    (rcStickToRateSp rc).yaw = 0 ↔ SbusParser.channel f 3 = kSbusMid := by
  show stickOrZero rc.yaw * .lit 5.236 = 0 ↔ _
  obtain ⟨x, hlo, hhi, hx⟩ := fullRate_eq (K := K)
  rw [SbusParser.decodeFrame_yaw hf, hx]
  rcases eq_or_ne (SbusParser.channel f 3) kSbusMid with hmid | hmid
  · refine iff_of_true ?_ hmid
    rw [hmid, SbusParser.norm_mid]
    exact Flt.zero_mul_fin x
  · have hyaw := SbusParser.norm_band (K := K) (SbusParser.channel_le f 3) hmid
    have hstick : stickOrZero (SbusParser.norm (SbusParser.channel f 3) (-1) 1 : Flt K) =
        SbusParser.norm (SbusParser.channel f 3) (-1) 1 := by
      obtain ⟨y, hy, -, -⟩ := hyaw
      rw [hy]
      rfl
    have hfull : Flt.Band (5 / 2) 12 (.fin x) :=
      ⟨x, rfl, hlo.trans (le_abs_self x), (abs_of_pos (by linarith)).trans_le hhi⟩
    have hrate := hyaw.mul hfull (by norm_num) (by norm_num) (by norm_num)
    rw [hstick]
    exact iff_of_false (hrate.ne_zero (by norm_num)) hmid

omit [FloatEnv K] [RoundsToNearest K] in
/-- Clamping to a symmetric range keeps zero as it is. -/
theorem Pid.clampSym_zero {l : K} (hl : 0 ≤ l) : clampSym (0 : Flt K) (.fin l) = 0 := by
  have habove : ¬ (.fin l : Flt K) < 0 := Flt.fin_lt_fin.not.mpr hl.not_gt
  have hbelow : ¬ (0 : Flt K) < -.fin l := Flt.fin_lt_fin.not.mpr (neg_nonpos.mpr hl).not_gt
  unfold clampSym
  rw [if_neg habove, if_neg hbelow]

/-- Yaw in attitude mode: without a gain the attitude controller asks for no rate. -/
theorem AttitudeController.axis_yaw {fuel : Nat} {sp est r : Flt K}
    (h : (new : AttitudeController K).axis fuel sp est 2 = some r) : r = 0 := by
  obtain ⟨x, hlo, -, hx⟩ := fullRate_eq (K := K)
  obtain ⟨e, -, hr⟩ := Option.bind_eq_some_iff.mp h
  have hr : (if (Pid.clampSym (0 * e) (.lit 5.236)).isFinite then Pid.clampSym (0 * e) (.lit 5.236)
      else 0 : Flt K) = r := Option.some.inj hr
  rw [← hr, hx]
  cases hfin : e.isFinite with
  | true =>
      obtain ⟨y, rfl⟩ := Flt.eq_fin_of_isFinite hfin
      rw [Flt.zero_mul_fin, Pid.clampSym_zero (by linarith)]
      rfl
  | false =>
      -- not a number passes the clamp and is caught behind it
      rw [Flt.zero_mul_of_not_finite hfin]
      rfl

end Rounding

namespace ControlLoop

/-- The setpoint `tick` passes to `RateController::update`; in open loop there is none. -/
def setpoint (fuel : Nat) (c : FlightContext K) (rc : RcSample K) : Option (RateSp K) :=
  match c.mode with
  | .kOpenLoop => none
  | .kRateOnly => some (rcStickToRateSp rc)
  | .kAttitude =>
    (c.att.update fuel (rcStickToAttSp rc) c.est.getAttitude).map fun rateSp =>
      ⟨rateSp 0, rateSp 1, rateSp 2, rc.throttle⟩

/-- In closed loop the control of a tick is an update of the rate controller with this setpoint. -/
theorem TickSpec.setpoint {fuel : Nat} {c c' : FlightContext K} {inp : TickInput K}
    {out : TickOutput K} (h : TickSpec fuel c inp c' out) (hmode : c.mode ≠ .kOpenLoop) :
    ∃ sp, setpoint fuel { c with est := c'.est } out.sensed.rc = some sp ∧
      c.rate.update (correct c.est out.sensed.imu) sp = (c'.rate, out.pwm, c'.satShift) := by
  have hctl := h.control
  unfold ControlLoop.control at hctl
  unfold ControlLoop.setpoint
  cases hm : c.mode with
  | kOpenLoop => exact absurd hm hmode
  | kRateOnly =>
      simp only [hm] at hctl ⊢
      exact ⟨_, rfl, Option.some.inj hctl⟩
  | kAttitude =>
      simp only [hm, Option.bind_eq_bind, Option.bind_eq_some_iff] at hctl ⊢
      obtain ⟨rateSp, hatt, hrate⟩ := hctl
      exact ⟨_, Option.map_eq_some_iff.mpr ⟨rateSp, hatt, rfl⟩, Option.some.inj hrate⟩

/-- A tick leaves the attitude controller as it was, so every reachable context has the one it started
with. -/
theorem att_of_reach {c d : FlightContext K} (h : Reach tickStep c d) : d.att = c.att := by
  refine h.invariant (I := fun d => d.att = c.att) rfl ?_
  rintro a i b o ha ⟨fuel, htick⟩
  exact (tick_spec htick).att.trans ha

variable [RoundsToNearest K] [IsStrictOrderedRing K]

/-- The yaw setpoint of the attitude mode is zero, for every frame and every estimate. -/
theorem setpoint_yaw {fuel : Nat} {c : FlightContext K} {rc : RcSample K} {sp : RateSp K}
    (hatt : c.att = .new) (hmode : c.mode = .kAttitude) (h : setpoint fuel c rc = some sp) :
    sp.yaw = 0 := by
  unfold setpoint at h
  simp only [hmode, hatt] at h
  obtain ⟨rateSp, hupdate, rfl⟩ := Option.map_eq_some_iff.mp h
  unfold AttitudeController.update at hupdate
  simp only [Option.bind_eq_bind, Option.bind_eq_some_iff] at hupdate
  obtain ⟨r, -, p, -, y, hy, hres⟩ := hupdate
  obtain rfl : ![r, p, y] = rateSp := Option.some.inj hres
  exact AttitudeController.axis_yaw hy

/-- For the same frame and the same estimate, whatever they are, both modes pass the same yaw setpoint
to the rate controller when the yaw stick is centred and only then. -/
theorem yaw_rate_iff {resetReason : UInt32} {mode : ControlMode} {c : FlightContext K}
    (hc : Reach tickStep (.boot resetReason mode) c) (est : ComplementaryEstimator K)
    {f : List UInt8} {rc : RcSample K} (hf : SbusParser.decodeFrame f .zero = some rc)
    (tUs : UInt64) {fuel : Nat} {spAtt spRate : RateSp K}
    (hatt : setpoint fuel { c with est := est, mode := .kAttitude }
      { rc with frameOk := true, tUs := tUs } = some spAtt)
    (hrate : setpoint fuel { c with est := est, mode := .kRateOnly }
      { rc with frameOk := true, tUs := tUs } = some spRate) :
    spAtt.yaw = spRate.yaw ↔ SbusParser.channel f 3 = kSbusMid := by
  have hzero : spAtt.yaw = 0 :=
    setpoint_yaw (c := { c with est := est, mode := .kAttitude }) (att_of_reach hc) rfl hatt
  obtain rfl : rcStickToRateSp { rc with frameOk := true, tUs := tUs } = spRate :=
    Option.some.inj hrate
  rw [hzero, eq_comm, ← rateYaw_iff hf]
  rfl

/-- A booted craft takes the frame with the yaw stick centred and the one with the stick full right in
either mode. -/
theorem boot_setpoint {f : List UInt8} (hf : f = armFrame ∨ f = yawFrame) :
    ∃ (rc : RcSample ℚ) (spAtt spRate : RateSp ℚ), SbusParser.decodeFrame f .zero = some rc ∧
      setpoint 0 { FlightContext.boot 1 .kAttitude with est := .new, mode := .kAttitude }
        { rc with frameOk := true, tUs := 0 } = some spAtt ∧
      setpoint 0 { FlightContext.boot 1 .kAttitude with est := .new, mode := .kRateOnly }
        { rc with frameOk := true, tUs := 0 } = some spRate := by
  have hrun : (SbusParser.decodeFrame f (.zero : RcSample ℚ)).any (fun rc =>
      (setpoint 0 { FlightContext.boot 1 .kAttitude with est := .new, mode := .kAttitude }
        { rc with frameOk := true, tUs := 0 }).isSome) = true := by
    rcases hf with rfl | rfl <;> decide +kernel
  obtain ⟨rc, hrc, hatt⟩ := (Option.any_eq_true _ _).mp hrun
  obtain ⟨spAtt, hatt⟩ := Option.isSome_iff_exists.mp hatt
  exact ⟨rc, spAtt, _, hrc, hatt, rfl⟩

/-- With the stick in the middle, the two modes give the same yaw setpoint: zero. -/
theorem yaw_rate_iff_centred :
    ∃ (rc : RcSample ℚ) (spAtt spRate : RateSp ℚ), SbusParser.decodeFrame armFrame .zero = some rc ∧
      setpoint 0 { FlightContext.boot 1 .kAttitude with est := .new, mode := .kAttitude }
        { rc with frameOk := true, tUs := 0 } = some spAtt ∧
      setpoint 0 { FlightContext.boot 1 .kAttitude with est := .new, mode := .kRateOnly }
        { rc with frameOk := true, tUs := 0 } = some spRate ∧ spAtt.yaw = spRate.yaw := by
  obtain ⟨rc, spAtt, spRate, hrc, hatt, hrate⟩ := boot_setpoint (.inl rfl)
  have hcentred : SbusParser.channel armFrame 3 = kSbusMid := by decide
  exact ⟨rc, spAtt, spRate, hrc, hatt, hrate,
    (yaw_rate_iff ⟨[], .nil _⟩ .new hrc 0 hatt hrate).mpr hcentred⟩

/-- With the stick full right the attitude mode asks for no yaw rate. -/
theorem yaw_stick_dropped :
    ¬ ∀ (resetReason : UInt32) (mode : ControlMode) (c : FlightContext ℚ),
      Reach tickStep (.boot resetReason mode) c →
      ∀ (est : ComplementaryEstimator ℚ) (f : List UInt8) (rc : RcSample ℚ),
      SbusParser.decodeFrame f .zero = some rc →
      ∀ (tUs : UInt64) (fuel : Nat) (spAtt spRate : RateSp ℚ),
      setpoint fuel { c with est := est, mode := .kAttitude }
        { rc with frameOk := true, tUs := tUs } = some spAtt →
      setpoint fuel { c with est := est, mode := .kRateOnly }
        { rc with frameOk := true, tUs := tUs } = some spRate → spAtt.yaw = spRate.yaw := by
  intro h
  obtain ⟨rc, spAtt, spRate, hrc, hatt, hrate⟩ := boot_setpoint (.inr rfl)
  have hsame := h 1 .kAttitude _ ⟨[], .nil _⟩ .new _ rc hrc 0 0 spAtt spRate hatt hrate
  have hoff : ¬ SbusParser.channel yawFrame 3 = kSbusMid := by decide
  have hyaw : spAtt.yaw = 0 := setpoint_yaw rfl rfl hatt
  cases hrate
  exact hoff ((rateYaw_iff hrc).mp (hsame.symm.trans hyaw))

end ControlLoop

end DroneMini
