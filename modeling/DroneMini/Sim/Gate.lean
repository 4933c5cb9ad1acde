import DroneMini.Sim.Runner
import DroneMini.Loop.Latch
import DroneMini.Lib.FltRat

/-!
# What a reply says about the motors

Every reply of the runner carries motor values in the unit interval, and they are zero unless the same
reply says that the craft is armed, without a failsafe and with a valid IMU. Then they are the mixer's
output (`fw_out_gated`). The mixer clamps its output, so the range check of the output gate never trips
(`apply_write`).
-/

namespace DroneMini

variable {K : Type} [Field K] [LinearOrder K]

/-! ## The mixer and the gate -/

/-- A duty is a number of the unit interval; neither an infinity nor a NaN is one. -/
def Duty (v : Flt K) : Prop := ∃ x : K, v = .fin x ∧ 0 ≤ x ∧ x ≤ 1

section Ordered
variable [IsStrictOrderedRing K]

/-- Zero, which a motor at rest is commanded, is a duty. -/
theorem duty_zero : Duty (0 : Flt K) := ⟨0, rfl, le_refl 0, zero_le_one⟩

/-- What `clampf` brings into the unit interval is a duty, whatever it was before. -/
theorem duty_clampf (v : Flt K) : Duty (QuadXMixer.clampf v 0 1) := by
  unfold QuadXMixer.clampf
  cases v with
  | fin x =>
      simp only [Flt.isFinite_fin, Flt.zero_def, Flt.one_def, Flt.fin_lt_fin, Bool.true_eq_false, if_false]
      split_ifs with hlo hhi
      · exact duty_zero
      · exact ⟨1, rfl, zero_le_one, le_refl 1⟩
      · exact ⟨x, rfl, not_lt.mp hlo, not_lt.mp hhi⟩
  | posInf => exact duty_zero
  | negInf => exact duty_zero
  | nan => exact duty_zero

variable [FloatEnv K]

/-- The mixer writes duties to all four motors, for any throttle and any corrections. -/
theorem duty_write (thr roll pitch yaw : Flt K) (i : Fin 4) :
    Duty ((QuadXMixer.write thr roll pitch yaw).1.mot i) :=
  duty_clampf _

omit [IsStrictOrderedRing K] [FloatEnv K] in
/-- A duty passes the range check of the output stage. -/
theorem inRange_of_duty {v : Flt K} (h : Duty v) : OutputStage.inRange v = true := by
  obtain ⟨x, rfl, h0, h1⟩ := h
  simp [OutputStage.inRange, h0, h1]

/-- **The range check of the output stage never trips on what the mixer writes**, so the stage only gates by
the arm state, the failsafe and the IMU. -/
theorem apply_write (thr roll pitch yaw : Flt K) (armed failsafe imuValid : Bool) :
    OutputStage.apply (QuadXMixer.write thr roll pitch yaw).1 armed failsafe imuValid =
      if !armed || failsafe || !imuValid then (false, .pwmOff)
      else (true, .pwmWrite (QuadXMixer.write thr roll pitch yaw).1) := by
  have hall : ((List.finRange 4).all fun i =>
      OutputStage.inRange ((QuadXMixer.write thr roll pitch yaw).1.mot i)) = true :=
    List.all_eq_true.mpr fun i _ => inRange_of_duty (duty_write thr roll pitch yaw i)
  rw [OutputStage.apply, if_pos hall]

end Ordered

variable [FloatEnv K]

/-- The command of a tick is an output of the mixer. -/
theorem ControlLoop.control_pwm {fuel : Nat} {c : FlightContext K} {rc : RcSample K}
    {imu : ImuSample K} {r : RateController K × PwmCmd K × Flt K}
    (h : control fuel c rc imu = some r) :
    ∃ thr roll pitch yaw, r.2.1 = (QuadXMixer.write thr roll pitch yaw).1 := by
  unfold control at h
  cases hmode : c.mode with
  | kOpenLoop =>
      simp only [hmode] at h
      split_ifs at h
      · cases h
        exact ⟨_, _, _, _, rfl⟩
      · cases h
        exact ⟨_, _, _, _, rfl⟩
  | kRateOnly =>
      simp only [hmode] at h
      cases h
      exact ⟨_, _, _, _, rfl⟩
  | kAttitude =>
      simp only [hmode] at h
      obtain ⟨sp, -, h⟩ := Option.bind_eq_some_iff.mp h
      cases h
      exact ⟨_, _, _, _, rfl⟩

/-- The LED shows an armed craft exactly when it is armed. -/
theorem ControlLoop.ledMode_eq_armed {fs : FailsafeFsm} (hinv : FailsafeFsm.Inv fs)
    (calibrated : Bool) : (ledMode fs calibrated).code = LedMode.kArmed.code ↔ fs.armed = true := by
  unfold ledMode
  cases harmed : fs.armed with
  | true =>
      obtain ⟨hactive, hboot⟩ := hinv.not_active harmed
      simp [hactive, hboot]
  | false => cases fs.bootLatched <;> cases fs.active <;> cases calibrated <;> decide

namespace Runner

/-! ## The reply -/

/-- A reply with the tick behind it, as far as the motors are concerned. -/
structure Gated (tick : TickOutput K) (out : Wire.SilOut (Flt K)) : Prop where
  duty : ∀ i, Duty (out.mot i)
  mixer : ∃ thr roll pitch yaw, tick.pwm = (QuadXMixer.write thr roll pitch yaw).1
  check : (OutputStage.apply tick.pwm true false true).1 = true
  closed : out.armed = 0 ∨ out.failsafe = 1 ∨ out.imuValid = 0 → ∀ i, out.mot i = 0
  opened : ¬ (out.armed = 0 ∨ out.failsafe = 1 ∨ out.imuValid = 0) → out.mot = tick.pwm.mot
  exclusive : ¬ (out.armed = 1 ∧ out.failsafe = 1)
  led : out.ledMode = LedMode.kArmed.code ↔ out.armed = 1

/-- A flag of the reply says what it was set from. -/
theorem flag_eq_one (b : Bool) : (if b then 1 else 0 : UInt8) = 1 ↔ b = true := by
  cases b <;> decide

/-- A flag of the reply is the byte zero exactly if what it stands for is false. -/
theorem flag_eq_zero (b : Bool) : (if b then 1 else 0 : UInt8) = 0 ↔ b = false := by
  cases b <;> decide

variable [IsStrictOrderedRing K]

/-- The reply of a turn whose arm state machine meets its invariant. -/
theorem ServedSpec.gated {armTest : Bool} {r r' : Runner K} {o : FwOut K} {hal : SilHal K}
    (h : ServedSpec armTest r r' o hal) (hinv : FailsafeFsm.Inv r'.ctx.fs) : Gated o.tick o.out := by
  obtain ⟨fuel, htick⟩ := h.tick
  have spec := ControlLoop.tick_spec htick
  obtain ⟨thr, roll, pitch, yaw, hpwm⟩ := ControlLoop.control_pwm spec.control
  replace hpwm : o.tick.pwm = (QuadXMixer.write thr roll pitch yaw).1 := hpwm
  have hout := h.out
  rw [spec.calls, hpwm, apply_write] at hout
  have harmed : o.out.armed = if r'.ctx.fs.armed then 1 else 0 := by rw [hout]; rfl
  have hfailsafe : o.out.failsafe = if r'.ctx.fs.active then 1 else 0 := by rw [hout]; rfl
  have hvalid : o.out.imuValid = if r'.ctx.est.imuValid then 1 else 0 := by rw [hout]; rfl
  have hled : o.out.ledMode = (ControlLoop.ledMode r'.ctx.fs r'.ctx.est.calibrated).code := by
    rw [hout]
    rfl
  have hclosed : (o.out.armed = 0 ∨ o.out.failsafe = 1 ∨ o.out.imuValid = 0) ↔
      (!r'.ctx.fs.armed || r'.ctx.fs.active || !r'.ctx.est.imuValid) = true := by
    rw [harmed, hfailsafe, hvalid, flag_eq_zero, flag_eq_one, flag_eq_zero]
    simp [or_assoc]
  have hmot : o.out.mot =
      if !r'.ctx.fs.armed || r'.ctx.fs.active || !r'.ctx.est.imuValid then fun _ => 0
      else o.tick.pwm.mot := by
    rw [hout, hpwm]
    split_ifs
    · rfl
    · rfl
  refine ⟨?_, ⟨thr, roll, pitch, yaw, hpwm⟩, ?_, ?_, ?_, ?_, ?_⟩
  · intro i
    rw [hmot]
    split_ifs
    · exact duty_zero
    · exact hpwm ▸ duty_write thr roll pitch yaw i
  · rw [hpwm, apply_write]
    rfl
  · intro hc i
    rw [hmot, if_pos (hclosed.mp hc)]
  · intro hc
    rw [hmot, if_neg fun h => hc (hclosed.mpr h)]
  · rw [harmed, hfailsafe, flag_eq_one, flag_eq_one]
    rintro ⟨h1, h2⟩
    rw [(hinv.not_active h1).1] at h2
    cases h2
  · rw [hled, harmed, flag_eq_one]
    exact ControlLoop.ledMode_eq_armed hinv r'.ctx.est.calibrated

/-- **Every reply is gated.** Whatever the arguments of the runner and the messages it accepts. -/
theorem fw_out_gated {a : Args K} {r : Runner K} {es : List (Event (Runner K) Transport (FwOut K))}
    (hrun : Run (served a.armTest) (start a) es r) {e : Event (Runner K) Transport (FwOut K)}
    (he : e ∈ es) : Gated e.out.tick e.out.out := by
  obtain ⟨hist, later, rfl⟩ := List.append_of_mem he
  obtain ⟨hhist, hs, -⟩ := hrun.split
  obtain ⟨hal, -, spec⟩ := served_spec hs
  have hinv : FailsafeFsm.Inv (start a).ctx.fs := FailsafeFsm.inv_boot a.resetReason
  exact spec.gated (ControlLoop.inv_of_ticks (ticks_of_served (.snoc hhist hs)) hinv)

/-- The runner in open loop at half throttle, with an explicit arm request. -/
def openLoop : Args ℚ := ⟨.kOpenLoop, true, false, .fin (1 / 2), 0, 0, 0, 1⟩

set_option maxRecDepth 10000 in
/-- The first reply of a craft that is armed explicitly, in open loop at half throttle: its motors turn, and
the reply is gated as claimed. -/
theorem fw_out_gated_open_loop :
    ∃ es r, Run (served true) (start openLoop) es r ∧ es.map Event.inp = [levelMsg 1 1000 []] ∧
      ∃ e ∈ es, e.out.out.mot 0 = .fin (1 / 2) ∧ Gated e.out.tick e.out.out := by
  have hrun : (execute (fun r i => (turn 1 true r i).bind replyOf) (start openLoop)
      [levelMsg 1 1000 []]).any (fun q => q.1.any fun e => decide (e.out.out.mot 0 = .fin (1 / 2))) := by
    decide +kernel
  obtain ⟨⟨es, r⟩, hes, hmot⟩ := (Option.any_eq_true _ _).mp hrun
  obtain ⟨e, he, hmot⟩ := List.any_eq_true.mp hmot
  have hserved : Run (served openLoop.armTest) (start openLoop) es r := served_of_execute hes
  exact ⟨es, r, hserved, execute_inputs hes, e, he, of_decide_eq_true hmot, fw_out_gated hserved he⟩

end Runner

end DroneMini
