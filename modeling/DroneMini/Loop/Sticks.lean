import DroneMini.Loop.Attitude

/-!
# Stick movements on the ground

Two runs of ticks from one context read the same inputs, but for the sticks of frames decoded on ticks that
end disarmed. Sticks do not reach the arm state machine or the estimator, so both runs arm alike. They do
reach the rate controller, which runs while the gate is closed: the motor commands of an armed period
are the same when the two rate controllers agree at the tick that arms (`stick_history_forgotten`), and
not when one of them has wound up on the ground (`stick_history_remembered`).
-/

namespace DroneMini

variable {K : Type}

/-- Two RC samples that differ in the roll, pitch and yaw sticks only. -/
structure RcSample.SameButSticks (rc rc' : RcSample K) : Prop where
  throttle : rc'.throttle = rc.throttle
  armedSwitch : rc'.armedSwitch = rc.armedSwitch
  frameOk : rc'.frameOk = rc.frameOk
  rxFailsafe : rc'.rxFailsafe = rc.rxFailsafe
  frameLost : rc'.frameLost = rc.frameLost
  tUs : rc'.tUs = rc.tUs

instance [DecidableEq K] (rc rc' : RcSample K) : Decidable (rc.SameButSticks rc') :=
  decidable_of_iff (rc'.throttle = rc.throttle ∧ rc'.armedSwitch = rc.armedSwitch ∧
    rc'.frameOk = rc.frameOk ∧ rc'.rxFailsafe = rc.rxFailsafe ∧ rc'.frameLost = rc.frameLost ∧
    rc'.tUs = rc.tUs)
    ⟨fun h => ⟨h.1, h.2.1, h.2.2.1, h.2.2.2.1, h.2.2.2.2.1, h.2.2.2.2.2⟩,
      fun h => ⟨h.throttle, h.armedSwitch, h.frameOk, h.rxFailsafe, h.frameLost, h.tUs⟩⟩

deriving instance DecidableEq for RcSample

/-- Two tick inputs that differ in the RC bytes only. -/
def SameButRaw (i j : TickInput K) : Prop := j = { i with hal := { i.hal with rcRaw := j.hal.rcRaw } }

variable [Field K] [LinearOrder K] [FloatEnv K]

/-- The arm state machine does not look at the sticks. -/
theorem FailsafeFsm.update_sticks (fs : FailsafeFsm) (u : UpdateArgs K) {rc : RcSample K}
    (h : u.rc.SameButSticks rc) : fs.update { u with rc := rc } = fs.update u := by
  obtain ⟨roll, pitch, yaw, throttle, armedSwitch, frameOk, rxFailsafe, frameLost, tUs⟩ := rc
  obtain ⟨rfl, rfl, rfl, rfl, rfl, rfl⟩ := h
  rfl

/-- Two rate controllers that act alike: the same units, and the last shift to the same side. -/
structure RateController.Agree (rate rate' : RateController K) : Prop where
  pids : rate'.pids = rate.pids
  down : rate'.lastShift < 0 ↔ rate.lastShift < 0
  up : 0 < rate'.lastShift ↔ 0 < rate.lastShift

/-- Two rate controllers that act alike give the same command and are equal after it. -/
theorem RateController.Agree.update {rate rate' : RateController K} (h : rate.Agree rate')
    (imu : ImuSample K) (sp : RateSp K) : rate'.update imu sp = rate.update imu sp := by
  unfold RateController.update
  simp only [h.pids, h.down, h.up]

namespace ControlLoop

/-- What two such runs have in common: everything but the parser, the LED and, on the ground, the rate
controller. -/
structure SameFlight (c d : FlightContext K) : Prop where
  est : d.est = c.est
  fs : d.fs = c.fs
  att : d.att = c.att
  mode : d.mode = c.mode
  olFromRc : d.olFromRc = c.olFromRc
  olThr : d.olThr = c.olThr
  olRoll : d.olRoll = c.olRoll
  olPitch : d.olPitch = c.olPitch
  olYaw : d.olYaw = c.olYaw
  rate : c.fs.armed = true → c.rate.Agree d.rate

/-- Two craft in the same flight, whose rate controllers act alike too, are controlled alike by the same
sample and setpoint. -/
theorem SameFlight.control {c d : FlightContext K} (h : SameFlight c d) (hrate : c.rate.Agree d.rate)
    {fuel : Nat} {est : ComplementaryEstimator K} {rc : RcSample K} {imu : ImuSample K}
    {r r' : RateController K × PwmCmd K × Flt K}
    (hc : ControlLoop.control fuel { c with est := est } rc imu = some r)
    (hd : ControlLoop.control fuel { d with est := est } rc imu = some r') :
    r.1.Agree r'.1 ∧ r'.2 = r.2 := by
  unfold ControlLoop.control at hc hd
  simp only [h.mode, h.att, h.olFromRc, h.olThr, h.olRoll, h.olPitch, h.olYaw, hrate.update] at hd
  cases hmode : c.mode with
  | kOpenLoop =>
      simp only [hmode] at hc hd
      split_ifs at hc hd
      · cases hc
        cases hd
        exact ⟨hrate, rfl⟩
      · cases hc
        cases hd
        exact ⟨hrate, rfl⟩
  | kRateOnly =>
      simp only [hmode] at hc hd
      cases hc
      cases hd
      exact ⟨⟨rfl, Iff.rfl, Iff.rfl⟩, rfl⟩
  | kAttitude =>
      simp only [hmode] at hc hd
      rw [hc, Option.some.injEq] at hd
      rw [hd]
      exact ⟨⟨rfl, Iff.rfl, Iff.rfl⟩, rfl⟩

/-- Two ticks on inputs that differ in the sticks of a disarmed tick. -/
structure SticksApart (x y : Tick K) : Prop where
  inp : SameButRaw x.inp y.inp
  rc : x.out.sensed.rc.SameButSticks y.out.sensed.rc
  armed : x.post.fs.armed = true → y.out.sensed.rc = x.out.sensed.rc

/-- A pair of such ticks arms alike, and commands the motors alike when the rate controllers agree. -/
theorem SameFlight.step {x y : Tick K} (h : SameFlight x.pre y.pre)
    (hx : tickStep x.pre x.inp x.post x.out) (hy : tickStep y.pre y.inp y.post y.out)
    (hapart : SticksApart x y)
    (hcond : x.pre.fs.armed = false → endsArmed x = true → x.pre.rate.Agree y.pre.rate) :
    SameFlight x.post y.post ∧
      (x.post.fs.armed = true → y.out.calls.filter HalCall.isPwm = x.out.calls.filter HalCall.isPwm) := by
  obtain ⟨fuel, hx, hy⟩ := tickStep_common hx hy
  have specx := tick_spec hx
  have specy := tick_spec hy
  have himu : y.out.sensed.imu = x.out.sensed.imu := by
    rw [specy.sensed.imu, specx.sensed.imu, hapart.inp]
  have hvbat : y.out.sensed.vbat = x.out.sensed.vbat := by
    rw [specy.sensed.vbat, specx.sensed.vbat, hapart.inp]
  have hargs : fsArgs y.pre y.inp y.out.sensed
      = { fsArgs x.pre x.inp x.out.sensed with rc := y.out.sensed.rc } := by
    rw [fsArgs, himu, hvbat, h.est, hapart.inp]
    rfl
  have hfs : y.post.fs = x.post.fs := by
    rw [specy.fs, specx.fs, hargs, h.fs]
    exact FailsafeFsm.update_sticks _ _ hapart.rc
  have hest : y.post.est = x.post.est := by
    have hy := specy.est
    rw [himu, hfs, h.est, specx.est] at hy
    exact (Option.some.inj hy).symm
  have hcontrol : x.post.fs.armed = true → x.post.rate.Agree y.post.rate ∧ y.out.pwm = x.out.pwm := by
    intro harmed
    have hrate : x.pre.rate.Agree y.pre.rate := by
      cases hpre : x.pre.fs.armed with
      | true => exact h.rate hpre
      | false => exact hcond hpre ((endsArmed_eq specx).trans harmed)
    have hy := specy.control
    rw [himu, h.est, hest, hapart.armed harmed] at hy
    obtain ⟨hagree, hout⟩ := h.control hrate specx.control hy
    exact ⟨hagree, congrArg Prod.fst hout⟩
  refine ⟨⟨hest, hfs, ?_, ?_, ?_, ?_, ?_, ?_, ?_, fun harmed => (hcontrol harmed).1⟩, fun harmed => ?_⟩
  · rw [specy.att, specx.att, h.att]
  · rw [specy.mode, specx.mode, h.mode]
  · rw [specy.olFromRc, specx.olFromRc, h.olFromRc]
  · rw [specy.olThr, specx.olThr, h.olThr]
  · rw [specy.olRoll, specx.olRoll, h.olRoll]
  · rw [specy.olPitch, specx.olPitch, h.olPitch]
  · rw [specy.olYaw, specx.olYaw, h.olYaw]
  · rw [specy.calls, specx.calls, hfs, hest, (hcontrol harmed).2]

/-- **When stick movements on the ground are forgotten.** Two runs of ticks from one context on inputs that
differ in the sticks of frames decoded on ticks that end disarmed. Both arm on the same ticks and command
the motors alike on every armed one, if at every tick that arms the two rate controllers agree. -/
theorem stick_history_forgotten {c d d' : FlightContext K} {ps : List (Tick K × Tick K)}
    (hrun : Run tickStep c (ps.map Prod.fst) d) (hrun' : Run tickStep c (ps.map Prod.snd) d')
    (hapart : ∀ p ∈ ps, SticksApart p.1 p.2)
    (hcond : ∀ p ∈ ps, p.1.pre.fs.armed = false → endsArmed p.1 = true →
      p.1.pre.rate.Agree p.2.pre.rate) :
    ∀ p ∈ ps, p.2.post.fs.armed = p.1.post.fs.armed ∧ (p.1.post.fs.armed = true →
      p.2.out.calls.filter HalCall.isPwm = p.1.out.calls.filter HalCall.isPwm) := by
  have hstart : SameFlight c c :=
    ⟨rfl, rfl, rfl, rfl, rfl, rfl, rfl, rfl, rfl, fun _ => ⟨rfl, Iff.rfl, Iff.rfl⟩⟩
  have hall := (hrun.pair hrun' (P := SameFlight) hstart fun p hp hpre hs hs' =>
    (hpre.step hs hs' (hapart p hp) (hcond p hp)).1).2
  intro p hp
  obtain ⟨hpre, hpost⟩ := hall p hp
  refine ⟨congrArg FailsafeFsm.armed hpost.fs, ?_⟩
  exact (hpre.step (hrun.step_of_mem (List.mem_map_of_mem hp)) (hrun'.step_of_mem (List.mem_map_of_mem hp))
    (hapart p hp) (hcond p hp)).2

instance (rate rate' : RateController ℚ) : Decidable (rate.Agree rate') :=
  decidable_of_iff (rate'.pids = rate.pids ∧ (rate'.lastShift < 0 ↔ rate.lastShift < 0) ∧
    (0 < rate'.lastShift ↔ 0 < rate.lastShift))
    ⟨fun h => ⟨h.1, h.2.1, h.2.2⟩, fun h => ⟨h.pids, h.down, h.up⟩⟩

/-- A call of a tick that drives the second motor: its duty is not zero. -/
def turnsSecond : HalCall ℚ → Bool
  | .pwmWrite cmd => decide (cmd.mot 1 ≠ 0)
  | _ => false

/-- Half throttle and the arm switch on, with a position of the yaw stick. -/
def swayFrame (yaw : Nat) : List UInt8 := sbusEncode [992, 992, 992, yaw, 1811] 0

/-- The yaw stick is full right in four frames and full left in the next four. The tenth frame closes the
throttle with the stick centred, and the three after it open the throttle again and hold the stick right. -/
def swayTicks : List (TickInput ℚ) :=
  (List.range' 201 4).map (fun k => levelTick (UInt64.ofNat (1000 * k)) (swayFrame 1811) false) ++
    (List.range' 205 4).map (fun k => levelTick (UInt64.ofNat (1000 * k)) (swayFrame 172) false) ++
    [levelTick 209000 (swayFrame 992) false, tenthTick 1] ++
    (List.range' 211 3).map fun k => levelTick (UInt64.ofNat (1000 * k)) (swayFrame 1200) false

/-- The same tick with the stick centred where it is full right or full left. -/
def swayless (i : TickInput ℚ) : TickInput ℚ :=
  { i with
    hal := { i.hal with
      rcRaw := i.hal.rcRaw.map fun raw =>
        if raw = swayFrame 1811 ∨ raw = swayFrame 172 then swayFrame 992 else raw } }

set_option maxRecDepth 10000 in
/-- A stick that sways on the ground is forgotten: on a level craft the integrator that has wound up to the
right unwinds to the left, so the controllers agree again at the tenth frame, which arms, and both crafts turn
their motors alike from then on. -/
theorem stick_history_forgotten_sway :
    ∃ (ps : List (Tick ℚ × Tick ℚ)) (d d' : FlightContext ℚ),
      Run tickStep (.boot 1 .kRateOnly) (ps.map Prod.fst) d ∧
      Run tickStep (.boot 1 .kRateOnly) (ps.map Prod.snd) d' ∧
      (∃ p ∈ ps, p.1.out.sensed.rc.yaw ≠ p.2.out.sensed.rc.yaw ∧
        p.1.post.rate.pids 2 ≠ p.2.post.rate.pids 2) ∧
      (∃ p ∈ ps, p.1.post.fs.armed = true ∧
        (p.1.out.calls.filter HalCall.isPwm).any turnsSecond = true) ∧
      ∀ p ∈ ps, p.2.post.fs.armed = p.1.post.fs.armed ∧ (p.1.post.fs.armed = true →
        p.2.out.calls.filter HalCall.isPwm = p.1.out.calls.filter HalCall.isPwm) := by
  obtain ⟨pre, hpre⟩ := execute_calibTicks
  have hrun : ((execute (tick 2) calibratedCraft swayTicks).any fun r =>
        (execute (tick 2) calibratedCraft (swayTicks.map swayless)).any fun q =>
          decide ((∀ p ∈ r.1.zip q.1, p.1.out.sensed.rc.SameButSticks p.2.out.sensed.rc ∧
            (p.1.post.fs.armed = true → p.2.out.sensed.rc = p.1.out.sensed.rc) ∧
            (p.1.pre.fs.armed = false → endsArmed p.1 = true → p.1.pre.rate.Agree p.2.pre.rate)) ∧
          (∃ p ∈ r.1.zip q.1, p.1.out.sensed.rc.yaw ≠ p.2.out.sensed.rc.yaw ∧
            p.1.post.rate.pids 2 ≠ p.2.post.rate.pids 2) ∧
          ∃ p ∈ r.1.zip q.1, p.1.post.fs.armed = true ∧
            (p.1.out.calls.filter HalCall.isPwm).any turnsSecond = true)) = true := by
    decide +kernel
  obtain ⟨⟨es, d⟩, hes, hrun⟩ := (Option.any_eq_true _ _).mp hrun
  obtain ⟨⟨es', d'⟩, hes', hrun⟩ := (Option.any_eq_true _ _).mp hrun
  obtain ⟨hticks, ⟨p, hp, hsway⟩, q, hq, hturns⟩ := of_decide_eq_true hrun
  obtain ⟨hleft, hright, hinp⟩ := ticks_fork hpre hes hes'
  refine ⟨_, d, d', hleft, hright, ⟨p, List.mem_append_right _ hp, hsway⟩,
    ⟨q, List.mem_append_right _ hq, hturns⟩, stick_history_forgotten hleft hright ?_ ?_⟩
  · intro p hp
    obtain ⟨-, hsame | ⟨hzip, hsame⟩⟩ := hinp p hp
    · rw [hsame]
      exact ⟨rfl, ⟨rfl, rfl, rfl, rfl, rfl, rfl⟩, fun _ => rfl⟩
    · exact ⟨by rw [hsame]; rfl, (hticks p hzip).1, (hticks p hzip).2.1⟩
  · intro p hp hdisarmed harms
    obtain ⟨-, hsame | ⟨hzip, -⟩⟩ := hinp p hp
    · rw [hsame]
      exact ⟨rfl, Iff.rfl, Iff.rfl⟩
    · exact (hticks p hzip).2.2 hdisarmed harms

/-- Throttle closed, the arm switch on and the yaw stick full right. -/
def yawFrame : List UInt8 := sbusEncode [992, 992, 172, 1811, 1811] 0

/-- The same tick with the yaw stick of its frame back in the middle. -/
def centred (i : TickInput ℚ) : TickInput ℚ :=
  { i with
    hal := { i.hal with rcRaw := i.hal.rcRaw.map fun raw => if raw = yawFrame then armFrame else raw } }

/-- Nine frames with the yaw stick full right, and a tenth with the stick centred. -/
def yawTicks : List (TickInput ℚ) :=
  (List.range' 201 9).map (fun k => levelTick (UInt64.ofNat (1000 * k)) yawFrame false) ++ [tenthTick 1]

set_option maxRecDepth 10000 in
/-- A yaw stick that is moved on the ground turns the motors after arming. -/
theorem stick_history_remembered :
    ¬ ∀ (resetReason : UInt32) (mode : ControlMode) (d d' : FlightContext ℚ)
      (ps : List (Tick ℚ × Tick ℚ)), mode ≠ .kOpenLoop →
      Run tickStep (.boot resetReason mode) (ps.map Prod.fst) d →
      Run tickStep (.boot resetReason mode) (ps.map Prod.snd) d' →
      (∀ p ∈ ps, p.1.inp.armTest = false ∧ p.2.inp.armTest = false) →
      (∀ p ∈ ps, SticksApart p.1 p.2) →
      ∀ p ∈ ps, p.2.post.fs.armed = p.1.post.fs.armed ∧ (p.1.post.fs.armed = true →
        p.2.out.calls.filter HalCall.isPwm = p.1.out.calls.filter HalCall.isPwm) := by
  intro h
  obtain ⟨pre, hpre⟩ := execute_calibTicks
  have hrun : ((execute (tick 2) calibratedCraft yawTicks).any fun r =>
        (execute (tick 2) calibratedCraft (yawTicks.map centred)).any fun q =>
          decide (∀ p ∈ r.1.zip q.1, p.1.out.sensed.rc.SameButSticks p.2.out.sensed.rc ∧
            (p.1.post.fs.armed = true → p.2.out.sensed.rc = p.1.out.sensed.rc)) &&
          (r.1.zip q.1).any fun p => p.1.post.fs.armed &&
            ((p.1.out.calls.filter HalCall.isPwm).any turnsSecond &&
              !(p.2.out.calls.filter HalCall.isPwm).any turnsSecond)) = true := by
    decide +kernel
  obtain ⟨⟨es, d⟩, hes, hrun⟩ := (Option.any_eq_true _ _).mp hrun
  obtain ⟨⟨es', d'⟩, hes', hrun⟩ := (Option.any_eq_true _ _).mp hrun
  simp only [Bool.and_eq_true, decide_eq_true_iff, List.any_eq_true, Bool.not_eq_true'] at hrun
  obtain ⟨hrc, p, hp, harmed, ⟨call, hcall, hturns⟩, hrests⟩ := hrun
  obtain ⟨hleft, hright, hinp⟩ := ticks_fork hpre hes hes'
  have hno : ∀ i ∈ calibTicks ++ yawTicks, i.armTest = false := by decide
  have hsame := h 1 .kRateOnly d d' _ (by decide) hleft hright ?_ ?_ p (List.mem_append_right _ hp)
  · rw [hsame.2 harmed, List.any_eq_false] at hrests
    exact hrests call hcall hturns
  · intro p hp
    obtain ⟨hmem, hsame | ⟨-, hsame⟩⟩ := hinp p hp
    · rw [hsame]
      exact ⟨hno _ hmem, hno _ hmem⟩
    · have harm : p.1.inp.armTest = false := hno _ hmem
      rw [hsame]
      exact ⟨harm, harm⟩
  · intro p hp
    obtain ⟨-, hsame | ⟨hzip, hsame⟩⟩ := hinp p hp
    · rw [hsame]
      exact ⟨rfl, ⟨rfl, rfl, rfl, rfl, rfl, rfl⟩, fun _ => rfl⟩
    · exact ⟨by rw [hsame]; rfl, (hrc p hzip).1, (hrc p hzip).2⟩

end ControlLoop

end DroneMini
