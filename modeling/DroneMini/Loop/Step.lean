import DroneMini.Flight.ControlLoop
import DroneMini.Failsafe.Invariant
import DroneMini.Sbus.Scan

/-!
# What one control tick does

`TickSpec` lists what `ControlLoop.tick` computes, one field for each module it calls, and `tick_spec`
says that a tick that returns does exactly this; the other modules use it and do not unfold `tick`.
A tick returns or not depending on the budget of its loops; `tick_mono` says that the result does not.
`sense_spec` sums up what the tick learns from the RC bytes.
-/

namespace DroneMini

namespace ControlLoop

variable {K : Type} [Field K] [LinearOrder K] [FloatEnv K]

/-- The arguments a tick passes to the arm state machine. -/
def fsArgs (c : FlightContext K) (inp : TickInput K) (s : Sensed K) : UpdateArgs K :=
  ⟨s.rc, s.imu, s.vbat, inp.hal.fsUs, c.est.calibrated, inp.armTest⟩

/-- What a tick from `c` to `c'` does, with `fuel` turns for each loop. -/
structure TickSpec (fuel : Nat) (c : FlightContext K) (inp : TickInput K) (c' : FlightContext K)
    (out : TickOutput K) : Prop where
  sense : sense c.rc inp.hal = some out.sensed
  rc : c'.rc = out.sensed.parser
  fs : c'.fs = c.fs.update (fsArgs c inp out.sensed)
  est : estimate fuel c.est c'.fs.armed out.sensed.imu (correct c.est out.sensed.imu) = some c'.est
  control : control fuel { c with est := c'.est } out.sensed.rc (correct c.est out.sensed.imu)
    = some (c'.rate, out.pwm, c'.satShift)
  calls : out.calls =
    [(OutputStage.apply out.pwm c'.fs.armed c'.fs.active c'.est.imuValid).2,
      .ledSet (ledMode c'.fs c'.est.calibrated)]
  led : c'.led.mode = ledMode c'.fs c'.est.calibrated
  tick : c'.tick = c.tick + 1
  att : c'.att = c.att
  mode : c'.mode = c.mode
  olFromRc : c'.olFromRc = c.olFromRc
  olThr : c'.olThr = c.olThr
  olRoll : c'.olRoll = c.olRoll
  olPitch : c'.olPitch = c.olPitch
  olYaw : c'.olYaw = c.olYaw

/-- **A tick that returns does what `TickSpec` says**: it reads the sensors, updates the arm state machine,
estimates, controls and drives the motors, each as the spec's field for it states. -/
theorem tick_spec {fuel : Nat} {c c' : FlightContext K} {inp : TickInput K} {out : TickOutput K}
    (h : tick fuel c inp = some (c', out)) : TickSpec fuel c inp c' out := by
  unfold tick at h
  simp only [Option.bind_eq_bind, Option.pure_def, Option.bind_eq_some_iff] at h
  obtain ⟨s, hsense, est, hest, ⟨rate, pwm, shift⟩, hctl, hres⟩ := h
  rw [Option.some.injEq, Prod.mk.injEq] at hres
  obtain ⟨rfl, rfl⟩ := hres
  refine ⟨hsense, rfl, rfl, hest, ?_, rfl, rfl, rfl, rfl, rfl, rfl, rfl, rfl, rfl, rfl⟩
  exact hctl

/-- A tick returns, with the results of its parts, as soon as the sensing, the estimation and the control all
return. -/
theorem tick_eq {fuel : Nat} {c : FlightContext K} {inp : TickInput K} {s : Sensed K}
    {est : ComplementaryEstimator K} {r : RateController K × PwmCmd K × Flt K} {fs : FailsafeFsm}
    (hs : sense c.rc inp.hal = some s) (hfs : c.fs.update (fsArgs c inp s) = fs)
    (hest : estimate fuel c.est fs.armed s.imu (correct c.est s.imu) = some est)
    (hctl : control fuel { c with est := est } s.rc (correct c.est s.imu) = some r) :
    tick fuel c inp = some
      ({ c with
          rc := s.parser
          fs := fs
          est := est
          rate := r.1
          satShift := r.2.2
          tick := c.tick + 1
          led := (c.led.set (ledMode fs est.calibrated)).update (inp.hal.ledUs / 1000).toUInt32 },
        ⟨s, r.2.1, [(OutputStage.apply r.2.1 fs.armed fs.active est.imuValid).2,
          .ledSet (ledMode fs est.calibrated)]⟩) := by
  subst hfs
  show (sense c.rc inp.hal).bind _ = _
  rw [hs]
  show (estimate fuel c.est (c.fs.update (fsArgs c inp s)).armed s.imu
    (correct c.est s.imu)).bind _ = _
  rw [hest]
  show (control fuel { c with est := est } s.rc (correct c.est s.imu)).bind _ = _
  rw [hctl]
  rfl

/-- In rate mode a tick that ends disarmed returns: it runs no loop, since only the fusion and the attitude
controller wrap angles. -/
theorem tick_of_disarmed {c : FlightContext K} (hmode : c.mode = .kRateOnly) {inp : TickInput K}
    {s : Sensed K} (hs : sense c.rc inp.hal = some s)
    (hdisarmed : (c.fs.update (fsArgs c inp s)).armed = false) (fuel : Nat) :
    ∃ c' out, tick fuel c inp = some (c', out) ∧ c'.mode = .kRateOnly ∧ c'.rc = s.parser ∧
      c'.fs = c.fs.update (fsArgs c inp s) := by
  have hest : estimate fuel c.est (c.fs.update (fsArgs c inp s)).armed s.imu (correct c.est s.imu) =
      some (c.est.calibrateUpdate s.imu) := by
    rw [hdisarmed]
    rfl
  have hctl : control fuel { c with est := c.est.calibrateUpdate s.imu } s.rc (correct c.est s.imu) =
      some (c.rate.update (correct c.est s.imu) (rcStickToRateSp s.rc)) := by
    unfold control
    rw [show ({ c with est := c.est.calibrateUpdate s.imu } : FlightContext K).mode = .kRateOnly from hmode]
  exact ⟨_, _, tick_eq hs rfl hest hctl, hmode, rfl, rfl⟩

/-! ## The budget does not matter -/

section Budget
variable {fuel fuel' : Nat} (hle : fuel ≤ fuel')
include hle

/-- The angle wrapping that returns for one budget returns the same angle for any larger one. -/
theorem wrapPi_mono (a : Flt K) :
    Improves (ComplementaryEstimator.wrapPi fuel a) (ComplementaryEstimator.wrapPi fuel' a) :=
  .bind (.whileLoop hle a) fun b => .whileLoop hle b

/-- The fusion of a sample that returns for one budget returns the same for any larger one. -/
theorem fuse_mono (est : ComplementaryEstimator K) (imu : ImuSample K) (dt : Flt K) :
    Improves (est.fuse fuel imu dt) (est.fuse fuel' imu dt) := by
  unfold ComplementaryEstimator.fuse
  refine .bind (wrapPi_mono hle _) fun roll => ?_
  refine .bind (wrapPi_mono hle _) fun pitch => ?_
  refine .bind (wrapPi_mono hle _) fun yaw => ?_
  exact .refl _

/-- The estimation of a tick that returns for one budget returns the same for any larger one. -/
theorem estimate_mono (est : ComplementaryEstimator K) (armed : Bool) (imu imuCtl : ImuSample K) :
    Improves (estimate fuel est armed imu imuCtl) (estimate fuel' est armed imu imuCtl) := by
  cases armed with
  | false => exact .refl _
  | true =>
      show Improves (est.update fuel imuCtl kControlDtS) (est.update fuel' imuCtl kControlDtS)
      unfold ComplementaryEstimator.update
      exact .ite (.refl _) (.ite (.refl _) (fuse_mono hle _ _ _))

/-- The way to the shortest yaw error improves with the budget. -/
theorem shortestYaw_mono (e : Flt K) :
    Improves (AttitudeController.shortestYaw fuel e) (AttitudeController.shortestYaw fuel' e) :=
  .bind (.whileLoop hle e) fun b => .whileLoop hle b

/-- One axis of the attitude controller improves with the budget. -/
theorem axis_mono (att : AttitudeController K) (sp est : Flt K) (i : Fin 3) :
    Improves (att.axis fuel sp est i) (att.axis fuel' sp est i) := by
  unfold AttitudeController.axis
  by_cases hi : i = 2
  · simp only [if_pos hi]
    exact .bind (shortestYaw_mono hle _) fun e => .refl _
  · simp only [if_neg hi]
    exact .refl _

/-- The attitude controller that returns for one budget returns the same rates for any larger one. -/
theorem attUpdate_mono (att : AttitudeController K) (sp est : Fin 3 → Flt K) :
    Improves (att.update fuel sp est) (att.update fuel' sp est) := by
  unfold AttitudeController.update
  refine .bind (axis_mono hle att _ _ _) fun r => ?_
  refine .bind (axis_mono hle att _ _ _) fun p => ?_
  exact .bind (axis_mono hle att _ _ _) fun y => .refl _

/-- The control of a tick that returns for one budget returns the same command for any larger one. -/
theorem control_mono (c : FlightContext K) (rc : RcSample K) (imuCtl : ImuSample K) :
    Improves (control fuel c rc imuCtl) (control fuel' c rc imuCtl) := by
  unfold control
  cases c.mode with
  | kOpenLoop => exact .refl _
  | kRateOnly => exact .refl _
  | kAttitude => exact .bind (attUpdate_mono hle c.att _ _) fun rateSp => .refl _

/-- **A tick that returns for one budget returns the same for any larger one**, so the budget of its loops
decides whether there is a result but not which. -/
theorem tick_mono (c : FlightContext K) (inp : TickInput K) :
    Improves (tick fuel c inp) (tick fuel' c inp) := by
  unfold tick
  refine .bind (.refl _) fun s => ?_
  refine .bind (estimate_mono hle c.est _ _ _) fun est => ?_
  exact .bind (control_mono hle _ _ _) fun r => .refl _

end Budget

/-- One control tick as a step of the flight context: it is given its inputs and returns for some budget of
its loops. -/
def tickStep (c : FlightContext K) (inp : TickInput K) (c' : FlightContext K)
    (out : TickOutput K) : Prop := ∃ fuel, tick fuel c inp = some (c', out)

/-- A control tick as an event of a run: the contexts before and after it, what it was given and what it put
out. -/
abbrev Tick (K : Type) := Event (FlightContext K) (TickInput K) (TickOutput K)

/-- Two ticks that return do so for a common budget, the larger of theirs. -/
theorem tickStep_common {c c' d d' : FlightContext K} {i j : TickInput K} {o p : TickOutput K}
    (h : tickStep c i c' o) (h' : tickStep d j d' p) :
    ∃ fuel, tick fuel c i = some (c', o) ∧ tick fuel d j = some (d', p) := by
  obtain ⟨fuel, h⟩ := h
  obtain ⟨fuel', h'⟩ := h'
  exact ⟨max fuel fuel', tick_mono (Nat.le_max_left fuel fuel') c i _ h,
    tick_mono (Nat.le_max_right fuel fuel') d j _ h'⟩

/-- A context and the inputs of a tick leave only one result, whatever the budget. -/
theorem tickStep_det {c c₁ c₂ : FlightContext K} {inp : TickInput K} {o₁ o₂ : TickOutput K}
    (h₁ : tickStep c inp c₁ o₁) (h₂ : tickStep c inp c₂ o₂) : c₁ = c₂ ∧ o₁ = o₂ := by
  obtain ⟨fuel, h₁, h₂⟩ := tickStep_common h₁ h₂
  rw [h₁, Option.some.injEq, Prod.mk.injEq] at h₂
  exact h₂

/-- What `execute` returns for ticks is a run of ticks. -/
theorem ticks_run {fuel : Nat} {c c' : FlightContext K} {inputs : List (TickInput K)}
    {es : List (Tick K)} (h : execute (tick fuel) c inputs = some (es, c')) :
    Run tickStep c es c' :=
  (execute_run h).mono fun _ _ _ _ hs => ⟨fuel, hs⟩

/-- Two runs that part after a common beginning, the second on changed inputs, over the pairs of their
ticks. -/
theorem ticks_fork {fuel : Nat} {c t d d' : FlightContext K} {is js : List (TickInput K)}
    {change : TickInput K → TickInput K} {pre es es' : List (Tick K)}
    (h0 : execute (tick fuel) c is = some (pre, t)) (h : execute (tick fuel) t js = some (es, d))
    (h' : execute (tick fuel) t (js.map change) = some (es', d')) :
    Run tickStep c ((pre.map (fun e => (e, e)) ++ es.zip es').map Prod.fst) d ∧
      Run tickStep c ((pre.map (fun e => (e, e)) ++ es.zip es').map Prod.snd) d' ∧
      ∀ p ∈ pre.map (fun e => (e, e)) ++ es.zip es',
        p.1.inp ∈ is ++ js ∧ (p.2 = p.1 ∨ p ∈ es.zip es' ∧ p.2.inp = change p.1.inp) := by
  obtain ⟨hleft, hright, hinp⟩ := execute_pair h h' (List.length_map _).symm
  have hpre := ticks_run h0
  have hfst : (pre.map fun e => (e, e)).map Prod.fst = pre := by
    rw [List.map_map]
    exact List.map_id pre
  have hsnd : (pre.map fun e => (e, e)).map Prod.snd = pre := by
    rw [List.map_map]
    exact List.map_id pre
  rw [List.map_append, List.map_append, hfst, hsnd]
  refine ⟨hpre.append (hleft.mono fun _ _ _ _ hs => ⟨fuel, hs⟩),
    hpre.append (hright.mono fun _ _ _ _ hs => ⟨fuel, hs⟩), fun p hp => ?_⟩
  rcases List.mem_append.mp hp with hp | hp
  · obtain ⟨e, he, rfl⟩ := List.mem_map.mp hp
    exact ⟨List.mem_append_left _ (execute_inputs h0 ▸ List.mem_map_of_mem he), .inl rfl⟩
  · have hmem := hinp p hp
    rw [← List.map_prod_left_eq_zip, List.mem_map] at hmem
    obtain ⟨i, hi, heq⟩ := hmem
    rw [Prod.mk.injEq] at heq
    rw [← heq.1, ← heq.2]
    exact ⟨List.mem_append_right _ hi, .inr ⟨hp, rfl⟩⟩

/-! ## What a tick learns from its sensors -/

/-- The sensors of a tick: the IMU sample and the battery voltage as the HAL gave them, and the RC
sample of the last frame the bytes completed, stamped with the clock. -/
structure SenseSpec (p : SbusParser) (h : HalReads K) (s : Sensed K) : Prop where
  imu : s.imu = if h.imuOk then h.imu else { h.imu with valid := false }
  vbat : s.vbat = if h.vbatOk then h.vbat else .nan
  completes : s.accepted ≠ [] ↔ p.CompletesFrame h.raw
  frameOk : s.rc.frameOk = !s.accepted.isEmpty
  tUs : s.rc.tUs = h.rcUs
  rc_nil : s.accepted = [] → s.rc = { RcSample.zero with tUs := h.rcUs }
  rc_last : ∀ w ∈ s.accepted.getLast?, ∃ o, SbusParser.decodeFrame w.2 RcSample.zero = some o ∧
    s.rc = { o with frameOk := true, tUs := h.rcUs }

/-- The sensors can always be read: the parser stays within its array for any bytes, and the tick learns what
`SenseSpec` says. -/
theorem sense_spec (p : SbusParser) (h : HalReads K) :
    ∃ s, sense p h = some s ∧ SenseSpec p h s := by
  by_cases h0 : h.raw.length = 0
  · refine ⟨_, by rw [sense, if_pos h0]; rfl, rfl, rfl, ?_, rfl, rfl, fun _ => rfl, by simp⟩
    refine iff_of_false (not_not_intro rfl) (fun hc => hc.1 h0)
  · obtain ⟨r, hr, hacc, hdec, hnil, hlast⟩ :=
      SbusParser.feed_total p h.raw (RcSample.zero : RcSample K)
    refine ⟨_, by rw [sense, if_neg h0, hr]; rfl, rfl, rfl, hacc, hdec, rfl, ?_, ?_⟩
    · intro hnone
      replace hnone : r.accepted = [] := hnone
      show ({ r.out with frameOk := r.decoded, tUs := h.rcUs } : RcSample K) = _
      rw [hdec, hnone, hnil hnone]
      rfl
    · intro w hw
      refine ⟨r.out, hlast w hw, ?_⟩
      have hne : r.decoded = true := by
        rw [hdec]
        cases hacc : r.accepted with
        | nil => simp [hacc] at hw
        | cons => rfl
      show ({ r.out with frameOk := r.decoded, tUs := h.rcUs } : RcSample K) = _
      rw [hne]

/-- The sensors of a tick are read as `SenseSpec` says. -/
theorem TickSpec.sensed {fuel : Nat} {c c' : FlightContext K} {inp : TickInput K}
    {out : TickOutput K} (h : TickSpec fuel c inp c' out) : SenseSpec c.rc inp.hal out.sensed := by
  obtain ⟨s, hs, spec⟩ := sense_spec c.rc inp.hal
  rw [h.sense, Option.some.injEq] at hs
  rw [hs]
  exact spec

/-- A tick that reads one whole frame, or nothing, with an idle parser: it accepts the frame and leaves the
parser idle. -/
theorem sense_idle {p : SbusParser} {h : HalReads K} {sensed : Sensed K} (hs : sense p h = some sensed)
    (hp : p.n = 0)
    (hraw : h.raw ≠ [] → h.raw.length = kSbusLen ∧ SbusParser.acceptable h.raw = true) :
    sensed.parser.n = 0 ∧ sensed.accepted = if h.raw = [] then [] else [(0, h.raw)] := by
  by_cases hnil : h.raw = []
  · have h0 : h.raw.length = 0 := by simp [hnil]
    rw [sense, if_pos h0] at hs
    cases hs
    exact ⟨hp, (if_pos hnil).symm⟩
  · obtain ⟨hlen, hacc⟩ := hraw hnil
    obtain ⟨r, hr, haccepted, -, -, hn⟩ := SbusParser.feed_frame hp (.zero : RcSample K) hlen hacc
    have h0 : h.raw.length ≠ 0 := by simp [hnil]
    rw [sense, if_neg h0, hr] at hs
    cases hs
    exact ⟨hn, haccepted.trans (if_neg hnil).symm⟩

/-- A tick that ends disarmed goes on calibrating with its sample, and fuses nothing. -/
theorem TickSpec.est_of_disarmed {fuel : Nat} {c c' : FlightContext K} {inp : TickInput K}
    {out : TickOutput K} (h : TickSpec fuel c inp c' out) (harmed : c'.fs.armed = false) :
    c'.est = c.est.calibrateUpdate out.sensed.imu := by
  have hest := h.est
  rw [harmed] at hest
  exact (Option.some.inj hest).symm

/-- A tick that ends armed updates the estimator with its bias-corrected sample. -/
theorem TickSpec.est_of_armed {fuel : Nat} {c c' : FlightContext K} {inp : TickInput K}
    {out : TickOutput K} (h : TickSpec fuel c inp c' out) (harmed : c'.fs.armed = true) :
    c.est.update fuel (correct c.est out.sensed.imu) kControlDtS = some c'.est := by
  have hest := h.est
  rw [harmed] at hest
  exact hest

/-! ## The arm state machine inside a run of ticks -/

/-- The update of the arm state machine a tick makes. -/
def fsUpdate (e : Tick K) : Event FailsafeFsm (UpdateArgs K) Unit :=
  ⟨e.pre.fs, fsArgs e.pre e.inp e.out.sensed, e.post.fs, ()⟩

/-- **A run of ticks is a run of updates for the arm state machine.** -/
theorem fsRun {c c' : FlightContext K} {es : List (Tick K)} (h : Run tickStep c es c') :
    Run FailsafeFsm.updateStep c.fs (es.map fsUpdate) c'.fs := by
  refine h.map (fun c => c.fs) fsUpdate (fun _ => rfl) (fun _ => rfl) ?_
  rintro e ⟨fuel, htick⟩
  exact (tick_spec htick).fs

end ControlLoop

end DroneMini
