import DroneMini.Flight.Calibration
import DroneMini.Loop.Isolation

/-!
# The calibration in a run of ticks

In a run from boot without an arm request nothing is armed before the calibration is complete, so the
estimator calibrates on one sample after the other, as `ComplementaryEstimator.calibrate` does, and the
flights afterwards leave the bias alone (`sameCalib_of_run`). `calibration` carries the facts about the
calibration over to the run.
-/

namespace DroneMini

namespace ComplementaryEstimator

variable {K : Type}

/-- The two estimators have the same variables of the calibration. -/
structure SameCalib (est est' : ComplementaryEstimator K) : Prop where
  state : est.state = est'.state
  n : est.n = est'.n
  sum : est.sum = est'.sum
  bias : est.bias = est'.bias

variable [Field K] [LinearOrder K] [FloatEnv K]

/-- The calibration reads and writes its own variables only, so it keeps two estimators equal in them. -/
theorem SameCalib.calibrateUpdate {est est' : ComplementaryEstimator K} (h : SameCalib est est')
    (imu : ImuSample K) : SameCalib (est.calibrateUpdate imu) (est'.calibrateUpdate imu) := by
  obtain ⟨hstate, hn, hsum, hbias⟩ := h
  cases est
  cases est'
  cases hstate
  cases hn
  cases hsum
  cases hbias
  unfold ComplementaryEstimator.calibrateUpdate
  dsimp only
  split_ifs <;> exact ⟨rfl, rfl, rfl, rfl⟩

/-- An update of the estimator, fusion and judgement, leaves the variables of the calibration alone. -/
theorem sameCalib_update {est est' : ComplementaryEstimator K} {fuel : Nat} {imu : ImuSample K}
    {dt : Flt K} (h : est.update fuel imu dt = some est') : SameCalib est' est := by
  rw [update] at h
  by_cases hrejects : rejects imu dt = true
  · rw [if_pos hrejects] at h
    cases h
    exact ⟨rfl, rfl, rfl, rfl⟩
  · rw [if_neg hrejects] at h
    dsimp only at h
    split_ifs at h with hdecim
    · cases h
      exact ⟨rfl, rfl, rfl, rfl⟩
    · rw [fuse_eq h]
      exact ⟨rfl, rfl, rfl, rfl⟩

end ComplementaryEstimator

namespace ControlLoop

open ComplementaryEstimator

variable {K : Type} [Field K] [LinearOrder K] [FloatEnv K]

/-- The IMU samples that the ticks of a run used, in order. -/
def samples (es : List (Tick K)) : List (ImuSample K) := es.map fun e => sampleOf e.inp.hal

/-- Without a request the machine arms a calibrated craft only. -/
theorem calibrated_of_arms {fs : FailsafeFsm} {u : UpdateArgs K} (hno : u.armTest = false)
    (harmed : (fs.update u).armed = true) : fs.armed = true ∨ u.calibrated = true := by
  rw [FailsafeFsm.update_armed] at harmed
  simp only [FailsafeFsm.armedNext, FailsafeFsm.edge, FailsafeFsm.rcArms, hno, Bool.false_and,
    Bool.false_eq_true, if_false, Bool.and_eq_true, Bool.or_eq_true] at harmed
  obtain ⟨-, ⟨-, hflying | ⟨⟨hcalibrated, -⟩, -⟩⟩, -⟩ := harmed
  · exact .inl hflying
  · exact .inr hcalibrated

/-- The estimator has calibrated on the samples so far, and an armed craft is calibrated. -/
structure Calibrating (es : List (Tick K)) (c : FlightContext K) : Prop where
  same : SameCalib c.est (calibrate (samples es))
  armed : c.fs.armed = true → c.est.calibrated = true

/-- **A tick without a request calibrates on its sample**, or finds the calibration complete and leaves it as
it is. -/
theorem Calibrating.step {hist : List (Tick K)} {e : Tick K} (h : Calibrating hist e.pre)
    (hs : tickStep e.pre e.inp e.post e.out) (hno : e.inp.armTest = false) :
    Calibrating (hist ++ [e]) e.post := by
  obtain ⟨fuel, htick⟩ := hs
  have spec := tick_spec htick
  have hsample : e.out.sensed.imu = sampleOf e.inp.hal := spec.sensed.imu
  have hcalibrate : calibrate (samples (hist ++ [e])) =
      (calibrate (samples hist)).calibrateUpdate (sampleOf e.inp.hal) := by
    rw [samples, List.map_append]
    exact List.foldl_concat ..
  cases harmed : e.post.fs.armed with
  | false =>
    refine ⟨?_, fun hcontra => absurd hcontra (by rw [harmed]; exact Bool.false_ne_true)⟩
    rw [hcalibrate, spec.est_of_disarmed harmed, hsample]
    exact h.same.calibrateUpdate _
  | true =>
    -- armed, so the calibration is complete and no sample changes it
    have hcalibrated : e.pre.est.calibrated = true := by
      rw [spec.fs] at harmed
      exact (calibrated_of_arms hno harmed).elim h.armed id
    have hdone : e.pre.est.state = .kDone := beq_iff_eq.mp hcalibrated
    have hkept := sameCalib_update (spec.est_of_armed harmed)
    refine ⟨?_, fun _ => ?_⟩
    · rw [hcalibrate, calibrateUpdate_of_done (h.same.state.symm.trans hdone)]
      exact ⟨hkept.state.trans h.same.state, hkept.n.trans h.same.n, hkept.sum.trans h.same.sum,
        hkept.bias.trans h.same.bias⟩
    · rw [calibrated, hkept.state]
      exact hcalibrated

/-- A run from boot without a request calibrates on its samples. -/
theorem calibrating_of_run {resetReason : UInt32} {mode : ControlMode} {es : List (Tick K)}
    {c : FlightContext K} (hrun : Run tickStep (.boot resetReason mode) es c)
    (hno : ∀ e ∈ es, e.inp.armTest = false) : Calibrating es c := by
  have hboot : (FailsafeFsm.boot resetReason).armed = false := by
    unfold FailsafeFsm.boot
    split_ifs <;> rfl
  refine hrun.induct (P := Calibrating) (along_of_forall hno) ⟨⟨rfl, rfl, rfl, rfl⟩, fun harmed => ?_⟩ ?_
  · exact absurd (hboot.symm.trans harmed) Bool.false_ne_true
  · intro hist e h hs hnoe
    exact h.step hs hnoe

section Exact
variable [IsStrictOrderedRing K] [ExactArith K] [ExactSqrt K]

/-- **The calibration in a run of ticks from boot without a request.** It is complete once the readings of
some beginning of the run end in a window; from the first such beginning on, whatever is armed or
disarmed, the bias is the mean of the readings in that window, and of the allowed magnitude. -/
theorem calibration {resetReason : UInt32} {mode : ControlMode} {es : List (Tick K)}
    {c : FlightContext K} (hrun : Run tickStep (.boot resetReason mode) es c)
    (hno : ∀ e ∈ es, e.inp.armTest = false) :
    (c.est.calibrated = true ↔ ∃ hist, hist <+: es ∧ EndsInWindow (samples hist)) ∧
      ∀ hist gs, hist <+: es → FirstWindow (samples hist) gs →
        (∀ i, c.est.bias i = .fin (mean gs i)) ∧ Still (mean gs) := by
  have hsame := (calibrating_of_run hrun hno).same
  constructor
  · rw [calibrated, beq_iff_eq, hsame.state, calibrated_iff]
    constructor
    · rintro ⟨hist, hbegin, hends⟩
      obtain ⟨ticks, hticks, rfl⟩ := List.prefix_map_iff.mp hbegin
      exact ⟨ticks, hticks, hends⟩
    · rintro ⟨hist, hbegin, hends⟩
      exact ⟨samples hist, hbegin.map _, hends⟩
  · intro hist gs hbegin hfirst
    have hne : gs ≠ [] := by
      rintro rfl
      exact absurd hfirst.window.length.symm (Nat.succ_ne_zero 199)
    refine ⟨fun i => ?_, still_mean hne hfirst.window.still⟩
    rw [hsame.bias]
    exact bias_of_window (hbegin.map _) hfirst i

end Exact

/-! ## A craft at rest -/

/-- A quiet tick: no RC bytes, no request, and an IMU sample with the given gyro. -/
def quietTick (g : Fin 3 → K) : TickInput K where
  hal :=
    { imuOk := true, imu := ⟨fun i => .fin (g i), fun _ => 0, fun _ => 0, 0, 0, true⟩
      rcRaw := none, rcUs := 0
      vbatOk := false, vbat := .nan, fsUs := 0, ledUs := 0 }
  armTest := false

/-- In rate mode a disarmed craft gets through a quiet tick and stays disarmed. -/
theorem quiet_step (c : FlightContext K) (hmode : c.mode = .kRateOnly) (g : Fin 3 → K) :
    ∃ c' out, tickStep c (quietTick g) c' out ∧ c'.mode = .kRateOnly := by
  obtain ⟨s, hs, -⟩ := sense_spec c.rc (quietTick g).hal
  have hrc : s.rc.frameOk = false := by
    have hraw : (quietTick g).hal.raw.length = 0 := rfl
    rw [sense, if_pos hraw] at hs
    cases hs
    rfl
  have hdisarmed : (c.fs.update (fsArgs c (quietTick g) s)).armed = false := by
    rw [FailsafeFsm.update_armed]
    simp [FailsafeFsm.armedNext, FailsafeFsm.edge, FailsafeFsm.rcArms, fsArgs, quietTick, hrc]
  obtain ⟨c', out, htick, hmode', -⟩ := tick_of_disarmed hmode hs hdisarmed 0
  exact ⟨c', out, ⟨0, htick⟩, hmode'⟩

/-- A run of quiet ticks from boot in rate mode, as long as wanted, on samples with one gyro. -/
theorem quiet_run (g : Fin 3 → K) (n : Nat) :
    ∃ es c, Run tickStep (.boot 1 .kRateOnly) es c ∧ es.map Event.inp = List.replicate n (quietTick g) ∧
      c.mode = .kRateOnly := by
  induction n with
  | zero => exact ⟨[], _, .nil _, rfl, rfl⟩
  | succ n ih =>
    obtain ⟨es, c, hrun, hinputs, hmode⟩ := ih
    obtain ⟨c', out, hstep, hmode'⟩ := quiet_step c hmode g
    refine ⟨_, _, .snoc hrun hstep, ?_, hmode'⟩
    rw [List.map_append, hinputs, List.replicate_succ']
    rfl

omit [FloatEnv K] in
/-- The first window of quiet ticks is one of the calibration, if their gyro is of the allowed magnitude. -/
theorem firstWindow_quiet {g : Fin 3 → K} (hg : Still g) :
    FirstWindow (List.replicate kCalibSamples (sampleOf (quietTick g).hal))
      (List.replicate kCalibSamples g) := by
  have hreading : reading (sampleOf (quietTick g).hal) = some g := rfl
  refine ⟨?_, ⟨List.length_replicate, fun g' hg' => ?_⟩, fun hist hbegin hends => ?_⟩
  · rw [readings, List.filterMap_replicate_of_some hreading]
  · rw [List.eq_of_mem_replicate hg']
    exact hg
  · -- a window takes as many samples as there are
    obtain ⟨gs, hsuffix, hwindow⟩ := hends
    have hmost : gs.length ≤ hist.length := hsuffix.length_le.trans (List.length_filterMap_le _ _)
    refine hbegin.eq_of_length_le ?_
    rwa [List.length_replicate, ← hwindow.length]

/-- A craft at rest whose gyro reads 1/10 on the roll axis is calibrated after 200 ticks, and the bias is
the mean of what it read. -/
theorem calibration_at_rest : ∃ (es : List (Tick ℝ)) (c : FlightContext ℝ),
    Run tickStep (.boot 1 .kRateOnly) es c ∧
      es.map Event.inp = List.replicate kCalibSamples (quietTick ![1 / 10, 0, 0]) ∧
      c.est.calibrated = true ∧
      ∀ i, c.est.bias i = .fin (mean (List.replicate kCalibSamples ![1 / 10, 0, 0]) i) := by
  obtain ⟨es, c, hrun, hinputs, -⟩ := quiet_run ![(1 / 10 : ℝ), 0, 0] kCalibSamples
  have hno : ∀ e ∈ es, e.inp.armTest = false := by
    intro e he
    have hmem := List.mem_map_of_mem (f := Event.inp) he
    rw [hinputs] at hmem
    rw [List.eq_of_mem_replicate hmem]
    rfl
  have hsamples : samples es =
      List.replicate kCalibSamples (sampleOf (quietTick ![(1 / 10 : ℝ), 0, 0]).hal) := by
    have hmap : (es.map Event.inp).map (fun i => sampleOf i.hal) = samples es := List.map_map
    rw [← hmap, hinputs, List.map_replicate]
  have hstill : Still ![(1 / 10 : ℝ), 0, 0] := by
    have hnorm : normSq ![(1 / 10 : ℝ), 0, 0] = 1 / 10 * (1 / 10) + 0 * 0 + 0 * 0 := rfl
    rw [Still, hnorm]
    norm_num
  have hfirst := firstWindow_quiet hstill
  rw [← hsamples] at hfirst
  obtain ⟨hiff, hbias⟩ := calibration hrun hno
  exact ⟨es, c, hrun, hinputs, hiff.mpr ⟨es, List.prefix_rfl, _, hfirst.suffix, hfirst.window⟩,
    (hbias es _ List.prefix_rfl hfirst).1⟩

end ControlLoop

end DroneMini
