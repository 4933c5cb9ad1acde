import DroneMini.Loop.ImuJudges
import DroneMini.Loop.Arming

/-!
# The attitude and the arm switch

Two runs of ticks from one context see the same IMU samples and differ in everything else. The estimator
fuses a sample only on a tick that ends armed, so the attitudes stay equal as long as both runs fuse
the same samples (`attitude_follows_imu`); a run that is armed while the other is not leaves it behind
(`attitude_follows_arm_switch`).
-/

namespace DroneMini

open FailsafeFsm

variable {K : Type} [Field K] [LinearOrder K] [FloatEnv K]

namespace ComplementaryEstimator

/-- Two estimators that agree in everything but their judgement of the IMU. -/
def SameFusion (est est' : ComplementaryEstimator K) : Prop :=
  est' = { est with invalidCount := est'.invalidCount, imuValid := est'.imuValid }

omit [Field K] [LinearOrder K] [FloatEnv K] in
/-- Two estimators that fuse alike do so in either order. -/
theorem SameFusion.symm {est est' : ComplementaryEstimator K} (h : est.SameFusion est') :
    est'.SameFusion est := by
  rw [h]
  rfl

omit [Field K] [LinearOrder K] [FloatEnv K] in
/-- Estimators that fuse like a third one fuse like each other. -/
theorem SameFusion.trans {a b c : ComplementaryEstimator K} (h : a.SameFusion b)
    (h' : b.SameFusion c) : a.SameFusion c := by
  rw [h', h]
  rfl

/-- The calibration keeps two estimators fusing alike, since it does not look at the judgement of the IMU. -/
theorem SameFusion.calibrateUpdate {est est' : ComplementaryEstimator K} (h : est.SameFusion est')
    (imu : ImuSample K) : (est.calibrateUpdate imu).SameFusion (est'.calibrateUpdate imu) := by
  rw [h, SameFusion]
  unfold ComplementaryEstimator.calibrateUpdate
  dsimp only
  split_ifs <;> rfl

/-- A calibrated estimator ignores further calibration samples. -/
theorem calibrateUpdate_of_calibrated {est : ComplementaryEstimator K} (h : est.calibrated = true)
    (imu : ImuSample K) : est.calibrateUpdate imu = est := by
  rw [calibrated, beq_iff_eq] at h
  rw [calibrateUpdate, if_pos h]

/-- A sample that the fusion rejects changes the judgement of the IMU and nothing that later fusions read. -/
theorem sameFusion_of_rejects {est est' : ComplementaryEstimator K} {fuel : Nat} {imu : ImuSample K}
    {dt : Flt K} (h : est.update fuel imu dt = some est') (hrej : rejects imu dt = true) :
    est.SameFusion est' := by
  unfold update at h
  rw [if_pos hrej] at h
  cases h
  rfl

/-- A sample that is not rejected is fused without a look at the judgement. -/
theorem SameFusion.update {est est' : ComplementaryEstimator K} (h : est.SameFusion est') (fuel : Nat)
    {imu : ImuSample K} {dt : Flt K} (hrej : rejects imu dt = false) :
    est'.update fuel imu dt = est.update fuel imu dt := by
  have hno : ¬ rejects imu dt = true := by
    rw [hrej]
    exact Bool.false_ne_true
  rw [h, ComplementaryEstimator.update, ComplementaryEstimator.update, if_neg hno, if_neg hno]

/-- The fusion leaves the state of the calibration as it was. -/
theorem update_calibration {est est' : ComplementaryEstimator K} {fuel : Nat} {imu : ImuSample K}
    {dt : Flt K} (h : est.update fuel imu dt = some est') : est'.state = est.state := by
  unfold update at h
  dsimp only at h
  split_ifs at h
  · cases h
    rfl
  · cases h
    rfl
  · cases h
    rfl
  · rw [fuse_eq h]

end ComplementaryEstimator

namespace ControlLoop

open ComplementaryEstimator

/-- A craft is armed only when its estimator is calibrated. -/
def ArmedCalibrated (c : FlightContext K) : Prop := c.fs.armed = true → c.est.calibrated = true

/-- A tick without `arm_test` that ends armed starts calibrated, since neither arming nor staying armed is
possible before. -/
theorem calibrated_of_armed {x : Tick K} {fuel : Nat} (spec : TickSpec fuel x.pre x.inp x.post x.out)
    (hno : x.inp.armTest = false) (hpre : ArmedCalibrated x.pre) (harmed : x.post.fs.armed = true) :
    x.pre.est.calibrated = true := by
  cases h : x.pre.fs.armed with
  | true => exact hpre h
  | false =>
      rw [spec.fs] at harmed
      obtain ⟨-, -, -, -, -, hneed⟩ :=
        armed_of_update (u := fsArgs x.pre x.inp x.out.sensed) hno harmed
      exact (hneed h).1

/-- A tick without `arm_test` that starts uncalibrated ends disarmed. -/
theorem disarmed_of_uncalibrated {x : Tick K} {fuel : Nat}
    (spec : TickSpec fuel x.pre x.inp x.post x.out) (hno : x.inp.armTest = false)
    (hpre : ArmedCalibrated x.pre) (hcal : x.pre.est.calibrated = false) : x.post.fs.armed = false := by
  rw [Bool.eq_false_iff]
  intro harmed
  rw [calibrated_of_armed spec hno hpre harmed] at hcal
  cases hcal

/-- A tick without `arm_test` keeps it true that an armed craft is calibrated. -/
theorem ArmedCalibrated.step {x : Tick K} {fuel : Nat} (h : ArmedCalibrated x.pre)
    (spec : TickSpec fuel x.pre x.inp x.post x.out) (hno : x.inp.armTest = false) :
    ArmedCalibrated x.post := by
  intro harmed
  have hcal := calibrated_of_armed spec hno h harmed
  rwa [calibrated, update_calibration (spec.est_of_armed harmed)]

omit [LinearOrder K] in
/-- The correction of a sample does not look at the judgement. -/
theorem correct_sameFusion {est est' : ComplementaryEstimator K} (h : est.SameFusion est')
    (imu : ImuSample K) : correct est' imu = correct est imu := by
  rw [h]
  rfl

/-- A calibrated estimator that rejects the sample of a tick keeps its fusion, armed or not. -/
theorem sameFusion_of_rejected {x : Tick K} {fuel : Nat}
    (spec : TickSpec fuel x.pre x.inp x.post x.out) (hcal : x.pre.est.calibrated = true)
    (hrej : rejectedSample x = true) : x.pre.est.SameFusion x.post.est := by
  have himu : x.out.sensed.imu = sampleOf x.inp.hal := spec.sensed.imu
  cases harmed : x.post.fs.armed with
  | true =>
      have hest := spec.est_of_armed harmed
      rw [himu] at hest
      exact sameFusion_of_rejects hest hrej
  | false =>
      rw [spec.est_of_disarmed harmed, calibrateUpdate_of_calibrated hcal]
      rfl

/-- What two runs on the same samples have in common. -/
structure Alike (c d : FlightContext K) : Prop where
  est : c.est.SameFusion d.est
  left : ArmedCalibrated c
  right : ArmedCalibrated d

/-- Two ticks on the same sample that both fuse it, or do not, or reject it, keep two runs alike. -/
theorem Alike.step {x y : Tick K} (h : Alike x.pre y.pre) (hx : tickStep x.pre x.inp x.post x.out)
    (hy : tickStep y.pre y.inp y.post y.out) (hno : x.inp.armTest = false ∧ y.inp.armTest = false)
    (himu : sampleOf x.inp.hal = sampleOf y.inp.hal)
    (hcond : x.pre.est.calibrated = true → endsArmed x = endsArmed y ∨ rejectedSample x = true) :
    Alike x.post y.post := by
  obtain ⟨fuel, hx, hy⟩ := tickStep_common hx hy
  have specx := tick_spec hx
  have specy := tick_spec hy
  have himux : x.out.sensed.imu = sampleOf x.inp.hal := specx.sensed.imu
  have himuy : y.out.sensed.imu = sampleOf x.inp.hal := specy.sensed.imu.trans himu.symm
  have hcal : y.pre.est.calibrated = x.pre.est.calibrated := by
    rw [h.est]
    rfl
  have hcorrect := correct_sameFusion h.est (sampleOf x.inp.hal)
  have hrej : rejectedSample y = rejectedSample x := by
    rw [rejectedSample, ← himu, hcorrect, rejectedSample]
  refine ⟨?_, h.left.step specx hno.1, h.right.step specy hno.2⟩
  have hoff : x.post.fs.armed = false → y.post.fs.armed = false → x.post.est.SameFusion y.post.est := by
    intro hx hy
    rw [specx.est_of_disarmed hx, specy.est_of_disarmed hy, himux, himuy]
    exact h.est.calibrateUpdate _
  have hkept : x.pre.est.calibrated = true → rejectedSample x = true →
      x.post.est.SameFusion y.post.est := by
    intro hc hr
    have hxy := h.est.trans (sameFusion_of_rejected specy (hcal.trans hc) (hrej.trans hr))
    exact (sameFusion_of_rejected specx hc hr).symm.trans hxy
  cases hc : x.pre.est.calibrated with
  | false =>
      exact hoff (disarmed_of_uncalibrated specx hno.1 h.left hc)
        (disarmed_of_uncalibrated specy hno.2 h.right (hcal.trans hc))
  | true =>
      rcases hcond hc with heq | hr
      · rw [endsArmed_eq specx, endsArmed_eq specy] at heq
        cases harmed : x.post.fs.armed with
        | false => exact hoff harmed (heq.symm.trans harmed)
        | true =>
            cases hr : rejectedSample x with
            | true => exact hkept hc hr
            | false =>
                -- both runs fuse the same sample
                have hestx := specx.est_of_armed harmed
                have hesty := specy.est_of_armed (heq.symm.trans harmed)
                rw [himuy, hcorrect, h.est.update fuel hr, ← himux, hestx] at hesty
                rw [Option.some.inj hesty]
                rfl
      · exact hkept hc hr

/-- **When the attitude follows the IMU.** Two runs of ticks from one booted context without arm requests,
on the same IMU samples. The attitudes are equal after every tick, if on every tick that starts calibrated
both runs end armed or neither does, unless the estimator rejects the corrected sample. -/
theorem attitude_follows_imu {resetReason : UInt32} {c₀ c d : FlightContext K}
    {ps : List (Tick K × Tick K)} (hboot : c₀.fs = boot resetReason)
    (hrun : Run tickStep c₀ (ps.map Prod.fst) c) (hrun' : Run tickStep c₀ (ps.map Prod.snd) d)
    (hno : ∀ p ∈ ps, p.1.inp.armTest = false ∧ p.2.inp.armTest = false)
    (himu : ∀ p ∈ ps, sampleOf p.1.inp.hal = sampleOf p.2.inp.hal)
    (hcond : ∀ p ∈ ps, p.1.pre.est.calibrated = true →
      endsArmed p.1 = endsArmed p.2 ∨ rejectedSample p.1 = true) :
    ∀ p ∈ ps, p.1.post.est.getAttitude = p.2.post.est.getAttitude := by
  have hdisarmed : ArmedCalibrated c₀ := by
    intro h
    rw [hboot, boot] at h
    split_ifs at h <;> cases h
  intro p hp
  obtain ⟨-, hpost⟩ := (hrun.pair hrun' (P := Alike) ⟨rfl, hdisarmed, hdisarmed⟩ fun p hp hpre hs hs' =>
    hpre.step hs hs' (hno p hp) (himu p hp) (hcond p hp)).2 p hp
  rw [hpost.est]
  rfl

/-- A tick of a craft that rolls at 0.1 rad/s. -/
def rollTick (t : UInt64) (raw : List UInt8) : TickInput ℚ :=
  let i := levelTick t raw false
  { i with hal := { i.hal with imu := { i.hal.imu with gyroRps := ![.fin (1 / 10), 0, 0] } } }

/-- Twelve ticks of a rolling craft with a frame each, of which the tenth arms. -/
def rollTicks : List (TickInput ℚ) :=
  (List.range' 201 12).map fun k => rollTick (UInt64.ofNat (1000 * k)) armFrame

/-- The same tick with a lower battery voltage and, in its frame, the yaw stick full right. -/
def disturbed (i : TickInput ℚ) : TickInput ℚ :=
  { i with
    hal := { i.hal with
      rcRaw := i.hal.rcRaw.map fun raw =>
        if raw = armFrame then sbusEncode [992, 992, 172, 1811, 1811] 0 else raw
      vbat := .fin (36 / 10) } }

set_option maxRecDepth 10000 in
/-- Two calibrated crafts that arm with the same frame and roll alike follow the roll alike, although the
sticks and the battery of one differ from those of the other. -/
theorem attitude_follows_imu_rolling :
    ∃ (ps : List (Tick ℚ × Tick ℚ)) (c d : FlightContext ℚ),
      Run tickStep (.boot 1 .kRateOnly) (ps.map Prod.fst) c ∧
      Run tickStep (.boot 1 .kRateOnly) (ps.map Prod.snd) d ∧
      (∃ p ∈ ps, p.1.pre.est.calibrated = true ∧ p.1.post.fs.armed = true ∧ p.2.post.fs.armed = true ∧
        p.1.out.sensed.rc.yaw ≠ p.2.out.sensed.rc.yaw ∧ p.1.inp.hal.vbat ≠ p.2.inp.hal.vbat ∧
        p.1.post.est.roll ≠ p.1.pre.est.roll) ∧
      ∀ p ∈ ps, p.1.post.est.getAttitude = p.2.post.est.getAttitude := by
  obtain ⟨pre, hpre⟩ := execute_calibTicks
  have hrun : ((execute (tick 2) calibratedCraft rollTicks).any fun r =>
        (execute (tick 2) calibratedCraft (rollTicks.map disturbed)).any fun q =>
          decide ((∀ p ∈ r.1.zip q.1, endsArmed p.1 = endsArmed p.2) ∧
            ∃ p ∈ r.1.zip q.1, p.1.pre.est.calibrated = true ∧ p.1.post.fs.armed = true ∧
              p.2.post.fs.armed = true ∧ p.1.out.sensed.rc.yaw ≠ p.2.out.sensed.rc.yaw ∧
              p.1.inp.hal.vbat ≠ p.2.inp.hal.vbat ∧ p.1.post.est.roll ≠ p.1.pre.est.roll)) = true := by
    decide +kernel
  obtain ⟨⟨es, c⟩, hes, hrun⟩ := (Option.any_eq_true _ _).mp hrun
  obtain ⟨⟨es', d⟩, hes', hrun⟩ := (Option.any_eq_true _ _).mp hrun
  obtain ⟨harms, p, hp, hfuses⟩ := of_decide_eq_true hrun
  obtain ⟨hleft, hright, hinp⟩ := ticks_fork hpre hes hes'
  have hno : ∀ i ∈ calibTicks ++ rollTicks, i.armTest = false := by decide
  have hboot : (FlightContext.boot 1 .kRateOnly : FlightContext ℚ).fs = boot 1 := rfl
  refine ⟨_, c, d, hleft, hright, ⟨p, List.mem_append_right _ hp, hfuses⟩,
    attitude_follows_imu hboot hleft hright ?_ ?_ ?_⟩
  · intro p hp
    obtain ⟨hmem, hsame | ⟨-, hsame⟩⟩ := hinp p hp
    · rw [hsame]
      exact ⟨hno _ hmem, hno _ hmem⟩
    · have harm : p.1.inp.armTest = false := hno _ hmem
      rw [hsame]
      exact ⟨harm, harm⟩
  · intro p hp
    obtain ⟨-, hsame | ⟨-, hsame⟩⟩ := hinp p hp
    · rw [hsame]
    · rw [hsame]
      rfl
  · intro p hp _
    obtain ⟨-, hsame | ⟨hzip, -⟩⟩ := hinp p hp
    · rw [hsame]
      exact .inl rfl
    · exact .inl (harms p hzip)

/-- The same tick with the RC bytes taken out, as if the receiver had sent nothing. -/
def withoutRc (i : TickInput ℚ) : TickInput ℚ := { i with hal := { i.hal with rcRaw := none } }

set_option maxRecDepth 10000 in
/-- The craft that is armed rolls in its own estimate, the craft that is not does not. -/
theorem attitude_follows_arm_switch :
    ¬ ∀ (resetReason : UInt32) (c₀ c d : FlightContext ℚ) (ps : List (Tick ℚ × Tick ℚ)),
      c₀.fs = boot resetReason → Run tickStep c₀ (ps.map Prod.fst) c →
      Run tickStep c₀ (ps.map Prod.snd) d →
      (∀ p ∈ ps, p.1.inp.armTest = false ∧ p.2.inp.armTest = false) →
      (∀ p ∈ ps, sampleOf p.1.inp.hal = sampleOf p.2.inp.hal) →
      ∀ p ∈ ps, p.1.pre.est.calibrated = true → p.2.pre.est.calibrated = true →
        p.1.post.est.getAttitude = p.2.post.est.getAttitude := by
  intro h
  obtain ⟨pre, hpre⟩ := execute_calibTicks
  have hrun : ((execute (tick 2) calibratedCraft rollTicks).any fun r =>
        (execute (tick 2) calibratedCraft (rollTicks.map withoutRc)).any fun q =>
          decide (∃ p ∈ r.1.zip q.1, p.1.pre.est.calibrated = true ∧ p.2.pre.est.calibrated = true ∧
            p.1.post.est.roll ≠ p.2.post.est.roll)) = true := by
    decide +kernel
  obtain ⟨⟨es, c⟩, hes, hrun⟩ := (Option.any_eq_true _ _).mp hrun
  obtain ⟨⟨es', d⟩, hes', hrun⟩ := (Option.any_eq_true _ _).mp hrun
  obtain ⟨p, hp, hcal, hcal', hroll⟩ := of_decide_eq_true hrun
  obtain ⟨hleft, hright, hinp⟩ := ticks_fork hpre hes hes'
  have hno : ∀ i ∈ calibTicks ++ rollTicks, i.armTest = false := by decide
  refine hroll (congrFun (h 1 _ c d _ rfl hleft hright ?_ ?_ p (List.mem_append_right _ hp) hcal hcal') 0)
  · intro p hp
    obtain ⟨hmem, hsame | ⟨-, hsame⟩⟩ := hinp p hp
    · rw [hsame]
      exact ⟨hno _ hmem, hno _ hmem⟩
    · have harm : p.1.inp.armTest = false := hno _ hmem
      rw [hsame]
      exact ⟨harm, harm⟩
  · intro p hp
    obtain ⟨-, hsame | ⟨-, hsame⟩⟩ := hinp p hp
    · rw [hsame]
    · rw [hsame]
      rfl

end ControlLoop

end DroneMini
