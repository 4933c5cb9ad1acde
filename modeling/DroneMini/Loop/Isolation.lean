import DroneMini.Loop.Latch

/-!
# What an invalid IMU sample can do to the motors

Two runs of ticks read the same inputs, but for the gyro and the accelerometer of samples that are not
valid (`HideInvalid`). Failsafe, calibration and fusion do not look at such a sample; the rate controller
does. So the two runs stay equal up to the first sample whose gyro it can tell apart (`TellsApart`),
and from there on in everything but the rate controller (`SameButRate`, `tick_hide`). The motor
commands of both runs are the same as long as no tick from such a sample on is armed
(`invalid_imu_isolated`); while the IMU fault is being debounced an armed craft follows the sample
(`invalid_imu_drives_motors`).
-/

namespace DroneMini

variable {K : Type} [Field K] [LinearOrder K] [FloatEnv K]

/-! ## The consumers of a sample -/

/-- Two values are the same to a consumer that rejects non-finite ones. -/
def Flt.Agree (v w : Flt K) : Prop := v = w ∨ v.isFinite = false ∧ w.isFinite = false

omit [LinearOrder K] [FloatEnv K] in
/-- Two values that agree still do after both have been negated. -/
theorem Flt.Agree.neg {v w : Flt K} (h : v.Agree w) : (-v).Agree (-w) := by
  rcases h with rfl | ⟨hv, hw⟩
  · exact .inl rfl
  · exact .inr ⟨(isFinite_neg v).trans hv, (isFinite_neg w).trans hw⟩

omit [LinearOrder K] in
/-- Two values that agree still do after the same value has been subtracted from both. -/
theorem Flt.Agree.sub {v w : Flt K} (h : v.Agree w) (b : Flt K) : (v - b).Agree (w - b) := by
  rcases h with rfl | ⟨hv, hw⟩
  · exact .inl rfl
  · exact .inr ⟨isFinite_sub_of_left hv, isFinite_sub_of_left hw⟩

/-- A PID unit rejects a measurement that is not finite. -/
theorem Pid.step_of_not_finite (pid : Pid K) (sp dt : Flt K) {meas : Flt K} (satPos satNeg : Bool)
    (h : meas.isFinite = false) : pid.step sp meas dt satPos satNeg = (pid, 0) := by
  unfold step
  exact if_pos (by simp [rejects, h])

/-- A PID unit does not tell measurements apart that agree. -/
theorem Pid.step_congr (pid : Pid K) (sp dt : Flt K) {v w : Flt K} (satPos satNeg : Bool)
    (h : v.Agree w) : pid.step sp v dt satPos satNeg = pid.step sp w dt satPos satNeg := by
  rcases h with rfl | ⟨hv, hw⟩
  · rfl
  · rw [step_of_not_finite pid sp dt satPos satNeg hv, step_of_not_finite pid sp dt satPos satNeg hw]

/-- The rate controller only tells the gyro of two samples apart. -/
theorem RateController.update_congr (rate : RateController K) (sp : RateSp K) {imu imu' : ImuSample K}
    (h : ∀ i, (imu.gyroRps i).Agree (imu'.gyroRps i)) : rate.update imu sp = rate.update imu' sp := by
  unfold update
  simp only [Pid.step_congr _ _ _ _ _ (h 0), Pid.step_congr _ _ _ _ _ (h 1).neg,
    Pid.step_congr _ _ _ _ _ (h 2)]

/-- Two samples are the same to a consumer that rejects invalid ones. -/
def ImuSample.Agree (imu imu' : ImuSample K) : Prop :=
  imu' = imu ∨ imu.valid = false ∧ imu'.valid = false

/-- The calibration comes to the same on two samples that agree, since it does not look at an invalid one. -/
theorem ComplementaryEstimator.calibrateUpdate_congr (est : ComplementaryEstimator K)
    {imu imu' : ImuSample K} (h : imu.Agree imu') :
    est.calibrateUpdate imu' = est.calibrateUpdate imu := by
  rcases h with rfl | ⟨h, h'⟩
  · rfl
  · unfold calibrateUpdate
    simp [h, h']

/-- The fusion comes to the same on two samples that agree, since it does not look at an invalid one. -/
theorem ComplementaryEstimator.update_congr (est : ComplementaryEstimator K) (fuel : Nat) (dt : Flt K)
    {imu imu' : ImuSample K} (h : imu.Agree imu') :
    est.update fuel imu' dt = est.update fuel imu dt := by
  rcases h with rfl | ⟨h, h'⟩
  · rfl
  · unfold update
    simp [rejects, h, h']

/-- The arm state machine does not look at invalid samples. -/
theorem FailsafeFsm.update_congr (fs : FailsafeFsm) {u : UpdateArgs K} {imu' : ImuSample K}
    (h : u.imu.Agree imu') : fs.update { u with imu := imu' } = fs.update u := by
  rcases h with rfl | ⟨h, h'⟩
  · rfl
  · unfold update
    simp [imuDebounce, imuBad, h, h']

namespace ControlLoop

/-! ## Inputs that differ in invalid samples -/

/-- The IMU sample a tick uses: the one it read, marked as invalid where the read failed. -/
def sampleOf (h : HalReads K) : ImuSample K := if h.imuOk then h.imu else { h.imu with valid := false }

/-- Two tick inputs that are identical, but for the gyro and the accelerometer of an invalid sample. -/
structure HideInvalid (i j : TickInput K) : Prop where
  others : j = { i with hal := { i.hal with imu := j.hal.imu } }
  imu : j.hal.imu = i.hal.imu ∨ (sampleOf i.hal).valid = false ∧
    j.hal.imu = { i.hal.imu with gyroRps := j.hal.imu.gyroRps, accelMps2 := j.hal.imu.accelMps2 }

/-- A tick in the given mode can tell two inputs apart by the gyro of the sample. -/
def TellsApart (mode : ControlMode) (i j : TickInput K) : Prop :=
  mode ≠ .kOpenLoop ∧ ∃ k, ¬ (i.hal.imu.gyroRps k).Agree (j.hal.imu.gyroRps k)

/-- Two contexts that agree in everything but the rate controller and its last shift. -/
def SameButRate (c d : FlightContext K) : Prop :=
  d = { c with rate := d.rate, satShift := d.satShift }

omit [Field K] [LinearOrder K] [FloatEnv K] in
/-- The sample a tick uses has the gyro the HAL gave. -/
theorem sampleOf_gyro (h : HalReads K) : (sampleOf h).gyroRps = h.imu.gyroRps := by
  unfold sampleOf
  split_ifs
  · rfl
  · rfl

omit [Field K] [LinearOrder K] [FloatEnv K] in
/-- The samples of two ticks whose inputs differ in an invalid sample only are the same to a consumer that
rejects invalid ones. -/
theorem HideInvalid.sample {i j : TickInput K} (h : HideInvalid i j) :
    (sampleOf i.hal).Agree (sampleOf j.hal) := by
  have hok : j.hal.imuOk = i.hal.imuOk := by rw [h.others]
  rcases h.imu with himu | ⟨hvalid, himu⟩
  · refine .inl ?_
    rw [sampleOf, sampleOf, hok, himu]
  · refine .inr ⟨hvalid, ?_⟩
    rw [sampleOf] at hvalid ⊢
    rw [hok]
    cases hi : i.hal.imuOk with
    | false => rfl
    | true =>
        rw [hi] at hvalid
        rw [himu]
        exact hvalid

omit [LinearOrder K] in
/-- Correcting the bias leaves two samples that agree in agreement. -/
theorem correct_agree (est : ComplementaryEstimator K) {imu imu' : ImuSample K}
    (h : imu.Agree imu') : (correct est imu).Agree (correct est imu') := by
  rcases h with rfl | ⟨h, h'⟩
  · exact .inl rfl
  · refine .inr ?_
    unfold correct
    split_ifs
    · exact ⟨h, h'⟩
    · exact ⟨h, h'⟩

omit [LinearOrder K] in
/-- Correcting the bias leaves the gyros of two samples in agreement, axis by axis. -/
theorem correct_gyro (est : ComplementaryEstimator K) {imu imu' : ImuSample K}
    (h : ∀ k, (imu.gyroRps k).Agree (imu'.gyroRps k)) (k : Fin 3) :
    ((correct est imu).gyroRps k).Agree ((correct est imu').gyroRps k) := by
  unfold correct
  split_ifs
  · exact (h k).sub _
  · exact h k

/-- A tick that reads another IMU sample in the same place learns the same of everything but the IMU. -/
theorem sense_imu (p : SbusParser) (h : HalReads K) (imu : ImuSample K) :
    sense p { h with imu := imu } =
      (sense p h).map fun s => { s with imu := sampleOf { h with imu := imu } } := by
  unfold sense
  rw [show ({ h with imu := imu } : HalReads K).raw = h.raw from rfl]
  by_cases h0 : h.raw.length = 0
  · rw [if_pos h0, if_pos h0]
    rfl
  · rw [if_neg h0, if_neg h0]
    cases p.feed h.raw (RcSample.zero : RcSample K) with
    | none => rfl
    | some r => rfl

/-- The control reads nothing but the gyro from a sample, and only in a closed-loop mode. -/
theorem control_hide {fuel : Nat} {c d : FlightContext K} (hcd : SameButRate c d) {rc : RcSample K}
    {imu : ImuSample K} (imu' : ImuSample K) {r : RateController K × PwmCmd K × Flt K}
    (h : control fuel c rc imu = some r) :
    ∃ r', control fuel d rc imu' = some r' ∧ (d.rate = c.rate →
      (c.mode = .kOpenLoop ∨ ∀ k, (imu.gyroRps k).Agree (imu'.gyroRps k)) → r' = r) := by
  obtain ⟨rate, shift, rfl⟩ : ∃ rate shift, d = { c with rate := rate, satShift := shift } :=
    ⟨_, _, hcd⟩
  have hrate : ∀ sp, rate = c.rate → (∀ k, (imu.gyroRps k).Agree (imu'.gyroRps k)) →
      rate.update imu' sp = c.rate.update imu sp := by
    rintro sp rfl hgyro
    exact (RateController.update_congr _ sp hgyro).symm
  unfold control at h ⊢
  cases hmode : c.mode with
  | kOpenLoop =>
      simp only [hmode] at h ⊢
      split_ifs at h ⊢
      · cases h
        exact ⟨_, rfl, fun hd _ => by rw [hd]⟩
      · cases h
        exact ⟨_, rfl, fun hd _ => by rw [hd]⟩
  | kRateOnly =>
      simp only [hmode, Option.some.injEq] at h ⊢
      subst h
      exact ⟨_, rfl, fun hd hgyro => hrate _ hd (by simpa using hgyro)⟩
  | kAttitude =>
      simp only [hmode] at h ⊢
      obtain ⟨sp, hsp, h⟩ := Option.bind_eq_some_iff.mp h
      cases h
      exact ⟨_, Option.bind_eq_some_iff.mpr ⟨sp, hsp, rfl⟩,
        fun hd hgyro => hrate _ hd (by simpa using hgyro)⟩

/-- The estimation of a tick comes to the same on two samples that agree, since it does not look at an invalid
one. -/
theorem estimate_hide {fuel : Nat} {est : ComplementaryEstimator K} {armed : Bool}
    {imu imu' : ImuSample K} (h : imu.Agree imu') :
    estimate fuel est armed imu' (correct est imu') = estimate fuel est armed imu (correct est imu) := by
  unfold estimate
  split_ifs
  · exact est.update_congr fuel kControlDtS (correct_agree est h)
  · rw [est.calibrateUpdate_congr h]

/-- **One tick on inputs that differ in an invalid sample.** -/
theorem tick_hide {fuel : Nat} {c c' d : FlightContext K} {i j : TickInput K} {out : TickOutput K}
    (hcd : SameButRate c d) (hij : HideInvalid i j) (h : tick fuel c i = some (c', out)) :
    ∃ d' out', tick fuel d j = some (d', out') ∧ SameButRate c' d' ∧
      (c'.fs.armed = false → out'.calls = out.calls) ∧
      (d = c → ¬ TellsApart c.mode i j → d' = c' ∧ out'.calls = out.calls) := by
  have spec := tick_spec h
  have hsample : out.sensed.imu = sampleOf i.hal := spec.sensed.imu
  have hagree := hij.sample
  rw [← hsample] at hagree
  obtain ⟨rate, shift, rfl⟩ : ∃ rate shift, d = { c with rate := rate, satShift := shift } :=
    ⟨_, _, hcd⟩
  obtain ⟨hal, armTest⟩ := j
  obtain ⟨imu, rfl⟩ : ∃ imu, hal = { i.hal with imu := imu } :=
    ⟨hal.imu, congrArg TickInput.hal hij.others⟩
  obtain rfl : armTest = i.armTest := congrArg TickInput.armTest hij.others
  have hsense := sense_imu c.rc i.hal imu
  rw [spec.sense, Option.map_some] at hsense
  have hfs := c.fs.update_congr (u := fsArgs c i out.sensed) hagree
  rw [← spec.fs] at hfs
  have hest := (estimate_hide hagree).trans spec.est
  have hbefore : SameButRate { c with est := c'.est }
      { c with est := c'.est, rate := rate, satShift := shift } := rfl
  obtain ⟨r, hctl, hsame⟩ :=
    control_hide hbefore (correct c.est (sampleOf { i.hal with imu := imu })) spec.control
  have htick := tick_eq spec.sense spec.fs.symm spec.est spec.control
  rw [h, Option.some.injEq, Prod.mk.injEq] at htick
  obtain ⟨hc', hout⟩ := htick
  refine ⟨_, _, tick_eq hsense hfs hest hctl, ?_, ?_, ?_⟩
  · rw [hc']
    rfl
  · intro harmed
    rw [spec.calls, harmed]
    rfl
  · intro hd hblind
    have hrate : rate = c.rate := congrArg FlightContext.rate hd
    have hr := hsame hrate ?_
    · rw [hr]
      exact ⟨hc'.symm, (congrArg TickOutput.calls hout).symm⟩
    · rw [hsample]
      refine or_iff_not_imp_left.mpr fun hmode k => correct_gyro c.est (fun k => ?_) k
      rw [sampleOf_gyro, sampleOf_gyro]
      exact not_not.mp fun hk => hblind ⟨hmode, k, hk⟩

/-! ## Two runs -/

/-- The motor commands of a run, tick by tick, as the calls that each tick makes to the outputs. -/
def pwmCalls (es : List (Tick K)) : List (List (HalCall K)) :=
  es.map fun e => e.out.calls.filter HalCall.isPwm

omit [Field K] [LinearOrder K] [FloatEnv K] in
/-- The motor commands of a run and one more tick. -/
theorem pwmCalls_snoc (es : List (Tick K)) (e : Tick K) :
    pwmCalls (es ++ [e]) = pwmCalls es ++ [e.out.calls.filter HalCall.isPwm] := by
  rw [pwmCalls, List.map_append]
  rfl

/-- From its state before a tick and the inputs of the tick, the arm state machine does not arm. -/
def NotArmed (x : Tick K) : Prop :=
  ∀ s ∈ sense x.pre.rc x.inp.hal, (x.pre.fs.update (fsArgs x.pre x.inp s)).armed = false

instance : DecidablePred (NotArmed : Tick K → Prop) := fun x =>
  inferInstanceAs (Decidable (∀ s ∈ sense x.pre.rc x.inp.hal, (x.pre.fs.update (fsArgs x.pre x.inp s)).armed = false))

/-- From the first sample that tells the inputs of two runs apart, no tick is armed. -/
def DisarmedOnceApart (ps : List (Tick K × TickInput K)) : Prop :=
  ∀ hist p later, ps = hist ++ p :: later →
    (∃ q ∈ hist ++ [p], TellsApart q.1.pre.mode q.1.inp q.2) → NotArmed p.1

/-- A tick on which the arm state machine does not arm ends disarmed. -/
theorem NotArmed.post {x : Tick K} {fuel : Nat} (h : NotArmed x)
    (spec : TickSpec fuel x.pre x.inp x.post x.out) : x.post.fs.armed = false := by
  rw [spec.fs]
  exact h _ spec.sense

/-- A second run on inputs that differ in invalid samples: it commands the motors like the first, and
it is in the same state unless a sample told the inputs apart. -/
theorem hide_run {c d : FlightContext K} {ps : List (Tick K × TickInput K)}
    (hrun : Run tickStep c (ps.map Prod.fst) d) (hhide : ∀ p ∈ ps, HideInvalid p.1.inp p.2)
    (hdis : DisarmedOnceApart ps) :
    ∃ es' d', Run tickStep c es' d' ∧ es'.map Event.inp = ps.map Prod.snd ∧ SameButRate d d' ∧
      pwmCalls es' = pwmCalls (ps.map Prod.fst) ∧
      (d' = d ∨ ∃ q ∈ ps, TellsApart q.1.pre.mode q.1.inp q.2) := by
  induction ps using List.reverseRecOn generalizing d with
  | nil =>
      obtain rfl := hrun.nil_inv
      exact ⟨[], d, .nil d, rfl, rfl, rfl, .inl rfl⟩
  | append_singleton ps p ih =>
      rw [List.map_append, List.map_singleton] at hrun
      obtain ⟨hbefore, ⟨fuel, htick⟩, rfl⟩ := hrun.snoc_inv
      have hdis' : DisarmedOnceApart ps := fun hist q later hsplit =>
        hdis hist q (later ++ [p]) (by rw [hsplit, List.append_assoc, List.cons_append])
      obtain ⟨es', d', hrun', hinp, hsame, hcalls, hstate⟩ :=
        ih hbefore (fun q hq => hhide q (by simp [hq])) hdis'
      obtain ⟨d'', out, htick', hsame', hoff, hkeep⟩ := tick_hide hsame (hhide p (by simp)) htick
      refine ⟨es' ++ [⟨d', p.2, d'', out⟩], d'', .snoc hrun' ⟨fuel, htick'⟩, ?_, hsame', ?_, ?_⟩
      · rw [List.map_append, List.map_append, hinp]
        rfl
      · have hlast : out.calls = p.1.out.calls := by
          by_cases hapart : ∃ q ∈ ps ++ [p], TellsApart q.1.pre.mode q.1.inp q.2
          · exact hoff ((hdis ps p [] rfl hapart).post (tick_spec htick))
          · rcases hstate with rfl | ⟨q, hq, hq'⟩
            · exact (hkeep rfl fun hp => hapart ⟨p, by simp, hp⟩).2
            · exact absurd ⟨q, by simp [hq], hq'⟩ hapart
        rw [List.map_append, List.map_singleton, pwmCalls_snoc, pwmCalls_snoc, hcalls, hlast]
      · by_cases hapart : ∃ q ∈ ps ++ [p], TellsApart q.1.pre.mode q.1.inp q.2
        · exact .inr hapart
        · rcases hstate with rfl | ⟨q, hq, hq'⟩
          · exact .inl (hkeep rfl fun hp => hapart ⟨p, by simp, hp⟩).1
          · exact absurd ⟨q, by simp [hq], hq'⟩ hapart

/-- **When an invalid sample cannot reach the motors.** Two sequences of tick inputs that are identical
but for the gyro and the accelerometer of invalid samples, from the same context. The second runs like
the first and commands the motors alike, if from the first invalid sample on whose gyro a closed-loop
tick can tell the two apart no tick is armed. -/
theorem invalid_imu_isolated {c d : FlightContext K} {ps : List (Tick K × TickInput K)}
    (hrun : Run tickStep c (ps.map Prod.fst) d) (hhide : ∀ p ∈ ps, HideInvalid p.1.inp p.2)
    (hdis : DisarmedOnceApart ps) :
    (∃ es' d', Run tickStep c es' d' ∧ es'.map Event.inp = ps.map Prod.snd) ∧
      ∀ es' d', Run tickStep c es' d' → es'.map Event.inp = ps.map Prod.snd →
        pwmCalls es' = pwmCalls (ps.map Prod.fst) := by
  obtain ⟨es', d', hrun', hinp, -, hcalls, -⟩ := hide_run hrun hhide hdis
  refine ⟨⟨es', d', hrun', hinp⟩, fun es'' d'' hrun'' hinp'' => ?_⟩
  have hdet : ∀ (a : FlightContext K) i b o b' o', tickStep a i b o → tickStep a i b' o' →
      b = b' ∧ o = o' := fun _ _ _ _ _ _ => tickStep_det
  obtain ⟨rfl, -⟩ := hrun'.det hdet hrun'' (hinp.trans hinp''.symm)
  exact hcalls

/-- A run that reads the same inputs for a while and does not arm from then on. -/
theorem disarmedOnceApart_append {pre post : List (Tick K × TickInput K)} (hpre : ∀ q ∈ pre, q.2 = q.1.inp)
    (hpost : ∀ p ∈ post, NotArmed p.1) : DisarmedOnceApart (pre ++ post) := by
  rintro hist p later hsplit ⟨q, hq, -, k, happart⟩
  have hlate : ¬ q ∈ pre := fun hmem => happart (.inl (by rw [hpre q hmem]))
  rw [List.append_cons, List.append_eq_append_iff] at hsplit
  rcases hsplit with ⟨as, hhist, hbehind⟩ | ⟨as, rfl, -⟩
  · rcases List.eq_nil_or_concat as with rfl | ⟨as, p', rfl⟩
    · rw [hhist, List.append_nil] at hq
      exact absurd hq hlate
    · rw [List.concat_eq_append, ← List.append_assoc] at hhist
      obtain ⟨-, hp⟩ := List.append_inj' hhist rfl
      obtain rfl : p = p' := List.singleton_inj.mp hp
      exact hpost p (by simp [hbehind])
  · exact absurd (List.mem_append_left as hq) hlate

/-- A tick with `arm_test` held down: the roll rate and the validity of its sample, and its battery voltage. -/
def rollingTick (k : Nat) (rollRate vbat : ℚ) (valid : Bool) : TickInput ℚ :=
  let i := levelTick (UInt64.ofNat (1000 * k)) [] true
  { i with
    hal :=
      { i.hal with
        imuOk := valid
        imu := { FailsafeFsm.level with valid := valid, gyroRps := ![.fin rollRate, 0, 0] }
        vbat := .fin vbat } }

/-- The first tick of an explicitly armed craft whose IMU sample is invalid, with a roll rate in it. -/
def invalidTick (rollRate : ℚ) : TickInput ℚ := rollingTick 1 rollRate (38 / 10) false

/-- A tick that arms a rolling craft, and one that disarms it for its battery. -/
def brownoutTicks : List (TickInput ℚ) := [rollingTick 1 1 (38 / 10) true, rollingTick 2 1 3 true]

/-- Four ticks of the disarmed craft, behind `brownoutTicks`, whose samples are invalid and carry a roll
rate. -/
def deadTicks (rollRate : ℚ) : List (TickInput ℚ) :=
  (List.range' 3 4).map fun k => rollingTick k rollRate (38 / 10) false

/-- A tick and the same tick with another roll rate in an invalid sample. -/
theorem rollingTick_hide (k : Nat) (v w vbat : ℚ) :
    HideInvalid (rollingTick k v vbat false) (rollingTick k w vbat false) :=
  ⟨rfl, .inr ⟨rfl, rfl⟩⟩

/-- A call of a tick that drives the first motor: its duty is not zero. -/
def turnsFirst : HalCall ℚ → Bool
  | .pwmWrite cmd => decide (cmd.mot 0 ≠ 0)
  | _ => false

/-- A craft in rate mode whose motors turn, and which a flat battery then disarms. The invalid samples that follow
have it roll to the one side in the first run and to the other in the second, so the integrators of the two rate
controllers part; the motor commands of the two runs are the same. -/
theorem invalid_imu_isolated_brownout :
    ∃ (es es' : List (Tick ℚ)) (d d' : FlightContext ℚ), Run tickStep (.boot 1 .kRateOnly) es d ∧
      es.map Event.inp = brownoutTicks ++ deadTicks 1 ∧ Run tickStep (.boot 1 .kRateOnly) es' d' ∧
      es'.map Event.inp = brownoutTicks ++ deadTicks (-1) ∧ (d'.rate.pids 0).i ≠ (d.rate.pids 0).i ∧
      (pwmCalls es).any (fun calls => calls.any turnsFirst) = true ∧ pwmCalls es' = pwmCalls es := by
  have hrun : (execute (tick 1) (.boot 1 .kRateOnly) brownoutTicks).any (fun s =>
      (execute (tick 1) s.2 (deadTicks 1)).any fun r => (execute (tick 1) s.2 (deadTicks (-1))).any fun q =>
        decide ((∀ x ∈ r.1, NotArmed x) ∧ (q.2.rate.pids 0).i ≠ (r.2.rate.pids 0).i ∧
          (pwmCalls s.1).any (fun calls => calls.any turnsFirst) = true)) = true := by
    decide +kernel
  obtain ⟨⟨pre, t⟩, hpre, hrun⟩ := (Option.any_eq_true _ _).mp hrun
  obtain ⟨⟨post, d⟩, hpost, hrun⟩ := (Option.any_eq_true _ _).mp hrun
  obtain ⟨⟨post', d'⟩, hpost', hrun⟩ := (Option.any_eq_true _ _).mp hrun
  obtain ⟨hdisarmed, hapart, hturns⟩ := of_decide_eq_true hrun
  let ps : List (Tick ℚ × TickInput ℚ) := pre.map (fun e => (e, e.inp)) ++ post.zip (deadTicks (-1))
  have hinp := execute_inputs hpost
  have hlen : post.length = (deadTicks (-1)).length := by
    rw [← List.length_map (f := Event.inp), hinp]
    rfl
  have hfst : ps.map Prod.fst = pre ++ post := by
    have hcopy : (pre.map fun e => (e, e.inp)).map Prod.fst = pre := by
      rw [List.map_map]
      exact List.map_id pre
    rw [List.map_append, hcopy, List.map_fst_zip hlen.le]
  have hsnd : ps.map Prod.snd = brownoutTicks ++ deadTicks (-1) := by
    have hcopy : (pre.map fun e => (e, e.inp)).map Prod.snd = pre.map Event.inp := by
      rw [List.map_map]
      rfl
    rw [List.map_append, hcopy, execute_inputs hpre, List.map_snd_zip hlen.ge]
  have hleft : Run tickStep (.boot 1 .kRateOnly) (ps.map Prod.fst) d :=
    hfst ▸ (ticks_run hpre).append (ticks_run hpost)
  have hright := (ticks_run hpre).append (ticks_run hpost')
  have hright_inp : (pre ++ post').map Event.inp = brownoutTicks ++ deadTicks (-1) := by
    rw [List.map_append, execute_inputs hpre, execute_inputs hpost']
  have hhide : ∀ p ∈ ps, HideInvalid p.1.inp p.2 := by
    intro p hp
    rcases List.mem_append.mp hp with hp | hp
    · obtain ⟨e, -, rfl⟩ := List.mem_map.mp hp
      exact ⟨rfl, .inl rfl⟩
    · have hpair : (p.1.inp, p.2) ∈ (deadTicks 1).zip (deadTicks (-1)) := by
        rw [← hinp, ← List.map_id (deadTicks (-1)), List.zip_map]
        exact List.mem_map_of_mem (f := Prod.map Event.inp id) hp
      rw [deadTicks, deadTicks, List.zip_map', List.mem_map] at hpair
      obtain ⟨k, -, hk⟩ := hpair
      obtain ⟨hleft, hright⟩ := Prod.mk.inj hk
      rw [← hleft, ← hright]
      exact rollingTick_hide k 1 (-1) _
  have hdis : DisarmedOnceApart ps := by
    refine disarmedOnceApart_append ?_ fun p hp => hdisarmed p.1 (List.of_mem_zip hp).1
    rintro q hq
    obtain ⟨e, -, rfl⟩ := List.mem_map.mp hq
    rfl
  have hsame := (invalid_imu_isolated hleft hhide hdis).2 _ d' hright (hright_inp.trans hsnd.symm)
  refine ⟨pre ++ post, pre ++ post', d, d', (ticks_run hpre).append (ticks_run hpost), ?_, hright, hright_inp,
    hapart, ?_, hfst ▸ hsame⟩
  · rw [List.map_append, execute_inputs hpre, hinp]
  · rw [pwmCalls, List.map_append, List.any_append, Bool.or_eq_true]
    exact .inl hturns

/-- An armed craft in rate mode follows the roll rate of an invalid sample. -/
theorem invalid_imu_drives_motors :
    ¬ ∀ (c d d' : FlightContext ℚ) (es es' : List (Tick ℚ)), Run tickStep c es d →
      Run tickStep c es' d' → List.Forall₂ (fun x y => HideInvalid x.inp y.inp) es es' →
      pwmCalls es = pwmCalls es' := by
  intro h
  have hturns : (tick 1 (.boot 1 .kRateOnly) (invalidTick 1)).any fun r =>
      (r.2.calls.filter HalCall.isPwm).any turnsFirst := by
    decide +kernel
  have hrests : (tick 1 (.boot 1 .kRateOnly) (invalidTick 0)).any fun r =>
      !(r.2.calls.filter HalCall.isPwm).any turnsFirst := by
    decide +kernel
  obtain ⟨⟨d, out⟩, htick, hturns⟩ := (Option.any_eq_true _ _).mp hturns
  obtain ⟨⟨d', out'⟩, htick', hrests⟩ := (Option.any_eq_true _ _).mp hrests
  have hhide : List.Forall₂ (fun x y : Tick ℚ => HideInvalid x.inp y.inp)
      ([] ++ [⟨.boot 1 .kRateOnly, invalidTick 1, d, out⟩])
      ([] ++ [⟨.boot 1 .kRateOnly, invalidTick 0, d', out'⟩]) :=
    .cons (rollingTick_hide 1 1 0 _) .nil
  have hsame := h _ d d' _ _ (.snoc (.nil _) ⟨1, htick⟩) (.snoc (.nil _) ⟨1, htick'⟩) hhide
  have hcalls : out.calls.filter HalCall.isPwm = out'.calls.filter HalCall.isPwm :=
    List.singleton_inj.mp hsame
  replace hrests : (!(out'.calls.filter HalCall.isPwm).any turnsFirst) = true := hrests
  rw [← hcalls, show (out.calls.filter HalCall.isPwm).any turnsFirst = true from hturns] at hrests
  cases hrests

end ControlLoop

end DroneMini
