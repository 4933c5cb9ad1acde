import DroneMini.Loop.Calibration
import DroneMini.Sbus.Encode
import DroneMini.Sim.FaultLog

/-!
# What a log says about arming

The log of a session read as a record of its arm state (`arming_logged`). With `arm_test` the craft is armed
from the first tick to the first fault behind it. Without, a row is one of an armed craft exactly when the
boot was clean, no tick up to it was faulty, and some tick up to it had armed the craft (`Arms`: calibrated,
throttle closed, the tenth frame in a row) with a frame in every tick since and the arm switch on in each of them
(`Flying`). In all other rows the motors are off.
-/

namespace DroneMini

/-- An update without `arm_test` ends armed exactly if nothing is latched or faulty, the switch is on, and the
craft was armed or may arm now. -/
theorem FailsafeFsm.update_armed_iff {K : Type} [Field K] [LinearOrder K] [FloatEnv K] {fs : FailsafeFsm}
    {u : UpdateArgs K} (hinv : Inv fs) (hno : u.armTest = false) : (fs.update u).armed = true ↔
      fs.bootLatched = false ∧ ¬ (fs.active = true ∨ fs.FaultObserved u) ∧
        (u.rc.frameOk && u.rc.armedSwitch) = true ∧
        (fs.armed = true ∨ u.calibrated = true ∧ kArmMinGoodFrames ≤ fs.goodFramesNext u.rc ∧
          u.rc.throttle ≤ kArmThrottleMax) := by
  rw [update_armed, armedNext, edge_of_not hno, hno, hinv.latched]
  cases hboot : fs.bootLatched with
  | true => simp
  | false => simp [rcArms, not_or, and_assoc]

namespace ClosedLoop

open PlantRunner FailsafeFsm SbusParser
open ControlLoop (tickStep tick_spec sampleOf Calibrating fsArgs)

variable {σ F K : Type} [Field K] [LinearOrder K] [FloatEnv K] (s : Setup σ F K) (rows : List (Row F))

/-- The arm switch is on in a tick: the tick has a frame, and the channel of the switch is above the middle in it.
In a tick without a frame the switch counts as off. -/
def SwitchOn (frame : Nat → Option (List Nat × Nat)) (k : Nat) : Prop :=
  ∃ f, frame k = some f ∧ kSbusMid < f.1.getD kArmChannel 0 &&& 0x7FF

/-- The tick has a frame, and the throttle is closed in it. -/
def ThrottleClosed (K : Type) [Field K] [LinearOrder K] [FloatEnv K] (frame : Nat → Option (List Nat × Nat))
    (k : Nat) : Prop :=
  ∃ f, frame k = some f ∧ (normThrottle (f.1.getD 2 0 &&& 0x7FF) : Flt K) ≤ kArmThrottleMax

/-- The samples of the IMU that the ticks before some tick used, as the log has them. -/
def samplesOf (n : Nat) : List (ImuSample K) :=
  (List.range n).filterMap fun j => rows[j]?.map fun row => sampleOf (readsOf s j row)

/-- A tick arms the craft if the switch is on: the estimator is calibrated on the samples before it, the tick and
the nine before it all have a frame, and its frame closes the throttle. -/
structure Arms (k : Nat) : Prop where
  calibrated : (ComplementaryEstimator.calibrate (samplesOf s rows k)).calibrated = true
  long : kArmMinGoodFrames ≤ k + 1
  frames : ∀ i ≤ k, k < i + kArmMinGoodFrames → (s.run.frame i).isSome
  closed : ThrottleClosed K s.run.frame k

/-- Some tick before tick `n` armed the craft, and in every tick since the switch was on. One tick without a frame
ends this as a frame with the switch off does, and another ten frames in a row have to come before the craft can
arm again. -/
def Flying (n : Nat) : Prop := ∃ j < n, Arms s rows j ∧ ∀ i < n, j ≤ i → SwitchOn s.run.frame i

variable {s rows}

/-- A craft flies after one more tick exactly if the switch is on in it, and the craft flew before or the tick
arms it. -/
theorem flying_succ {n : Nat} : Flying s rows (n + 1) ↔
    SwitchOn s.run.frame n ∧ (Flying s rows n ∨ Arms s rows n) := by
  constructor
  · rintro ⟨j, hj, harms, hon⟩
    refine ⟨hon n (by omega) (by omega), ?_⟩
    rcases Nat.lt_succ_iff_lt_or_eq.mp hj with hj | rfl
    · exact .inl ⟨j, hj, harms, fun i hi => hon i (by omega)⟩
    · exact .inr harms
  · rintro ⟨hnow, ⟨j, hj, harms, hon⟩ | harms⟩
    · refine ⟨j, by omega, harms, fun i hi hji => ?_⟩
      rcases Nat.lt_succ_iff_lt_or_eq.mp hi with hi | rfl
      · exact hon i hi hji
      · exact hnow
    · refine ⟨n, by omega, harms, fun i hi hji => ?_⟩
      obtain rfl : i = n := by omega
      exact hnow

/-! ## What the tick learns from a frame -/

section Frame
variable {hist later : List (ControlLoop.Tick K)} {e : ControlLoop.Tick K} {c : FlightContext K}
  (hintact : Intact s) (hrun : Run tickStep (Runner.start s.fw).ctx (hist ++ e :: later) c)
  (h : Behind s rows (hist ++ e :: later))
include hintact hrun h

/-- The sample of a tick is that of its frame. -/
theorem rc_of_behind :
    e.out.sensed.rc.frameOk = (s.run.frame hist.length).isSome ∧
      ∀ f, s.run.frame hist.length = some f →
        e.out.sensed.rc.armedSwitch = decide (kSbusMid < f.1.getD kArmChannel 0 &&& 0x7FF) ∧
          e.out.sensed.rc.throttle = normThrottle (f.1.getD 2 0 &&& 0x7FF) := by
  have haccepted := accepted_of_behind hintact hrun h
  have hdecodes := decodes_of_behind hintact hrun h
  obtain ⟨-, ⟨fuel, htick⟩, -⟩ := hrun.split
  have hsensed := (tick_spec htick).sensed
  refine ⟨hsensed.frameOk.trans hdecodes, fun f hf => ?_⟩
  rw [if_neg (by simp [hf])] at haccepted
  obtain ⟨o, hdec, hrc⟩ := hsensed.rc_last (0, s.run.raw hist.length) (by simp [haccepted])
  obtain ⟨hswitch, hthrottle, -⟩ := decodeFrame_fields hdec
  have hchannel {i : Nat} (hi : i < 16) : channel (s.run.raw hist.length) i = f.1.getD i 0 &&& 0x7FF := by
    rw [RunArgs.raw, hf]
    exact channel_sbusEncode f.1 f.2 hi
  rw [hrc]
  exact ⟨hchannel (i := kArmChannel) (by decide) ▸ hswitch, hchannel (i := 2) (by decide) ▸ hthrottle⟩

/-- A tick sees the arm switch on exactly if it has a frame in which the switch is on. -/
theorem switchOn_of_behind :
    (e.out.sensed.rc.frameOk && e.out.sensed.rc.armedSwitch) = true ↔ SwitchOn s.run.frame hist.length := by
  obtain ⟨hok, hfields⟩ := rc_of_behind hintact hrun h
  rw [hok]
  cases hframe : s.run.frame hist.length with
  | none => simp [SwitchOn, hframe]
  | some f => simp [SwitchOn, hframe, (hfields f hframe).1]

end Frame

/-! ## The arm state behind a log -/

omit [LinearOrder K] [FloatEnv K] in
/-- The samples that the estimator of the firmware has seen are those that the log has. -/
theorem samples_of_behind {es : List (ControlLoop.Tick K)} (h : Behind s rows es) :
    ControlLoop.samples es = samplesOf s rows es.length := by
  induction es using List.reverseRecOn with
  | nil => rfl
  | append_singleton es e ih =>
    obtain ⟨hes, row, hrow, hinp, -⟩ := along_snoc.mp h
    rw [ControlLoop.samples, List.map_append, ← ControlLoop.samples, ih hes, samplesOf, samplesOf,
      List.length_append, List.length_singleton, List.range_succ, List.filterMap_append]
    simp [hrow, hinp]

/-- A frame is always newer than the ones before it. -/
theorem fresh_of_behind (hintact : Intact s) {hist : List (ControlLoop.Tick K)} {e : ControlLoop.Tick K}
    (hrun : Run tickStep (Runner.start s.fw).ctx (hist ++ [e]) e.post) (h : Behind s rows (hist ++ [e]))
    (hlen : hist.length < s.run.nTicks) :
    e.pre.fs.fresh e.out.sensed.rc = (s.run.frame hist.length).isSome := by
  obtain ⟨hbefore, ⟨fuel, htick⟩, -⟩ := hrun.snoc_inv
  obtain ⟨hes, row, -, hinp, -⟩ := along_snoc.mp h
  have hknown := ControlLoop.linkKnown_of_run hbefore (boot_haveFrame s.fw.resetReason)
    (clockMonotone_of_behind hes hlen.le)
  have htime : e.out.sensed.rc.tUs = .ofNat (hist.length * DT_US) := by
    rw [(tick_spec htick).sensed.tUs, hinp]
    rfl
  rw [fresh, (rc_of_behind hintact hrun h).1, hknown.haveFrame]
  cases hlast : ControlLoop.lastDecodeUs hist with
  | none => simp
  | some t =>
    obtain ⟨j, hj, -, rfl, -⟩ := (lastDecodeUs_of_behind hintact hbefore hes t).mp hlast
    have hnewer : UInt64.ofNat (j * DT_US) < .ofNat (hist.length * DT_US) := by
      rw [UInt64.lt_iff_toNat_lt, toNat_time (s := s) j (by omega), toNat_time _ hlen]
      exact Nat.mul_lt_mul_of_pos_right hj (by decide)
    rw [hknown.lastGoodUs _ hlast, htime, decide_eq_true hnewer]
    simp

/-- The good frames are those in a row at the end. -/
theorem goodFrames_of_behind (hintact : Intact s) {es : List (ControlLoop.Tick K)} {c : FlightContext K}
    (hrun : Run tickStep (Runner.start s.fw).ctx es c) (h : Behind s rows es)
    (hlen : es.length ≤ s.run.nTicks) (m : Nat) :
    m ≤ c.fs.goodFrames ↔ m ≤ es.length ∧ ∀ i < es.length, es.length ≤ i + m → (s.run.frame i).isSome := by
  induction es using List.reverseRecOn generalizing c m with
  | nil =>
    have hboot : (Runner.start s.fw).ctx.fs.goodFrames = 0 := boot_goodFrames s.fw.resetReason
    rw [hrun.nil_inv, hboot]
    simp
  | append_singleton es e ih =>
    rw [List.length_append, List.length_singleton] at hlen ⊢
    obtain ⟨hbefore, ⟨fuel, htick⟩, rfl⟩ := hrun.snoc_inv
    have hfresh := fresh_of_behind hintact hrun h (by omega)
    have hnext : e.post.fs.goodFrames
        = if (s.run.frame es.length).isSome then e.pre.fs.goodFrames + 1 else 0 := by
      rw [(tick_spec htick).fs, update_goodFrames, goodFramesNext, fsArgs, hfresh]
    have ih := ih hbefore (Along.of_append h) (by omega)
    rw [hnext]
    cases m with
    | zero => simp; omega
    | succ m =>
      split_ifs with hsome
      · rw [Nat.succ_le_succ_iff, ih m]
        refine and_congr (by omega) ⟨fun hall i hi hlast => ?_, fun hall i hi hlast => ?_⟩
        · rcases Nat.lt_succ_iff_lt_or_eq.mp hi with hi | rfl
          · exact hall i hi (by omega)
          · exact hsome
        · exact hall i (by omega) (by omega)
      · refine iff_of_false (by omega) ?_
        rintro ⟨-, hall⟩
        exact hsome (hall es.length (by omega) (by omega))

/-- Without `arm_test` the boot latch is that of the boot. -/
theorem bootLatched_of_behind (hno : s.fw.armTest = false) {es : List (ControlLoop.Tick K)}
    {c : FlightContext K} (hrun : Run tickStep (Runner.start s.fw).ctx es c) (h : Behind s rows es) :
    c.fs.bootLatched = afterFault s.fw.resetReason := by
  refine hrun.induct (P := fun _ c => c.fs.bootLatched = afterFault s.fw.resetReason) h ?_ ?_
  · show (boot s.fw.resetReason).bootLatched = _
    unfold boot
    split_ifs with hfault
    · exact hfault.symm
    · exact (Bool.eq_false_iff.mpr hfault).symm
  · rintro hist e hpre ⟨fuel, htick⟩ ⟨row, -, hinp, -⟩
    have hedge : e.pre.fs.edge (fsArgs e.pre e.inp e.out.sensed) = false := by
      apply edge_of_not
      rw [fsArgs, hinp]
      exact hno
    rw [(tick_spec htick).fs, update_bootLatched, hedge, hpre]
    rfl

/-- Without `arm_test` the estimator is calibrated on the samples before. -/
theorem calibrated_of_behind (hno : s.fw.armTest = false) {es : List (ControlLoop.Tick K)}
    {c : FlightContext K} (hrun : Run tickStep (Runner.start s.fw).ctx es c) (h : Behind s rows es) :
    c.est.calibrated = (ComplementaryEstimator.calibrate (samplesOf s rows es.length)).calibrated := by
  have hsame : Calibrating es c := by
    refine hrun.induct (P := Calibrating) h ⟨⟨rfl, rfl, rfl, rfl⟩, fun harmed => ?_⟩ ?_
    · exact absurd ((boot_armed s.fw.resetReason).symm.trans harmed) Bool.false_ne_true
    · rintro hist e hpre hs ⟨row, -, hinp, -⟩
      exact hpre.step hs (by rw [hinp]; exact hno)
  rw [← samples_of_behind h, ComplementaryEstimator.calibrated, hsame.same.state]
  rfl

/-- **When a craft is armed without `arm_test`**: after a clean boot, without a fault so far, once a tick has
armed it and the switch was on ever since. -/
theorem armed_of_behind (hintact : Intact s) (hno : s.fw.armTest = false) {es : List (ControlLoop.Tick K)}
    {c : FlightContext K} (hrun : Run tickStep (Runner.start s.fw).ctx es c) (h : Behind s rows es)
    (hlen : es.length ≤ s.run.nTicks) :
    c.fs.armed = true ↔
      afterFault s.fw.resetReason = false ∧ ¬ FaultBefore s rows es.length ∧ Flying s rows es.length := by
  induction es using List.reverseRecOn generalizing c with
  | nil =>
    rw [hrun.nil_inv]
    refine iff_of_false (Bool.eq_false_iff.mp (boot_armed s.fw.resetReason)) ?_
    rintro ⟨-, -, j, hj, -⟩
    cases hj
  | append_singleton es e ih =>
    rw [List.length_append, List.length_singleton] at hlen ⊢
    obtain ⟨hbefore, ⟨fuel, htick⟩, rfl⟩ := hrun.snoc_inv
    obtain ⟨hes, row, -, hinp, -⟩ := along_snoc.mp h
    have ih := ih hbefore hes (by omega)
    have hinv : Inv e.pre.fs := ControlLoop.inv_of_ticks hbefore (inv_boot s.fw.resetReason)
    have hboot := bootLatched_of_behind hno hbefore hes
    have hactive := (active_of_behind hintact hbefore hes (by omega)).2
    have hfault := faultObserved_of_behind hrun h (by omega) hintact
    have hcalibrated := calibrated_of_behind hno hbefore hes
    have hgood := goodFrames_of_behind hintact hrun h (by simpa using hlen) kArmMinGoodFrames
    rw [(tick_spec htick).fs, update_goodFrames] at hgood
    have hswitch := switchOn_of_behind hintact hrun h
    have hthrottle (hon : SwitchOn s.run.frame es.length) :
        e.out.sensed.rc.throttle ≤ kArmThrottleMax ↔ ThrottleClosed K s.run.frame es.length := by
      obtain ⟨f, hf, -⟩ := hon
      rw [((rc_of_behind hintact hrun h).2 f hf).2, ThrottleClosed, hf]
      simp
    have hu : (fsArgs e.pre e.inp e.out.sensed).armTest = false := by
      rw [fsArgs, hinp]
      exact hno
    have harms (hon : SwitchOn s.run.frame es.length) : (e.pre.est.calibrated = true ∧
        kArmMinGoodFrames ≤ e.pre.fs.goodFramesNext e.out.sensed.rc ∧
          e.out.sensed.rc.throttle ≤ kArmThrottleMax) ↔ Arms s rows es.length := by
      rw [hcalibrated, hthrottle hon]
      constructor
      · rintro ⟨hcal, hframes, hclosed⟩
        obtain ⟨hlong, hall⟩ := hgood.mp hframes
        exact ⟨hcal, by simpa using hlong, fun i hi hlast => hall i (by simp; omega) (by simp; omega), hclosed⟩
      · rintro ⟨hcal, hlong, hall, hclosed⟩
        refine ⟨hcal, hgood.mpr ⟨by simpa using hlong, fun i hi hlast => ?_⟩, hclosed⟩
        simp at hi hlast
        exact hall i (by omega) (by omega)
    rw [(tick_spec htick).fs, update_armed_iff hinv hu, hboot, hactive, hfault, faultBefore_succ, flying_succ]
    simp only [fsArgs, hswitch, hno, ih]
    constructor
    · rintro ⟨hclean, hnone, hon, hflying | hnew⟩
      · exact ⟨hclean, by simpa using hnone, hon, .inl hflying.2.2⟩
      · exact ⟨hclean, by simpa using hnone, hon, .inr ((harms hon).mp hnew)⟩
    · rintro ⟨hclean, hnone, hon, hflying | hnew⟩
      · rw [not_or] at hnone
        exact ⟨hclean, by simpa using hnone, hon, .inl ⟨hclean, hnone.1, hflying⟩⟩
      · exact ⟨hclean, by simpa using hnone, hon, .inr ((harms hon).mpr hnew)⟩

/-- **When a craft is armed with `arm_test`**: from the first tick on, while the failsafe is not active. -/
theorem requested_of_behind (hyes : s.fw.armTest = true) {es : List (ControlLoop.Tick K)}
    {c : FlightContext K} (hrun : Run tickStep (Runner.start s.fw).ctx es c) (h : Behind s rows es) :
    c.fs.armTestPrev = decide (0 < es.length) ∧
      (0 < es.length → c.fs.bootLatched = false ∧ c.fs.armed = !c.fs.active) := by
  induction es using List.reverseRecOn generalizing c with
  | nil =>
    rw [hrun.nil_inv]
    exact ⟨boot_armTestPrev s.fw.resetReason, by simp⟩
  | append_singleton es e ih =>
    obtain ⟨hbefore, ⟨fuel, htick⟩, rfl⟩ := hrun.snoc_inv
    obtain ⟨hes, row, -, hinp, -⟩ := along_snoc.mp h
    obtain ⟨hprev, ih⟩ := ih hbefore hes
    have hinv : Inv e.pre.fs := ControlLoop.inv_of_ticks hbefore (inv_boot s.fw.resetReason)
    have hu : (fsArgs e.pre e.inp e.out.sensed).armTest = true := by
      rw [fsArgs, hinp]
      exact hyes
    rw [(tick_spec htick).fs, update_armTestPrev, update_bootLatched, update_armed, update_active, armedNext,
      edge, hu, hprev, hinv.latched]
    refine ⟨by simp, fun _ => ?_⟩
    cases es with
    | nil => simp
    | cons x es =>
      obtain ⟨hboot, harmed⟩ := ih (by simp)
      rw [hboot, harmed]
      cases e.pre.fs.active <;> simp

variable (s rows) in
/-- The arm state in a log. With `arm_test` a row is armed as long as no fault counts. Without it a row is armed if
the boot was clean, no fault counts, and the craft was armed by the gesture and has had a frame with the switch on in
every tick since. A row that is not armed has its motors off. -/
structure ArmingLogged : Prop where
  flag : ∀ row ∈ rows, row.out.armed = .int 0 ∨ row.out.armed = .int 1
  requested : s.fw.armTest = true → ∀ (k : Nat) row, rows[k]? = some row →
    (row.out.armed = .int 1 ↔ ¬ FaultBefore s rows (k + 1))
  armed : s.fw.armTest = false → ∀ (k : Nat) row, rows[k]? = some row → (row.out.armed = .int 1 ↔
    afterFault s.fw.resetReason = false ∧ ¬ FaultBefore s rows (k + 1) ∧ Flying s rows (k + 1))
  off : ∀ row ∈ rows, row.out.armed = .int 0 → row.out.mot = List.replicate 4 (.float (s.bits 0))

/-- The log of a closed loop shows its arm state. -/
theorem armingLogged_of_stops (hintact : Intact s) {y : ClosedLoop σ F K} (h : Stops s y) :
    ArmingLogged s y.rows where
  flag row hmem := by
    obtain ⟨k, hrow⟩ := List.mem_iff_getElem?.mp hmem
    obtain ⟨hist, e, he⟩ := exists_tickOf h hrow
    rw [he.armed]
    cases e.post.fs.armed <;> simp
  requested hyes k row hrow := by
    obtain ⟨hist, e, he⟩ := exists_tickOf h hrow
    have harmed := ((requested_of_behind hyes he.run he.behind).2 (by simp)).2
    rw [he.armed, harmed, ← he.active hintact]
    cases e.post.fs.active <;> simp
  armed hno k row hrow := by
    obtain ⟨hist, e, he⟩ := exists_tickOf h hrow
    have hlen : (hist ++ [e]).length = k + 1 := by rw [List.length_append, he.place, List.length_singleton]
    have harmed := armed_of_behind hintact hno he.run he.behind (hlen.le.trans he.lt)
    rw [hlen] at harmed
    rw [he.armed, ← harmed]
    cases e.post.fs.armed <;> simp
  off row hmem hshown := by
    obtain ⟨k, hrow⟩ := List.mem_iff_getElem?.mp hmem
    obtain ⟨hist, e, he⟩ := exists_tickOf h hrow
    refine he.off (Bool.eq_false_iff.mpr fun harmed => ?_)
    rw [he.armed, harmed] at hshown
    cases hshown

end ClosedLoop

namespace Session

open ClosedLoop

end Session

end DroneMini
