import DroneMini.Loop.Attitude
import DroneMini.Sim.ArmingLog

/-!
# What a log says about the estimator, the LED and the motors

The log of a session read as a record of what the craft made of its samples (`status_logged`). The estimator
calibrates on the samples of the disarmed rows and judges those of the armed rows, so `imu_valid` is zero
exactly when the last five of its verdicts, over armed rows only, were rejections. The LED shows the reset,
then the failsafe, then the arm state, then the calibration. In open-loop mode the motors and the shift are
those of the mixer on the sticks of the frame, or on the fixed command, behind the gate.
-/

namespace DroneMini

/-- The correction of a sample sees the variables of the calibration only. -/
theorem ComplementaryEstimator.SameCalib.correct {K : Type} [Field K] [LinearOrder K] [FloatEnv K]
    {est est' : ComplementaryEstimator K} (h : est.SameCalib est') (imu : ImuSample K) :
    ControlLoop.correct est imu = ControlLoop.correct est' imu := by
  unfold ControlLoop.correct
  rw [calibrated, calibrated, h.state, h.bias]

namespace ClosedLoop

open PlantRunner FailsafeFsm SbusParser ComplementaryEstimator
open ControlLoop (tickStep tick_spec sampleOf fsArgs endsArmed endsArmed_eq rejectedSample ledMode)

variable {σ F K : Type} [Field K] [LinearOrder K] [FloatEnv K] (s : Setup σ F K) (rows : List (Row F))

/-! ## What the rows say -/

/-- What some of the first rows of a log give, in order. -/
def gather {α : Type} (f : Nat → Row F → Option α) (n : Nat) : List α :=
  (List.range n).filterMap fun j => rows[j]?.bind (f j)

/-- The IMU samples of the rows before a tick that show a disarmed craft, on which the estimator
calibrates. -/
def idleSamples (n : Nat) : List (ImuSample K) :=
  gather rows (fun j row => if row.out.armed = .int 1 then none else some (sampleOf (readsOf s j row))) n

/-- The estimator rejects the sample of a row, corrected by the bias so far. -/
def rowRejected (k : Nat) (row : Row F) : Bool :=
  rejects (ControlLoop.correct (calibrate (idleSamples s rows k)) (sampleOf (readsOf s k row))) kControlDtS

/-- The verdicts of the estimator on the armed rows before a tick. -/
def verdicts (n : Nat) : List Bool :=
  gather rows (fun j row => if row.out.armed = .int 1 then some (rowRejected s rows j row) else none) n

/-- The LED mode of a row, by the first that applies: boot fault, failsafe, armed, calibrating, ready. -/
def ledOf (k : Nat) (row : Row F) : LedMode :=
  if !s.fw.armTest && afterFault s.fw.resetReason then .kError
  else if row.out.failsafe = .int 1 then .kFailsafe
  else if row.out.armed = .int 1 then .kArmed
  else if !(calibrate (idleSamples s rows (k + 1))).calibrated then .kCalib
  else .kBoot

/-- The command of a tick in open-loop mode, with its shift. -/
def openLoop (k : Nat) : PwmCmd K × Flt K :=
  if s.fw.olFromRc then
    match s.run.frame k with
    | none => QuadXMixer.write 0 0 0 0
    | some (ch, _) =>
      let raw i := ch.getD i 0 &&& 0x7FF
      QuadXMixer.write (normThrottle (raw 2)) (norm (raw 0) (-1) 1) (norm (raw 1) (-1) 1)
        (norm (raw 3) (-1) 1)
  else QuadXMixer.write s.fw.thr s.fw.roll s.fw.pitch s.fw.yaw

/-- The motors of a row that the gate is given a command in. -/
def gated (cmd : PwmCmd K) (row : Row F) : List Struct.Value :=
  let call := (OutputStage.apply cmd (row.out.armed = .int 1) (row.out.failsafe = .int 1)
    (row.out.imuValid = .int 1)).2
  List.ofFn fun i => .float (s.bits (duties [call] i))

/-- The status in a log: the flag of the IMU is the debounced verdict, the LED follows the state, an invalid
IMU has the motors off, and an open loop shows its command through the gate. -/
structure StatusLogged : Prop where
  valid : ∀ (k : Nat) row, rows[k]? = some row →
    row.out.imuValid = .int (if List.replicate kImuInvalidDebounce true <:+ verdicts s rows (k + 1) then 0 else 1)
  led : ∀ (k : Nat) row, rows[k]? = some row → row.out.ledMode = .int (ledOf s rows k row).code.toNat
  off : ∀ row ∈ rows, row.out.imuValid = .int 0 → row.out.mot = List.replicate 4 (.float (s.bits 0))
  motors : s.fw.mode = .kOpenLoop → ∀ (k : Nat) row, rows[k]? = some row →
    row.out.mot = gated s (openLoop s k).1 row ∧ row.out.satShift = .float (s.bits (openLoop s k).2)

variable {s rows}

omit [Field K] [LinearOrder K] [FloatEnv K] in
/-- What the first rows give with one more row is what they gave, and what the new row gives. -/
theorem gather_succ {α : Type} {f : Nat → Row F → Option α} {n : Nat} {row : Row F}
    (hrow : rows[n]? = some row) : gather rows f (n + 1) = gather rows f n ++ (f n row).toList := by
  rw [gather, List.range_succ, List.filterMap_append, ← gather, List.append_cancel_left_eq]
  cases hf : f n row <;> simp [hrow, hf]

/-! ## What the estimator has made of the rows -/

variable (s rows) in
/-- The estimator has calibrated on the disarmed rows and judged the armed ones. -/
structure Judges (es : List (ControlLoop.Tick K)) (c : FlightContext K) : Prop where
  calib : SameCalib c.est (calibrate (idleSamples s rows es.length))
  judged : (es.filter endsArmed).map rejectedSample = verdicts s rows es.length

omit [LinearOrder K] [FloatEnv K] in
/-- A row shows an armed craft exactly if the tick behind it left it armed. -/
theorem armed_iff_of_out {row : Row F} {e : ControlLoop.Tick K}
    (hout : row.out = Wire.outDict ((shown e.post e.out.calls).map s.bits)) :
    row.out.armed = .int 1 ↔ e.post.fs.armed = true := by
  rw [hout]
  cases harmed : e.post.fs.armed <;> simp [Wire.outDict, Wire.SilOut.map, shown, harmed]

/-- One more tick keeps the estimator in step with the log: it calibrates on a disarmed row or judges an armed
one. -/
theorem Judges.step {hist : List (ControlLoop.Tick K)} {e : ControlLoop.Tick K}
    (hpre : Judges s rows hist e.pre) (hs : tickStep e.pre e.inp e.post e.out) {row : Row F}
    (hrow : rows[hist.length]? = some row) (hinp : e.inp = ⟨readsOf s hist.length row, s.fw.armTest⟩)
    (hout : row.out = Wire.outDict ((shown e.post e.out.calls).map s.bits)) :
    Judges s rows (hist ++ [e]) e.post := by
  obtain ⟨fuel, htick⟩ := hs
  have spec := tick_spec htick
  have hsample : e.out.sensed.imu = sampleOf (readsOf s hist.length row) := by rw [spec.sensed.imu, hinp]; rfl
  have hshown := armed_iff_of_out hout
  have hends := endsArmed_eq spec
  refine ⟨?_, ?_⟩
  · rw [List.length_append, List.length_singleton, idleSamples, gather_succ hrow, ← idleSamples]
    cases harmed : e.post.fs.armed with
    | true =>
      rw [if_pos (hshown.mpr harmed), Option.toList_none, List.append_nil]
      have hkept := sameCalib_update (spec.est_of_armed harmed)
      exact ⟨hkept.state.trans hpre.calib.state, hkept.n.trans hpre.calib.n, hkept.sum.trans hpre.calib.sum,
        hkept.bias.trans hpre.calib.bias⟩
    | false =>
      rw [if_neg (by rw [hshown, harmed]; decide), Option.toList_some, calibrate, List.foldl_concat,
        ← calibrate, spec.est_of_disarmed harmed, hsample]
      exact hpre.calib.calibrateUpdate _
  · rw [List.length_append, List.length_singleton, verdicts, gather_succ hrow, ← verdicts, ← hpre.judged,
      List.filter_append, List.map_append, List.append_cancel_left_eq]
    cases harmed : e.post.fs.armed with
    | true =>
      have hrejected : rejectedSample e = rowRejected s rows hist.length row := by
        rw [rejectedSample, rowRejected, hpre.calib.correct, hinp]
      rw [if_pos (hshown.mpr harmed), List.filter_cons_of_pos (hends.trans harmed), List.filter_nil,
        List.map_singleton, hrejected, Option.toList_some]
    | false =>
      rw [if_neg (by rw [hshown, harmed]; decide), List.filter_cons_of_neg (by rw [hends, harmed]; decide)]
      rfl

/-- **The estimator calibrates on the disarmed rows and judges the armed ones.** -/
theorem judges_of_behind {es : List (ControlLoop.Tick K)} {c : FlightContext K}
    (hrun : Run tickStep (Runner.start s.fw).ctx es c) (h : Behind s rows es) : Judges s rows es c := by
  refine hrun.induct (P := Judges s rows) h ⟨⟨rfl, rfl, rfl, rfl⟩, rfl⟩ ?_
  rintro hist e hpre hs ⟨row, hrow, hinp, hout⟩
  exact hpre.step hs hrow hinp hout

/-- The estimator calls the IMU invalid exactly if its last five verdicts all rejected the sample. -/
theorem imuValid_of_behind {es : List (ControlLoop.Tick K)} {c : FlightContext K}
    (hrun : Run tickStep (Runner.start s.fw).ctx es c) (h : Behind s rows es) :
    c.est.imuValid = false ↔ List.replicate kImuInvalidDebounce true <:+ verdicts s rows es.length := by
  have hboot : (Runner.start s.fw).ctx.fs = boot s.fw.resetReason := rfl
  rw [(ControlLoop.judged_of_run hboot rfl hrun).imuValid_iff, Debounce.le_streak_iff,
    Debounce.endsBad_iff_replicate, (judges_of_behind hrun h).judged]

/-- After the first tick the boot latch is that of the boot, unless `arm_test` has cleared it. -/
theorem bootLatched_after {es : List (ControlLoop.Tick K)} {c : FlightContext K}
    (hrun : Run tickStep (Runner.start s.fw).ctx es c) (h : Behind s rows es) (hpos : 0 < es.length) :
    c.fs.bootLatched = (!s.fw.armTest && afterFault s.fw.resetReason) := by
  cases harm : s.fw.armTest with
  | true => exact ((requested_of_behind harm hrun h).2 hpos).1
  | false => exact bootLatched_of_behind harm hrun h

/-! ## What the motors are commanded -/

/-- The mode and the fixed command of a flight are those of the arguments. -/
structure Commanded (a : Args K) (c : FlightContext K) : Prop where
  mode : c.mode = a.mode
  olFromRc : c.olFromRc = a.olFromRc
  olThr : c.olThr = a.thr
  olRoll : c.olRoll = a.roll
  olPitch : c.olPitch = a.pitch
  olYaw : c.olYaw = a.yaw

/-- No tick of a run changes the mode or the fixed command, which stay those of the arguments. -/
theorem commanded_of_run {es : List (ControlLoop.Tick K)} {c : FlightContext K}
    (hrun : Run tickStep (Runner.start s.fw).ctx es c) : Commanded s.fw c := by
  refine (hrun.invariant (I := Commanded s.fw) ⟨rfl, rfl, rfl, rfl, rfl, rfl⟩ ?_).1
  rintro c inp c' out hc ⟨fuel, htick⟩
  have spec := tick_spec htick
  exact ⟨spec.mode.trans hc.mode, spec.olFromRc.trans hc.olFromRc, spec.olThr.trans hc.olThr,
    spec.olRoll.trans hc.olRoll, spec.olPitch.trans hc.olPitch, spec.olYaw.trans hc.olYaw⟩

/-- A tick takes its sticks from its frame, and zeros without one. -/
theorem sticks_of_behind (hintact : Intact s) {hist : List (ControlLoop.Tick K)} {e : ControlLoop.Tick K}
    (hrun : Run tickStep (Runner.start s.fw).ctx (hist ++ [e]) e.post) (h : Behind s rows (hist ++ [e])) :
    QuadXMixer.write e.out.sensed.rc.throttle e.out.sensed.rc.roll e.out.sensed.rc.pitch e.out.sensed.rc.yaw =
      match s.run.frame hist.length with
      | none => QuadXMixer.write 0 0 0 0
      | some (ch, _) =>
        QuadXMixer.write (normThrottle (ch.getD 2 0 &&& 0x7FF)) (norm (ch.getD 0 0 &&& 0x7FF) (-1) 1)
          (norm (ch.getD 1 0 &&& 0x7FF) (-1) 1) (norm (ch.getD 3 0 &&& 0x7FF) (-1) 1) := by
  have haccepted := accepted_of_behind hintact hrun h
  obtain ⟨-, ⟨fuel, htick⟩, -⟩ := hrun.snoc_inv
  have hsensed := (tick_spec htick).sensed
  cases hframe : s.run.frame hist.length with
  | none =>
    rw [hframe, if_pos rfl] at haccepted
    rw [hsensed.rc_nil haccepted]
    rfl
  | some f =>
    rw [hframe, if_neg (by simp)] at haccepted
    obtain ⟨o, hdec, hrc⟩ := hsensed.rc_last (0, s.run.raw hist.length) (by simp [haccepted])
    have hchannel {i : Nat} (hi : i < 16) : channel (s.run.raw hist.length) i = f.1.getD i 0 &&& 0x7FF := by
      rw [RunArgs.raw, hframe]
      exact channel_sbusEncode f.1 f.2 hi
    unfold decodeFrame at hdec
    split_ifs at hdec
    cases hdec
    rw [hrc]
    dsimp only
    rw [hchannel (by decide), hchannel (by decide), hchannel (by decide), hchannel (by decide)]

/-- In open-loop mode the mixer is given the sticks or the fixed command. -/
theorem openLoop_of_behind (hintact : Intact s) (hmode : s.fw.mode = .kOpenLoop)
    {hist : List (ControlLoop.Tick K)} {e : ControlLoop.Tick K}
    (hrun : Run tickStep (Runner.start s.fw).ctx (hist ++ [e]) e.post) (h : Behind s rows (hist ++ [e])) :
    e.out.pwm = (openLoop s hist.length).1 ∧ e.post.satShift = (openLoop s hist.length).2 := by
  have hsticks := sticks_of_behind hintact hrun h
  obtain ⟨hbefore, ⟨fuel, htick⟩, -⟩ := hrun.snoc_inv
  have hc := commanded_of_run hbefore
  have hcontrol := (tick_spec htick).control
  unfold ControlLoop.control at hcontrol
  simp only [hc.mode, hmode, hc.olFromRc, hc.olThr, hc.olRoll, hc.olPitch, hc.olYaw] at hcontrol
  unfold openLoop
  split_ifs at hcontrol ⊢ with hfromRc
  · rw [hsticks, Option.some.injEq, Prod.mk.injEq] at hcontrol
    exact ⟨(congrArg Prod.fst hcontrol.2).symm, (congrArg Prod.snd hcontrol.2).symm⟩
  · rw [Option.some.injEq, Prod.mk.injEq] at hcontrol
    exact ⟨(congrArg Prod.fst hcontrol.2).symm, (congrArg Prod.snd hcontrol.2).symm⟩

/-! ## The status of a row -/

section Row
variable {k : Nat} {row : Row F} {hist : List (ControlLoop.Tick K)} {e : ControlLoop.Tick K}
  (h : TickOf s rows k row hist e)
include h

/-- The ticks up to that of a row are as many as the rows up to it. -/
theorem TickOf.length : (hist ++ [e]).length = k + 1 := by
  rw [List.length_append, h.place, List.length_singleton]

/-- What a row shows of the IMU is the verdict of the estimator after the tick behind it. -/
theorem TickOf.imuValid : row.out.imuValid = if e.post.est.imuValid then .int 1 else .int 0 := by
  rw [h.out]
  cases hvalid : e.post.est.imuValid <;> simp [Wire.outDict, Wire.SilOut.map, shown, hvalid]

/-- The motors of a row are those of the gate, which is given what the row shows. -/
theorem TickOf.mot : row.out.mot = gated s e.out.pwm row := by
  obtain ⟨-, ⟨fuel, htick⟩, -⟩ := h.run.snoc_inv
  have hflags : gated s e.out.pwm row = List.ofFn fun i => .float (s.bits
      (duties [(OutputStage.apply e.out.pwm e.post.fs.armed e.post.fs.active e.post.est.imuValid).2] i)) := by
    rw [gated, h.armed, h.failsafe, h.imuValid]
    cases e.post.fs.armed <;> cases e.post.fs.active <;> cases e.post.est.imuValid <;> rfl
  rw [hflags, h.out, (tick_spec htick).calls]
  simp [Wire.outDict, Wire.SilOut.map, shown, duties, List.ofFn_succ]

/-- The LED of a row is the one that its arm state, its failsafe and the calibration ask for. -/
theorem TickOf.led : row.out.ledMode = .int (ledOf s rows k row).code.toNat := by
  obtain ⟨-, ⟨fuel, htick⟩, -⟩ := h.run.snoc_inv
  have hboot := bootLatched_after h.run h.behind (by rw [h.length]; omega)
  have hcalib := (judges_of_behind h.run h.behind).calib
  rw [h.length] at hcalib
  have hled : ledMode e.post.fs e.post.est.calibrated = ledOf s rows k row := by
    rw [ledMode, ledOf, hboot, h.failsafe, h.armed, calibrated, calibrated, hcalib.state]
    cases e.post.fs.active <;> cases e.post.fs.armed <;> simp
  rw [h.out, ← hled, ← (tick_spec htick).led]
  rfl

end Row

/-- The log of a closed loop shows its status as `StatusLogged` says, wherever the loop stops. -/
theorem statusLogged_of_stops (hintact : Intact s) {y : ClosedLoop σ F K} (h : Stops s y) :
    StatusLogged s y.rows where
  valid k row hrow := by
    obtain ⟨hist, e, he⟩ := exists_tickOf h hrow
    have hvalid := imuValid_of_behind he.run he.behind
    rw [he.length] at hvalid
    rw [he.imuValid]
    cases himu : e.post.est.imuValid with
    | true => rw [if_pos rfl, if_neg (mt hvalid.mpr (by rw [himu]; decide))]
    | false => rw [if_neg (by decide), if_pos (hvalid.mp himu)]
  led k row hrow := by
    obtain ⟨hist, e, he⟩ := exists_tickOf h hrow
    exact he.led
  off row hmem hinvalid := by
    obtain ⟨k, hrow⟩ := List.mem_iff_getElem?.mp hmem
    obtain ⟨hist, e, he⟩ := exists_tickOf h hrow
    rw [he.mot, gated, hinvalid, OutputStage.apply, if_pos (by simp)]
    rfl
  motors hmode k row hrow := by
    obtain ⟨hist, e, he⟩ := exists_tickOf h hrow
    obtain ⟨hpwm, hshift⟩ := openLoop_of_behind hintact hmode he.run he.behind
    rw [he.place] at hpwm hshift
    refine ⟨by rw [he.mot, hpwm], ?_⟩
    rw [he.out, ← hshift]
    rfl

end ClosedLoop

namespace Session

open ClosedLoop

end Session

end DroneMini
