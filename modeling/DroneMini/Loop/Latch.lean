import DroneMini.Loop.Step
import DroneMini.Failsafe.Latch
import DroneMini.Plant.Rc

/-!
# A latched craft drives no motor

The latch of the arm state machine carried over to runs of control ticks: without an arm request a
latched craft stays latched, and while it is latched the output gate answers every tick with `pwmOff`
(`latch_permanent`). The runs on fixed inputs here and in later modules start with the calibration of a craft
at rest (`execute_calibTicks`).
-/

namespace DroneMini

deriving instance DecidableEq for Pid, RateController, AttitudeController, ComplementaryEstimator, SbusParser,
  LedFsm, FlightContext

namespace ControlLoop

open FailsafeFsm

variable {K : Type}

/-- Updates that all have `arm_test` low contain no arm request, whatever it was before the first of them. -/
theorem noRequest_of_armTest {prev : Bool} {es : List (Event FailsafeFsm (UpdateArgs K) Unit)}
    (h : ∀ x ∈ es, x.inp.armTest = false) : NoRequest prev es := by
  rintro hist e later rfl ⟨htrue, -⟩
  rw [h e (by simp)] at htrue
  cases htrue

/-- Ticks that all have `arm_test` low make updates of the arm state machine that have it low. -/
theorem armTest_fsUpdate {es : List (Tick K)} (h : ∀ x ∈ es, x.inp.armTest = false) :
    ∀ x ∈ es.map fsUpdate, x.inp.armTest = false := by
  intro x hx
  obtain ⟨e, he, rfl⟩ := List.mem_map.mp hx
  exact h e he

variable [Field K] [LinearOrder K] [FloatEnv K]

/-- A run of ticks from a state with the invariant keeps it. -/
theorem inv_of_ticks {c c' : FlightContext K} {es : List (Tick K)} (h : Run tickStep c es c')
    (hinv : Inv c.fs) : Inv c'.fs := by
  refine ((fsRun h).invariant hinv ?_).1
  rintro a u b - ha rfl
  exact ha.update u

/-- While the craft is disarmed the gate turns the motors off. -/
theorem calls_of_disarmed {fuel : Nat} {c c' : FlightContext K} {inp : TickInput K}
    {out : TickOutput K} (h : TickSpec fuel c inp c' out) (harmed : c'.fs.armed = false) :
    out.calls = [.pwmOff, .ledSet (ledMode c'.fs c'.est.calibrated)] := by
  rw [h.calls, harmed]
  rfl

/-- A tick of a latched craft turns the motors off. -/
theorem calls_of_latched {c c' : FlightContext K} {es : List (Tick K)} (hinv : Inv c.fs)
    (hl : c.fs.active = true ∨ c.fs.bootLatched = true) (hrun : Run tickStep c es c')
    (hno : ∀ x ∈ es, x.inp.armTest = false) {e : Tick K} (he : e ∈ es) :
    .pwmOff ∈ e.out.calls ∧ ∀ cmd, .pwmWrite cmd ∉ e.out.calls := by
  obtain ⟨hist, later, rfl⟩ := List.append_of_mem he
  obtain ⟨fuel, htick⟩ := hrun.step_of_mem he
  have hfs := fsRun hrun
  have hreq : NoRequest c.fs.armTestPrev _ := noRequest_of_armTest (armTest_fsUpdate hno)
  rw [List.map_append, List.map_cons] at hfs hreq
  obtain ⟨hstay, -⟩ := latched_event hinv hl hfs hreq
  rw [calls_of_disarmed (tick_spec htick) hstay.armed]
  simp

/-- **The latch is permanent.** From any reachable state of the arm state machine with an active
failsafe or a boot latch, and under updates without an arm request, the latch stays, the craft is
disarmed after every update and no reason bit is lost. Hence in a run of ticks from a boot with
`arm_test` false, once the craft is latched no tick drives a motor. -/
theorem latch_permanent :
    (∀ fs : FailsafeFsm, Reach (opStep (K := K)) reset fs →
      (fs.active = true ∨ fs.bootLatched = true) →
      ∀ (es : List (Event FailsafeFsm (UpdateArgs K) Unit)) (fs' : FailsafeFsm),
        Run updateStep fs es fs' →
        (∀ hist e later, es = hist ++ e :: later →
          ¬ (e.inp.armTest = true ∧ lastArmTest fs.armTestPrev hist = false)) →
        ∀ e ∈ es, e.post.latched = true ∧ (fs.active = true → e.post.active = true) ∧
          e.post.bootLatched = fs.bootLatched ∧ e.post.armed = false ∧
          e.pre.reason ||| e.post.reason = e.post.reason) ∧
    (∀ (resetReason : UInt32) (c c' t : FlightContext K) (hist later : List (Tick K)),
      c.fs = boot resetReason → Run tickStep c hist t → Run tickStep t later c' →
      (∀ x ∈ hist ++ later, x.inp.armTest = false) →
      (t.fs.active = true ∨ t.fs.bootLatched = true) →
      ∀ e ∈ later, .pwmOff ∈ e.out.calls ∧ ∀ cmd, .pwmWrite cmd ∉ e.out.calls) := by
  constructor
  · intro fs hreach hl es fs' hrun hno e he
    obtain ⟨hist, later, rfl⟩ := List.append_of_mem he
    obtain ⟨hfirst, hstep⟩ := latched_event (inv_of_reach hreach) hl hrun hno
    exact ⟨hfirst.latched, hfirst.active, hfirst.bootLatched, hfirst.armed, hstep.reason⟩
  · intro resetReason c c' t hist later hboot hhist hlater hno hl e he
    have hinv := inv_of_ticks hhist (hboot ▸ inv_boot resetReason)
    exact calls_of_latched hinv hl hlater (fun x hx => hno x (by simp [hx])) he

/-- A tick of a level craft at time `t` with some RC bytes. -/
def levelTick (t : UInt64) (raw : List UInt8) (armTest : Bool) : TickInput ℚ where
  hal :=
    { imuOk := true, imu := level, rcRaw := some raw, rcUs := t, vbatOk := true
      vbat := .fin (38 / 10), fsUs := t, ledUs := t }
  armTest := armTest

/-- A frame with the sticks centred, the throttle closed and the arm switch on. -/
def armFrame : List UInt8 := sbusEncode [992, 992, 172, 992, 1811] 0

/-- Two hundred ticks of a level craft without a frame, in which the estimator calibrates. -/
def calibTicks : List (TickInput ℚ) :=
  (List.range' 1 200).map fun k => levelTick (UInt64.ofNat (1000 * k)) [] false

/-- Twelve ticks, behind `calibTicks`, with the frame that arms a craft on each of them. -/
def gestureTicks : List (TickInput ℚ) :=
  (List.range' 201 12).map fun k => levelTick (UInt64.ofNat (1000 * k)) armFrame false

set_option maxRecDepth 10000 in
/-- A craft that booted after a brown-out and then does all that arming asks for: it is calibrated, its battery is
good, and twelve frames in a row have the switch on and the throttle closed. No tick of these drives a motor. -/
theorem latch_permanent_brownout :
    ∃ (hist later : List (Tick ℚ)) (t c : FlightContext ℚ),
      Run tickStep (.boot kResetBrownout .kAttitude) hist t ∧ Run tickStep t later c ∧
      later.length = 12 ∧ t.est.calibrated = true ∧ kArmMinGoodFrames ≤ c.fs.goodFrames ∧ c.fs.active = false ∧
      ∀ e ∈ later, .pwmOff ∈ e.out.calls ∧ ∀ cmd, .pwmWrite cmd ∉ e.out.calls := by
  have hrun : (execute (tick 1) (.boot kResetBrownout .kAttitude) calibTicks).any (fun s =>
      (execute (tick 1) s.2 gestureTicks).any fun r =>
        decide (s.2.est.calibrated = true ∧ kArmMinGoodFrames ≤ r.2.fs.goodFrames ∧ r.2.fs.active = false ∧
          s.2.fs.bootLatched = true)) = true := by
    decide +kernel
  obtain ⟨⟨hist, t⟩, hhist, hrun⟩ := (Option.any_eq_true _ _).mp hrun
  obtain ⟨⟨later, c⟩, hlater, hrun⟩ := (Option.any_eq_true _ _).mp hrun
  obtain ⟨hcal, hframes, hactive, hlatched⟩ := of_decide_eq_true hrun
  have hno : ∀ i ∈ calibTicks ++ gestureTicks, i.armTest = false := by decide
  have hinp : (hist ++ later).map Event.inp = calibTicks ++ gestureTicks := by
    rw [List.map_append, execute_inputs hhist, execute_inputs hlater]
  have hlen : later.length = 12 := by
    rw [← List.length_map (f := Event.inp), execute_inputs hlater]
    rfl
  exact ⟨hist, later, t, c, ticks_run hhist, ticks_run hlater, hlen, hcal, hframes, hactive,
    latch_permanent.2 kResetBrownout _ c t hist later rfl (ticks_run hhist) (ticks_run hlater)
      (fun x hx => hno x.inp (hinp ▸ List.mem_map_of_mem hx)) (.inr hlatched)⟩

/-! ## A craft that calibrates at rest -/

/-- The rate controller of a craft that has not moved, before its first sample or after it. -/
def restingRate (sampled : Bool) : RateController ℚ :=
  { (RateController.new : RateController ℚ) with
    pids := fun i => { (RateController.new : RateController ℚ).pids i with hasPrev := sampled } }

/-- A sample at rest with the sticks centred does not move it, and the mixer does not shift its command. -/
theorem restingRate_update (sampled : Bool) {imu : ImuSample ℚ} {rc : RcSample ℚ}
    (hgyro : ∀ i, imu.gyroRps i = 0) (hroll : rc.roll = 0) (hpitch : rc.pitch = 0) (hyaw : rc.yaw = 0)
    (hthrottle : rc.throttle = 0) :
    ((restingRate sampled).update imu (rcStickToRateSp rc)).1 = restingRate true ∧
      ((restingRate sampled).update imu (rcStickToRateSp rc)).2.2 = 0 := by
  have hsp : rcStickToRateSp rc = rcStickToRateSp .zero := by
    unfold rcStickToRateSp
    rw [hroll, hpitch, hyaw, hthrottle]
    rfl
  have hstep : ∀ sampled,
      (∀ i, ((restingRate sampled).update ⟨fun _ => 0, fun _ => 0, fun _ => 0, 0, 0, true⟩
        (rcStickToRateSp .zero)).1.pids i = (restingRate true).pids i) ∧
      ((restingRate sampled).update ⟨fun _ => 0, fun _ => 0, fun _ => 0, 0, 0, true⟩
        (rcStickToRateSp .zero)).2.2 = 0 := by decide +kernel
  obtain ⟨hpids, hshift⟩ := hstep sampled
  rw [hsp, RateController.update, hgyro 0, hgyro 1, hgyro 2]
  exact ⟨congrArg₂ RateController.mk (funext hpids) hshift, hshift⟩

/-- A tick that shows the rate controller of a craft at rest nothing but zeros. -/
def AtRest (e : Tick ℚ) : Prop :=
  (∀ i, (correct e.pre.est e.out.sensed.imu).gyroRps i = 0) ∧ e.out.sensed.rc.roll = 0 ∧
    e.out.sensed.rc.pitch = 0 ∧ e.out.sensed.rc.yaw = 0 ∧ e.out.sensed.rc.throttle = 0

instance (e : Tick ℚ) : Decidable (AtRest e) := inferInstanceAs (Decidable (_ ∧ _))

/-- In rate mode, ticks that show nothing but zeros leave a resting rate controller and no shift. -/
theorem restingRate_run {c : FlightContext ℚ} {es : List (Tick ℚ)}
    (hrun : Run tickStep (.boot 1 .kRateOnly) es c) (hrest : ∀ e ∈ es, AtRest e) :
    c.rate = restingRate (!es.isEmpty) ∧ c.satShift = 0 := by
  refine (hrun.induct (P := fun hist c =>
      c.mode = .kRateOnly ∧ c.rate = restingRate (!hist.isEmpty) ∧ c.satShift = 0)
    (along_of_forall hrest) ⟨rfl, rfl, rfl⟩ ?_).2
  rintro hist e ⟨hmode, hrate, -⟩ ⟨fuel, hs⟩ ⟨hgyro, hroll, hpitch, hyaw, hthrottle⟩
  have spec := tick_spec hs
  have hcontrol := spec.control
  simp only [control, hmode, hrate, Option.some.injEq] at hcontrol
  obtain ⟨hupdate, hshift⟩ := restingRate_update (!hist.isEmpty) hgyro hroll hpitch hyaw hthrottle
  rw [hcontrol] at hupdate hshift
  refine ⟨spec.mode.trans hmode, hupdate.trans (congrArg restingRate ?_), hshift⟩
  simp

/-- A craft that has calibrated at rest: the estimator has its bias, and nothing has armed or moved yet. -/
def calibratedCraft : FlightContext ℚ :=
  let c := FlightContext.boot 1 .kRateOnly
  { c with
    est := { c.est with state := .kDone, n := kCalibSamples }
    led := ⟨.kBoot, 200, true⟩
    rate := restingRate true
    tick := 200 }

set_option maxRecDepth 10000 in
/-- The ticks of `calibTicks` take a craft that has booted in rate mode to `calibratedCraft`. -/
theorem execute_calibTicks :
    ∃ es, execute (tick 2) (.boot 1 .kRateOnly) calibTicks = some (es, calibratedCraft) := by
  have hrun : (execute (tick 2) (.boot 1 .kRateOnly) calibTicks).any (fun r =>
      decide ({ r.2 with rate := restingRate true, satShift := 0 } = calibratedCraft ∧ ∀ e ∈ r.1, AtRest e)) = true := by
    decide +kernel
  obtain ⟨⟨es, c⟩, hes, hrun⟩ := (Option.any_eq_true _ _).mp hrun
  obtain ⟨hcraft, hrest⟩ := of_decide_eq_true hrun
  have hinp := execute_inputs hes
  obtain ⟨hrate, hshift⟩ := restingRate_run (ticks_run hes) hrest
  have hsome : (!es.isEmpty) = true := by
    cases es with
    | nil => cases hinp
    | cons => rfl
  refine ⟨es, ?_⟩
  rw [hes, ← hcraft, ← hshift, ← hsome, ← hrate]

end ControlLoop

end DroneMini
