import DroneMini.Failsafe.Reason
import DroneMini.Flight.ControlLoop
import DroneMini.Lib.Checked
import DroneMini.Sbus.Scan

/-!
# The counters of the flight core as `int`

The counters of `FailsafeFsm`, `ComplementaryEstimator` and `SbusParser` are `int` in the source, and an
increment of the largest one has no meaning. Here the functions that increment them are written with
`incr`, and `tickInt` is the control tick made of them; it has no value where a counter overflows.
All but two of the counters are cleared or held before they grow large, so the functions around them are
those on natural numbers; `updateInt_checks` and `feedInt_checks` are about the two that only ever
grow, `good_frames_` and `frames_`.
-/

namespace DroneMini

variable {K : Type}

/-! ## The arm state machine -/

namespace FailsafeFsm

variable (fs : FailsafeFsm)

/-- `update`, "liveness from virtual time", on counters that are `int`. -/
def livenessInt (rc : RcSample K) : Option FailsafeFsm :=
  if fs.fresh rc then do
    let goodFrames ← incr fs.goodFrames
    return { fs with goodFrames := goodFrames, lastGoodUs := rc.tUs, haveFrame := true, lostCount := 0 }
  else if rc.frameLost then do
    let lostCount ← incr fs.lostCount
    return { fs with
      goodFrames := 0
      lostCount := if kRcFrameLostN ≤ lostCount then kRcFrameLostN else lostCount }
  else some { fs with goodFrames := 0 }

/-- `update`, "IMU validity (debounced)", on a counter that is `int`. -/
def imuDebounceInt (imu : ImuSample K) : Option FailsafeFsm :=
  if imuBad imu then
    if fs.imuBadCount < kImuInvalidDebounce then do
      let imuBadCount ← incr fs.imuBadCount
      return { fs with imuBadCount := imuBadCount }
    else some fs
  else some { fs with imuBadCount := 0 }

/-- `FailsafeFsm::update`, on counters that are `int`; there is no result when one of them overflows. -/
def updateInt [Field K] [LinearOrder K] [FloatEnv K] (u : UpdateArgs K) : Option FailsafeFsm := do
  let fs ← fs.livenessInt u.rc
  let rcTimeout := fs.rcTimeout u.nowUs
  let fs ← fs.imuDebounceInt u.imu
  let imuInvalid := fs.imuInvalid
  let fs := fs.battery u.vbat
  let fs := fs.latch (faultBits rcTimeout u.rc.rxFailsafe imuInvalid (vbatCrit u.vbat))
  return fs.arm u.rc imuInvalid u.calibrated u.armTest

/-- The liveness counts good frames, and may overflow doing it. -/
theorem livenessInt_checks {fs : FailsafeFsm} (hlost : fs.lostCount ≤ kRcFrameLostN) (rc : RcSample K) :
    Checks (fs.livenessInt rc) (some (fs.liveness rc)) fun fs' => fs'.goodFrames ≤ intMax := by
  by_cases hfresh : fs.fresh rc = true
  · rw [livenessInt, liveness, if_pos hfresh, if_pos hfresh]
    exact (checks_incr fs.goodFrames).map Iff.rfl
  · -- without a fresh frame nothing overflows
    have hlast : incr fs.lostCount = some (fs.lostCount + 1) := incr_of_lt (hlost.trans_lt (by decide))
    have heq : fs.livenessInt rc = some (fs.liveness rc) := by
      rw [livenessInt, liveness, if_neg hfresh, if_neg hfresh]
      cases rc.frameLost with
      | true =>
          rw [hlast]
          rfl
      | false => rfl
    have hnone : (fs.liveness rc).goodFrames = 0 := by
      rw [liveness, if_neg hfresh]
    rw [heq]
    exact .of_forall fun fs' hfs' => Option.some.inj hfs' ▸ hnone ▸ Nat.zero_le _

/-- The IMU section never overflows, since its count is held at the limit. -/
theorem imuDebounceInt_eq (fs : FailsafeFsm) (imu : ImuSample K) :
    fs.imuDebounceInt imu = some (fs.imuDebounce imu) := by
  unfold imuDebounceInt imuDebounce
  split_ifs with hbad hcount
  · rw [incr_of_lt (hcount.trans (by decide))]
    rfl
  · rfl
  · rfl

/-- **An update overflows exactly when its frame is one good frame too many.** -/
theorem updateInt_checks [Field K] [LinearOrder K] [FloatEnv K] {fs : FailsafeFsm}
    (hlost : fs.lostCount ≤ kRcFrameLostN) (u : UpdateArgs K) :
    Checks (fs.updateInt u) (some (fs.update u)) fun fs' => fs'.goodFrames ≤ intMax := by
  have hsame : (fs.liveness u.rc).goodFrames = (fs.update u).goodFrames := by
    rw [update_goodFrames, liveness_eq]
  unfold updateInt
  simp only [imuDebounceInt_eq]
  exact (livenessInt_checks hlost u.rc).map (Iff.of_eq (congrArg (· ≤ intMax) hsame))

end FailsafeFsm

/-! ## The estimator -/

namespace ComplementaryEstimator

variable [Field K] [FloatEnv K] [LinearOrder K]

/-- `ComplementaryEstimator::calibrateUpdate`, on a counter that is `int`. -/
def calibrateUpdateInt (est : ComplementaryEstimator K) (imu : ImuSample K) :
    Option (ComplementaryEstimator K) :=
  if est.state = .kDone then some est
  else
    let est := if est.state = .kIdle then { est with state := .kCollect } else est
    if !imu.valid || !finite3 imu.gyroRps then some est
    else if kCalibMaxGyroRps < norm3 imu.gyroRps then some { est with n := 0, sum := fun _ => 0 }
    else do
      let sum : Fin 3 → Flt K := fun i => est.sum i + imu.gyroRps i
      let n ← incr est.n
      if kCalibSamples ≤ n then
        let inv : Flt K := 1 / .ofInt n
        return { est with n := n, sum := sum, bias := fun i => sum i * inv, state := .kDone }
      else return { est with n := n, sum := sum }

/-- `ComplementaryEstimator::update`, on counters that are `int`. -/
def updateInt (est : ComplementaryEstimator K) (fuel : Nat) (imu : ImuSample K) (dt : Flt K) :
    Option (ComplementaryEstimator K) :=
  if rejects imu dt then do
    let count ←
      if est.invalidCount < kImuInvalidDebounce then incr est.invalidCount else some est.invalidCount
    return { est with invalidCount := count, imuValid := decide (count < kImuInvalidDebounce) }
  else do
    let decim ← incr est.decim
    let est := { est with invalidCount := 0, imuValid := true, decim := decim }
    if est.decim < kEstDecim then return est
    else fuse { est with decim := 0 } fuel imu dt

/-- The counters of the estimator are cleared or held before they grow large. -/
structure Held (est : ComplementaryEstimator K) : Prop where
  n_le : est.n ≤ kCalibSamples
  n_lt : est.state ≠ .kDone → est.n < kCalibSamples
  decim : est.decim < kEstDecim
  invalidCount : est.invalidCount ≤ kImuInvalidDebounce

omit [LinearOrder K] in
/-- The counters of a new estimator are within their bounds, being zero. -/
theorem held_new : Held (new : ComplementaryEstimator K) :=
  ⟨Nat.zero_le _, fun _ => Nat.succ_pos 199, Nat.succ_pos 1, Nat.zero_le _⟩

/-- The calibration does not overflow while its counter is within its bound. -/
theorem calibrateUpdateInt_eq {est : ComplementaryEstimator K} (h : Held est) (imu : ImuSample K) :
    est.calibrateUpdateInt imu = some (est.calibrateUpdate imu) := by
  unfold calibrateUpdateInt calibrateUpdate
  by_cases hdone : est.state = .kDone
  · rw [if_pos hdone, if_pos hdone]
  · have hincr : incr est.n = some (est.n + 1) := incr_of_lt ((h.n_lt hdone).trans (by decide))
    by_cases hidle : est.state = .kIdle
    · simp only [if_neg hdone, if_pos hidle, hincr, Option.bind_eq_bind, Option.bind_some]
      split_ifs <;> rfl
    · simp only [if_neg hdone, if_neg hidle, hincr, Option.bind_eq_bind, Option.bind_some]
      split_ifs <;> rfl

/-- The calibration keeps its counter within the bound, because it ends when it has its samples. -/
theorem Held.calibrateUpdate {est : ComplementaryEstimator K} (h : Held est) (imu : ImuSample K) :
    Held (est.calibrateUpdate imu) := by
  have hn : (est.calibrateUpdate imu).n ≤ kCalibSamples ∧
      ((est.calibrateUpdate imu).state ≠ .kDone → (est.calibrateUpdate imu).n < kCalibSamples) := by
    unfold ComplementaryEstimator.calibrateUpdate
    by_cases hdone : est.state = .kDone
    · rw [if_pos hdone]
      exact ⟨h.n_le, h.n_lt⟩
    · have hlt := h.n_lt hdone
      have hzero : 0 < kCalibSamples := Nat.succ_pos 199
      by_cases hidle : est.state = .kIdle
      · simp only [if_neg hdone, if_pos hidle]
        split_ifs <;> simp <;> omega
      · simp only [if_neg hdone, if_neg hidle]
        split_ifs <;> simp <;> omega
  rw [calibrateUpdate_eq]
  exact ⟨hn.1, hn.2, h.decim, h.invalidCount⟩

/-- The fusion does not overflow, since both of its counters are held or wrapped. -/
theorem updateInt_eq {est : ComplementaryEstimator K} (h : Held est) (fuel : Nat) (imu : ImuSample K)
    (dt : Flt K) : est.updateInt fuel imu dt = est.update fuel imu dt := by
  have hdecim : incr est.decim = some (est.decim + 1) := incr_of_lt (h.decim.trans (by decide))
  unfold updateInt update
  split_ifs with hrejects hcount
  · rw [incr_of_lt (hcount.trans (by decide))]
    rfl
  · rfl
  · rw [hdecim]
    rfl

/-- The fusion starts over when it has had its samples. -/
theorem Held.update {est est' : ComplementaryEstimator K} {fuel : Nat} {imu : ImuSample K} {dt : Flt K}
    (h : Held est) (hrun : est.update fuel imu dt = some est') : Held est' := by
  unfold ComplementaryEstimator.update at hrun
  dsimp only at hrun
  split_ifs at hrun with hrejects hcount hdecim
  · cases hrun
    exact ⟨h.n_le, h.n_lt, h.decim, hcount⟩
  · cases hrun
    exact ⟨h.n_le, h.n_lt, h.decim, h.invalidCount⟩
  · cases hrun
    exact ⟨h.n_le, h.n_lt, hdecim, Nat.zero_le _⟩
  · rw [fuse_eq hrun]
    exact ⟨h.n_le, h.n_lt, Nat.succ_pos 1, Nat.zero_le _⟩

end ComplementaryEstimator

/-! ## The parser -/

namespace SbusParser

/-- `buf_[n_++] = b`, on an index that is `int`. -/
def pushInt (p : SbusParser) (b : UInt8) : Option SbusParser := do
  let n ← incr p.n
  if h : p.n < kBuf then some { p with buf := p.buf.set p.n b h, n := n } else none

variable [Field K] [LinearOrder K] [FloatEnv K]

/-- One turn of the loop of `feed`, on a frame counter that is `int`. -/
def loopBodyInt (buf : Vector UInt8 kBuf) (s : Loop K) : Option (Loop K) := do
  let head ← buf[s.i]?
  if head ≠ kSbusHeader then
    return { s with i := s.i + 1 }
  let f ← window buf s.i
  match decodeFrame f s.out with
  | some out =>
    let frames ← incr s.frames
    return { i := s.i + kSbusLen
             frames := frames
             decoded := true
             out := out
             accepted := s.accepted ++ [(s.i, f)] }
  | none => return { s with i := s.i + 1 }

/-- `SbusParser::feed`, on counters that are `int`; there is no result when one of them overflows. -/
def feedInt (p : SbusParser) (data : List UInt8) (out : RcSample K) : Option (FeedResult K) := do
  if data.length = 0 ∨ kBuf < data.length then
    return ⟨reset, false, out, []⟩
  let p := if kBuf < p.n + data.length then reset else p
  let p ← data.foldlM pushInt p
  let s ← whileLoop (fun s : Loop K => decide (kSbusLen ≤ p.n - s.i)) (loopBodyInt p.buf) (kBuf + 1)
    ⟨0, p.frames, false, out, []⟩
  if 0 < s.i then
    let buf ← memmove p.buf s.i (p.n - s.i)
    return ⟨⟨buf, p.n - s.i, s.frames⟩, s.decoded, s.out, s.accepted⟩
  else
    return ⟨{ p with frames := s.frames }, s.decoded, s.out, s.accepted⟩

omit [Field K] [LinearOrder K] [FloatEnv K] in
/-- The buffer is full long before its index overflows. -/
theorem pushInt_eq (p : SbusParser) (b : UInt8) : pushInt p b = push p b := by
  unfold pushInt push
  by_cases h : p.n < kBuf
  · rw [incr_of_lt (h.trans (by decide))]
    rfl
  · rw [dif_neg h]
    simp only [dif_neg h, Option.bind_eq_bind, Option.bind_fun_none]

/-- A turn of the loop decodes at most one frame. -/
theorem loopBody_frames {buf : Vector UInt8 kBuf} {s s' : Loop K} (h : loopBody buf s = some s') :
    s.frames ≤ s'.frames := by
  unfold loopBody at h
  obtain ⟨head, -, h⟩ := Option.bind_eq_some_iff.mp h
  split_ifs at h with hhead
  · cases h
    exact le_rfl
  · obtain ⟨f, -, h⟩ := Option.bind_eq_some_iff.mp h
    cases hdec : decodeFrame f s.out with
    | none =>
        rw [hdec] at h
        cases h
        exact le_rfl
    | some out =>
        rw [hdec] at h
        cases h
        exact Nat.le_succ _

/-- A turn of the loop overflows when it decodes one frame too many. -/
theorem loopBodyInt_checks (buf : Vector UInt8 kBuf) {s : Loop K} (hs : s.frames ≤ intMax) :
    Checks (loopBodyInt buf s) (loopBody buf s) fun s' => s'.frames ≤ intMax := by
  unfold loopBodyInt loopBody
  refine .seq fun head _ => ?_
  split_ifs with hhead
  · exact .of_forall fun s' hs' => Option.some.inj hs' ▸ hs
  · refine .seq fun f _ => ?_
    cases decodeFrame f s.out with
    | none => exact .of_forall fun s' hs' => Option.some.inj hs' ▸ hs
    | some out => exact (checks_incr s.frames).map Iff.rfl

omit [Field K] [LinearOrder K] [FloatEnv K] in
/-- Pushing bytes into the buffer decodes nothing, so the frame count stays. -/
theorem foldlM_push_frames {p p' : SbusParser} {data : List UInt8} (h : data.foldlM push p = some p') :
    p'.frames = p.frames := by
  induction data generalizing p with
  | nil =>
      cases h
      rfl
  | cons b data ih =>
      rw [List.foldlM_cons] at h
      obtain ⟨q, hq, h⟩ := Option.bind_eq_some_iff.mp h
      rw [ih h]
      unfold push at hq
      split_ifs at hq
      cases hq
      rfl

/-- **A call overflows exactly when it leaves one frame too many.** -/
theorem feedInt_checks {p : SbusParser} (hp : p.frames ≤ intMax) (data : List UInt8) (out : RcSample K) :
    Checks (p.feedInt data out) (p.feed data out) fun r => r.parser.frames ≤ intMax := by
  have hpush : pushInt = push := funext fun p => funext fun b => pushInt_eq p b
  have hroom : (if kBuf < p.n + data.length then reset else p).frames ≤ intMax := by
    split_ifs
    · exact Nat.zero_le _
    · exact hp
  unfold feedInt feed
  rw [hpush]
  by_cases hrej : data.length = 0 ∨ kBuf < data.length
  · rw [if_pos hrej, if_pos hrej]
    exact .of_forall fun r hr => Option.some.inj hr ▸ Nat.zero_le _
  · rw [if_neg hrej, if_neg hrej]
    refine .seq fun q hq => ?_
    rw [← foldlM_push_frames hq] at hroom
    -- what comes after the loop keeps the count
    have hrest {s : Loop K} {r : FeedResult K} (hr : (if 0 < s.i then do
          let buf ← memmove q.buf s.i (q.n - s.i)
          return ⟨⟨buf, q.n - s.i, s.frames⟩, s.decoded, s.out, s.accepted⟩
        else return ⟨{ q with frames := s.frames }, s.decoded, s.out, s.accepted⟩) = some r) :
        r.parser.frames = s.frames := by
      split_ifs at hr
      · obtain ⟨buf, -, hr⟩ := Option.bind_eq_some_iff.mp hr
        cases hr
        rfl
      · cases hr
        rfl
    refine (Checks.whileLoop (fun s hs => loopBodyInt_checks q.buf hs)
      (fun s s' hs hle => (loopBody_frames hs).trans hle) (kBuf + 1) hroom).bind (fun s _ hs => ?_)
      fun s r _ hr hle => (hrest hr).ge.trans hle
    exact .of_forall fun r hr => (hrest hr).le.trans hs

end SbusParser

/-! ## The tick -/

namespace ControlLoop

variable [Field K] [LinearOrder K] [FloatEnv K]

/-- `tick`, "sensors", on the counters of the parser that are `int`. -/
def senseInt (rc : SbusParser) (h : HalReads K) : Option (Sensed K) := do
  let imu := if h.imuOk then h.imu else { h.imu with valid := false }
  let vbat := if h.vbatOk then h.vbat else .nan
  if h.raw.length = 0 then
    return ⟨imu, { RcSample.zero with tUs := h.rcUs }, vbat, rc, []⟩
  let r ← rc.feedInt h.raw .zero
  return ⟨imu, { r.out with frameOk := r.decoded, tUs := h.rcUs }, vbat, r.parser, r.accepted⟩

/-- Reading the sensors overflows exactly when the frame counter of the parser does. -/
theorem senseInt_checks {rc : SbusParser} (hrc : rc.frames ≤ intMax) (h : HalReads K) :
    Checks (senseInt rc h) (sense rc h) fun s => s.parser.frames ≤ intMax := by
  unfold senseInt sense
  by_cases hempty : h.raw.length = 0
  · rw [if_pos hempty, if_pos hempty]
    exact .of_forall fun s hs => Option.some.inj hs ▸ hrc
  · rw [if_neg hempty, if_neg hempty]
    refine (SbusParser.feedInt_checks hrc h.raw .zero).bind (fun r _ hr => ?_) fun r s _ hs hle => ?_
    · exact .of_forall fun s hs => Option.some.inj hs ▸ hr
    · cases hs
      exact hle

/-- `tick`, "estimation", on the counters of the estimator that are `int`. -/
def estimateInt (fuel : Nat) (est : ComplementaryEstimator K) (armed : Bool) (imu imuCtl : ImuSample K) :
    Option (ComplementaryEstimator K) :=
  if armed then est.updateInt fuel imuCtl kControlDtS else est.calibrateUpdateInt imu

/-- `ControlLoop::tick`, on counters that are `int`; there is no result when one of them overflows. -/
def tickInt (fuel : Nat) (c : FlightContext K) (inp : TickInput K) :
    Option (FlightContext K × TickOutput K) := do
  let h := inp.hal
  let s ← senseInt c.rc h
  let c := { c with rc := s.parser }
  let fs ← c.fs.updateInt ⟨s.rc, s.imu, s.vbat, h.fsUs, c.est.calibrated, inp.armTest⟩
  let c := { c with fs := fs }
  let imuCtl := correct c.est s.imu
  let est ← estimateInt fuel c.est c.fs.armed s.imu imuCtl
  let c := { c with est := est }
  let (rate, pwm, shift) ← control fuel c s.rc imuCtl
  let c := { c with rate := rate, satShift := shift, tick := c.tick + 1 }
  let gate := (OutputStage.apply pwm c.fs.armed c.fs.active c.est.imuValid).2
  let led := (c.led.set (ledMode c.fs c.est.calibrated)).update (h.ledUs / 1000).toUInt32
  let c := { c with led := led }
  return (c, ⟨s, pwm, [gate, .ledSet led.mode]⟩)

/-- The estimation does not overflow while the counters of the estimator are within their bounds. -/
theorem estimateInt_eq {est : ComplementaryEstimator K} (h : est.Held) (fuel : Nat) (armed : Bool)
    (imu imuCtl : ImuSample K) :
    estimateInt fuel est armed imu imuCtl = estimate fuel est armed imu imuCtl := by
  cases armed with
  | true => exact ComplementaryEstimator.updateInt_eq h fuel imuCtl kControlDtS
  | false => exact ComplementaryEstimator.calibrateUpdateInt_eq h imu

/-- The counters of a context that are cleared or held, and the two that only grow are still `int`s. -/
structure IntCounters (c : FlightContext K) : Prop where
  fs : FailsafeFsm.Counts c.fs
  est : c.est.Held
  goodFrames : c.fs.goodFrames ≤ intMax
  frames : c.rc.frames ≤ intMax

/-- **A tick overflows exactly when it leaves one good frame or one frame too many.** -/
theorem tickInt_checks {c : FlightContext K} (hc : IntCounters c) (fuel : Nat) (inp : TickInput K) :
    Checks (tickInt fuel c inp) (tick fuel c inp) fun r =>
      r.1.fs.goodFrames ≤ intMax ∧ r.1.rc.frames ≤ intMax := by
  intro r
  unfold tickInt tick
  simp only [Option.bind_eq_bind, Option.pure_def, Option.bind_eq_some_iff]
  constructor
  · rintro ⟨s, hs, fs, hfs, est, hest, ctl, hctl, hr⟩
    obtain ⟨hs, hframes⟩ := (senseInt_checks hc.frames inp.hal s).mp hs
    obtain ⟨hfs, hgood⟩ := (FailsafeFsm.updateInt_checks hc.fs.lostCount _ fs).mp hfs
    obtain rfl := Option.some.inj hfs
    rw [estimateInt_eq hc.est] at hest
    cases hr
    exact ⟨⟨s, hs, est, hest, ctl, hctl, rfl⟩, hgood, hframes⟩
  · rintro ⟨⟨s, hs, est, hest, ctl, hctl, hr⟩, hgood, hframes⟩
    cases hr
    exact ⟨s, (senseInt_checks hc.frames inp.hal s).mpr ⟨hs, hframes⟩, _,
      (FailsafeFsm.updateInt_checks hc.fs.lostCount _ _).mpr ⟨rfl, hgood⟩, est,
      (estimateInt_eq hc.est _ _ _ _).trans hest, ctl, hctl, rfl⟩

end ControlLoop

end DroneMini
