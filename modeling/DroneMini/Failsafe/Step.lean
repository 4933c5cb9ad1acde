import DroneMini.Flight.Failsafe
import DroneMini.Lib.Run

/-!
# What one update of the arm state machine does

`FailsafeFsm.update` runs five sections over twelve variables. `update_spec` gives every variable after
an update as an expression in the state before it and the input; the other modules use it through the
lemmas on each variable and do not unfold `update`. Three notions carry the case analysis: a
fault condition the update observes (`FaultObserved`), an explicit arm request (`edge`), and the arm
decision (`armedNext`).
-/

namespace DroneMini

namespace FailsafeFsm

/-! ## The bits of `reason_` -/

/-- No bit is set exactly when no fault condition holds. -/
theorem faultBits_eq_none {a b c d : Bool} :
    faultBits a b c d = kReasonNone ↔ a = false ∧ b = false ∧ c = false ∧ d = false := by
  cases a <;> cases b <;> cases c <;> cases d <;> decide

/-- The timeout bit of the fault bits is set exactly if the timeout is among the faults. -/
theorem faultBits_timeout (a b c d : Bool) :
    faultBits a b c d &&& kReasonRcTimeout = if a then kReasonRcTimeout else 0 := by
  cases a <;> cases b <;> cases c <;> cases d <;> decide

/-- The receiver bit is set exactly by the receiver flag. -/
theorem faultBits_rcFlag (a b c d : Bool) :
    faultBits a b c d &&& kReasonRcFlag = if b then kReasonRcFlag else 0 := by
  cases a <;> cases b <;> cases c <;> cases d <;> decide

variable {K : Type}

/-! ## The sections one by one -/

/-- The good frames after an update: one more when its frame is fresh, none otherwise. -/
def goodFramesNext (fs : FailsafeFsm) (rc : RcSample K) : Nat :=
  if fs.fresh rc then fs.goodFrames + 1 else 0

/-- A frame is fresh when it is good and newer than the last one, if there was one. -/
theorem fresh_iff {fs : FailsafeFsm} {rc : RcSample K} :
    fs.fresh rc = true ↔
      rc.frameOk = true ∧ (fs.haveFrame = false ∨ fs.lastGoodUs < rc.tUs) := by
  rw [fresh, Bool.and_eq_true, Bool.or_eq_true, Bool.not_eq_true', decide_eq_true_iff]

/-- The liveness section of `update` changes four variables: the count of good frames, the time of the last
one, whether there has been one, and the count of lost ones. -/
theorem liveness_eq (fs : FailsafeFsm) (rc : RcSample K) :
    fs.liveness rc =
      { fs with
        goodFrames := fs.goodFramesNext rc
        lastGoodUs := if fs.fresh rc then rc.tUs else fs.lastGoodUs
        haveFrame := fs.haveFrame || fs.fresh rc
        lostCount := (fs.liveness rc).lostCount } := by
  unfold liveness goodFramesNext
  cases h : fs.fresh rc with
  | true => simp
  | false => simp

/-- The IMU section of `update` changes the count of bad samples and nothing else. -/
theorem imuDebounce_eq (fs : FailsafeFsm) (imu : ImuSample K) :
    fs.imuDebounce imu =
      { fs with
        imuBadCount :=
          if imuBad imu then
            if fs.imuBadCount < kImuInvalidDebounce then fs.imuBadCount + 1 else fs.imuBadCount
          else 0 } := by
  unfold imuDebounce
  split_ifs <;> rfl

/-- The latch section of `update` latches, activates the failsafe and adds the bits, each only if there is a
fault bit at all. -/
theorem latch_eq (fs : FailsafeFsm) (r : UInt32) :
    fs.latch r =
      { fs with
        latched := fs.latched || decide (r ≠ kReasonNone)
        active := fs.active || decide (r ≠ kReasonNone)
        reason := fs.reason ||| r } := by
  unfold latch
  by_cases h : r = kReasonNone
  · rw [if_neg (not_not_intro h), h]
    simp [kReasonNone]
  · rw [if_pos h]
    simp [h]

variable [Field K] [LinearOrder K] [FloatEnv K]

/-- The arm section, when a debounced IMU fault has latched before it. -/
theorem arm_eq (fs : FailsafeFsm) (rc : RcSample K) {imuInvalid : Bool} (calibrated armTest : Bool)
    (himu : imuInvalid = true → fs.latched = true) :
    fs.arm rc imuInvalid calibrated armTest =
      { fs with
        armed :=
          if armTest && !fs.armTestPrev then true
          else !fs.active && !fs.latched &&
            if armTest then fs.armed
            else rc.frameOk && rc.armedSwitch && (fs.armed || calibrated &&
              decide (kArmMinGoodFrames ≤ fs.goodFrames) &&
              decide (rc.throttle ≤ kArmThrottleMax)) && !fs.bootLatched
        active := !(armTest && !fs.armTestPrev) && fs.active
        latched := !(armTest && !fs.armTestPrev) && fs.latched
        bootLatched := !(armTest && !fs.armTestPrev) && fs.bootLatched
        reason := if armTest && !fs.armTestPrev then kReasonNone else fs.reason
        armTestPrev := armTest } := by
  unfold arm
  cases hl : fs.latched with
  | true => cases armTest <;> cases fs.armTestPrev <;> cases fs.armed <;> cases fs.active <;> simp
  | false =>
      have hi : imuInvalid = false := by
        rw [Bool.eq_false_iff]
        intro hi
        rw [himu hi] at hl
        cases hl
      subst hi
      cases armTest with
      | true => cases fs.armTestPrev <;> cases fs.active <;> simp
      | false =>
          -- the two branches differ in what is asked beside frame, switch and latches
          cases fs.armed with
          | true => cases fs.active <;> simp
          | false =>
              cases fs.active <;> simp [Bool.and_assoc, Bool.and_left_comm, Bool.and_comm]

/-! ## What an update observes -/

/-- The RC timeout an update observes, after it has taken a fresh frame into account. -/
def timeoutNow (fs : FailsafeFsm) (u : UpdateArgs K) : Bool :=
  (fs.liveness u.rc).rcTimeout u.nowUs

/-- The debounced IMU fault that an update observes: with its own sample the count of bad samples has reached
the debounce limit. -/
def imuInvalidNow (fs : FailsafeFsm) (u : UpdateArgs K) : Bool :=
  (fs.imuDebounce u.imu).imuInvalid

/-- An update observes a fault condition: RC timeout, receiver failsafe flag, debounced IMU fault or
critical battery. -/
def FaultObserved (fs : FailsafeFsm) (u : UpdateArgs K) : Prop :=
  fs.timeoutNow u = true ∨ u.rc.rxFailsafe = true ∨ fs.imuInvalidNow u = true ∨
    vbatCrit u.vbat = true

instance (fs : FailsafeFsm) (u : UpdateArgs K) : Decidable (fs.FaultObserved u) :=
  inferInstanceAs (Decidable (_ ∨ _))

/-- The fault bits that an update adds to `reason_`: timeout, receiver flag, IMU and battery, each as the
update observes it. -/
def faultsNow (fs : FailsafeFsm) (u : UpdateArgs K) : UInt32 :=
  faultBits (fs.timeoutNow u) u.rc.rxFailsafe (fs.imuInvalidNow u) (vbatCrit u.vbat)

/-- An explicit arm request, which clears the latches: `arm_test` is high in this update and was low in the
one before. -/
def edge (fs : FailsafeFsm) (u : UpdateArgs K) : Bool := u.armTest && !fs.armTestPrev

omit [Field K] [LinearOrder K] [FloatEnv K] in
/-- An update whose `arm_test` is low is no arm request. -/
theorem edge_of_not {fs : FailsafeFsm} {u : UpdateArgs K} (h : u.armTest = false) :
    fs.edge u = false := by
  rw [edge, h, Bool.false_and]

/-- An RC frame with the arm switch on, and what the machine asks of a craft not yet armed. -/
def rcArms (fs : FailsafeFsm) (u : UpdateArgs K) : Bool :=
  u.rc.frameOk && u.rc.armedSwitch &&
    (fs.armed || u.calibrated && decide (kArmMinGoodFrames ≤ fs.goodFramesNext u.rc) &&
      decide (u.rc.throttle ≤ kArmThrottleMax))

/-- The arm decision of an update: by the request, by `arm_test` held high, by the conditions to stay armed,
or by those to arm. -/
def armedNext (fs : FailsafeFsm) (u : UpdateArgs K) : Bool :=
  if fs.edge u then true
  else
    !(fs.active || decide (fs.FaultObserved u)) && !(fs.latched || decide (fs.FaultObserved u)) &&
      if u.armTest then fs.armed else fs.rcArms u && !fs.bootLatched

/-- An update adds a bit exactly when it observes a fault. -/
theorem faultsNow_ne_none {fs : FailsafeFsm} {u : UpdateArgs K} :
    fs.faultsNow u ≠ kReasonNone ↔ fs.FaultObserved u := by
  unfold faultsNow FaultObserved
  rw [Ne, faultBits_eq_none]
  cases fs.timeoutNow u <;> cases u.rc.rxFailsafe <;> cases fs.imuInvalidNow u <;>
    cases vbatCrit u.vbat <;> decide

/-- **What one update does** to every variable of the machine, said of the state before and the inputs, so
that later proofs need not unfold `update`. -/
theorem update_spec (fs : FailsafeFsm) (u : UpdateArgs K) :
    fs.update u =
      { armed := fs.armedNext u
        active := !fs.edge u && (fs.active || decide (fs.FaultObserved u))
        latched := !fs.edge u && (fs.latched || decide (fs.FaultObserved u))
        bootLatched := !fs.edge u && fs.bootLatched
        vbatNan := !u.vbat.isFinite
        armTestPrev := u.armTest
        reason := if fs.edge u then kReasonNone else fs.reason ||| fs.faultsNow u
        lastGoodUs := if fs.fresh u.rc then u.rc.tUs else fs.lastGoodUs
        haveFrame := fs.haveFrame || fs.fresh u.rc
        goodFrames := fs.goodFramesNext u.rc
        lostCount := (fs.liveness u.rc).lostCount
        imuBadCount := (fs.imuDebounce u.imu).imuBadCount } := by
  have himu : ((fs.liveness u.rc).imuDebounce u.imu).imuInvalid = fs.imuInvalidNow u := by
    unfold imuInvalidNow imuInvalid
    rw [imuDebounce_eq, imuDebounce_eq, liveness_eq]
  have hfault : decide (fs.faultsNow u ≠ kReasonNone) = decide (fs.FaultObserved u) :=
    decide_eq_decide.mpr faultsNow_ne_none
  have hupd : fs.update u =
      ((((fs.liveness u.rc).imuDebounce u.imu).battery u.vbat).latch (fs.faultsNow u)).arm u.rc
        (fs.imuInvalidNow u) u.calibrated u.armTest := by
    rw [faultsNow, ← himu]
    rfl
  rw [hupd, latch_eq, hfault, arm_eq]
  · rw [imuDebounce_eq, imuDebounce_eq, liveness_eq]
    rfl
  · intro hi
    simp [FaultObserved, hi]

/-! ## Each variable after an update -/

variable (fs : FailsafeFsm) (u : UpdateArgs K)

/-- After an update the craft is armed exactly if the update decided so. -/
theorem update_armed : (fs.update u).armed = fs.armedNext u := by
  rw [update_spec]

/-- After an update the failsafe is active if it was or a fault was observed, unless the update is an arm
request, which ends it. -/
theorem update_active : (fs.update u).active =
    (!fs.edge u && (fs.active || decide (fs.FaultObserved u))) := by
  rw [update_spec]

/-- After an update the machine is latched if it was or a fault was observed, unless the update is an arm
request, which unlatches it. -/
theorem update_latched : (fs.update u).latched =
    (!fs.edge u && (fs.latched || decide (fs.FaultObserved u))) := by
  rw [update_spec]

/-- The latch of the boot is kept by every update that is not an arm request. -/
theorem update_bootLatched :
    (fs.update u).bootLatched = (!fs.edge u && fs.bootLatched) := by
  rw [update_spec]

/-- An update adds its faults to `reason_`, unless it is an arm request, which clears all bits, those of its
own faults included. -/
theorem update_reason : (fs.update u).reason =
    if fs.edge u then kReasonNone else fs.reason ||| fs.faultsNow u := by
  rw [update_spec]

/-- Masking two sets of reason bits and joining the results is masking their union. -/
theorem or_and_mask (a b m : UInt32) : (a ||| b) &&& m = (a &&& m) ||| (b &&& m) := by
  rw [← UInt32.toBitVec_inj]
  exact BitVec.and_or_distrib_right

/-- Without a request the bits of a mask are set exactly when one was or a fault sets one. -/
theorem update_reason_and {fs : FailsafeFsm} {u : UpdateArgs K} (hedge : fs.edge u = false)
    (m : UInt32) : (fs.update u).reason &&& m ≠ 0 ↔ fs.reason &&& m ≠ 0 ∨ fs.faultsNow u &&& m ≠ 0 := by
  rw [update_reason, hedge, if_neg Bool.false_ne_true, or_and_mask, Ne, UInt32.or_eq_zero_iff,
    not_and_or]

/-- An update remembers the level of `arm_test` for the next one, which takes a rise for an arm request. -/
theorem update_armTestPrev : (fs.update u).armTestPrev = u.armTest := by
  rw [update_spec]

/-- An update with a fresh frame stores its time in `last_good_us_`, and any other leaves the time as it
was. -/
theorem update_lastGoodUs : (fs.update u).lastGoodUs =
    if fs.fresh u.rc then u.rc.tUs else fs.lastGoodUs := by
  rw [update_spec]

/-- A good frame leaves its time when it is no older than the last one. -/
theorem update_lastGoodUs_of_le (hok : u.rc.frameOk = true)
    (hle : fs.haveFrame = true → fs.lastGoodUs ≤ u.rc.tUs) :
    (fs.update u).lastGoodUs = u.rc.tUs := by
  rw [update_lastGoodUs]
  split_ifs with hfresh
  · rfl
  · -- the frame carries the time already known
    rw [fresh_iff, not_and, not_or, Bool.not_eq_false] at hfresh
    obtain ⟨hhave, hlt⟩ := hfresh hok
    exact UInt64.le_antisymm (hle hhave) (UInt64.not_lt.mp hlt)

/-- An update without a good frame leaves `last_good_us_` as it was. -/
theorem update_lastGoodUs_of_not (hok : u.rc.frameOk = false) :
    (fs.update u).lastGoodUs = fs.lastGoodUs := by
  rw [update_lastGoodUs, fresh, hok, Bool.false_and, if_neg Bool.false_ne_true]

/-- After an update with a good frame the machine knows a frame, even if the update did not count it as
fresh. -/
theorem update_haveFrame :
    (fs.update u).haveFrame = (fs.haveFrame || u.rc.frameOk) := by
  rw [update_spec]
  cases h : fs.haveFrame with
  | true => rfl
  | false => simp [fresh, h]

/-- An update counts a fresh frame in `good_frames_` and clears the count without one. -/
theorem update_goodFrames : (fs.update u).goodFrames = fs.goodFramesNext u.rc := by
  rw [update_spec]

end FailsafeFsm

end DroneMini
