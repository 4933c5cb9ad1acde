import DroneMini.Failsafe.Latch

/-!
# What the reason says of the latches

The bits of `reason_` are those of the faults observed since they were last cleared, and the boot latch
has a bit of its own (`Accounts`). So in every reachable state the failsafe is active exactly when one
of the four fault bits is set, the boot latch is set exactly when its bit is, and an armed craft has no
reason at all; the two debounced counters stay within their bounds (`StateInv`).
-/

namespace DroneMini

namespace FailsafeFsm

/-- The bits of the faults, and of the boot latch. -/
def reasonBits (rcTimeout rxFailsafe imuInvalid vbatCrit bootLatched : Bool) : UInt32 :=
  faultBits rcTimeout rxFailsafe imuInvalid vbatCrit |||
    if bootLatched then kReasonBootLatch else kReasonNone

/-- The fault bits of two sets of faults join to those of their union, fault by fault. -/
theorem faultBits_or (a b c d a' b' c' d' : Bool) :
    faultBits a b c d ||| faultBits a' b' c' d' = faultBits (a || a') (b || b') (c || c') (d || d') := by
  revert a b c d a' b' c' d'
  decide

/-- Joining fault bits to the bits of `reason_` adds those faults and leaves the bit of the boot latch
alone. -/
theorem reasonBits_or (a b c d boot a' b' c' d' : Bool) :
    reasonBits a b c d boot ||| faultBits a' b' c' d' =
      reasonBits (a || a') (b || b') (c || c') (d || d') boot := by
  rw [reasonBits, UInt32.or_assoc, UInt32.or_comm (if boot then _ else _), ← UInt32.or_assoc, faultBits_or,
    reasonBits]

/-- The bits of the faults and the bit of the boot latch can be told apart. -/
theorem reasonBits_and (a b c d boot : Bool) :
    (reasonBits a b c d boot &&& kReasonRcTimeout ≠ 0 ↔ a = true) ∧
      (reasonBits a b c d boot &&& kReasonRcFlag ≠ 0 ↔ b = true) ∧
      (reasonBits a b c d boot &&& kReasonImuInvalid ≠ 0 ↔ c = true) ∧
      (reasonBits a b c d boot &&& kReasonVbatCrit ≠ 0 ↔ d = true) ∧
      (reasonBits a b c d boot &&& kReasonBootLatch ≠ 0 ↔ boot = true) := by
  revert a b c d boot
  decide

variable {K : Type} [Field K] [LinearOrder K] [FloatEnv K]

/-- The bits of the reason account for the two latches. -/
def Accounts (fs : FailsafeFsm) : Prop :=
  ∃ a b c d, fs.reason = reasonBits a b c d fs.bootLatched ∧ fs.active = (a || b || c || d)

/-- A machine without a latch and a reason accounts for that. -/
theorem accounts_of_clear {fs : FailsafeFsm} (hreason : fs.reason = kReasonNone)
    (hactive : fs.active = false) (hboot : fs.bootLatched = false) : Accounts fs := by
  refine ⟨false, false, false, false, ?_, hactive⟩
  rw [hreason, hboot]
  rfl

/-- The state after `boot` accounts for its latch: the only bit of `reason_` that can be set is that of the
boot latch. -/
theorem accounts_boot (resetReason : UInt32) : Accounts (boot resetReason) := by
  unfold boot
  split_ifs
  · exact ⟨false, false, false, false, by decide, rfl⟩
  · exact accounts_of_clear rfl rfl rfl

/-- What an update observes is a fault with its bits. -/
theorem decide_faultObserved (fs : FailsafeFsm) (u : UpdateArgs K) : decide (fs.FaultObserved u) =
    (fs.timeoutNow u || u.rc.rxFailsafe || fs.imuInvalidNow u || vbatCrit u.vbat) := by
  rw [Bool.eq_iff_iff, decide_eq_true_iff]
  simp only [FaultObserved, Bool.or_eq_true, or_assoc]

/-- An update keeps the account that `reason_` gives of the latches. -/
theorem Accounts.update {fs : FailsafeFsm} (h : Accounts fs) (u : UpdateArgs K) :
    Accounts (fs.update u) := by
  cases hedge : fs.edge u with
  | true =>
      refine accounts_of_clear ?_ ?_ ?_
      · rw [update_reason, hedge, if_pos rfl]
      · rw [update_active, hedge, Bool.not_true, Bool.false_and]
      · rw [update_bootLatched, hedge, Bool.not_true, Bool.false_and]
  | false =>
      obtain ⟨a, b, c, d, hreason, hactive⟩ := h
      refine ⟨a || fs.timeoutNow u, b || u.rc.rxFailsafe, c || fs.imuInvalidNow u, d || vbatCrit u.vbat,
        ?_, ?_⟩
      · rw [update_reason, update_bootLatched, hedge, if_neg Bool.false_ne_true, Bool.not_false,
          Bool.true_and, hreason, faultsNow, reasonBits_or]
      · rw [update_active, hedge, Bool.not_false, Bool.true_and, hactive, decide_faultObserved]
        simp only [Bool.or_assoc, Bool.or_left_comm]

/-- The counters of the debounced judgements are within their bounds. -/
structure Counts (fs : FailsafeFsm) : Prop where
  imuBadCount : fs.imuBadCount ≤ kImuInvalidDebounce
  lostCount : fs.lostCount ≤ kRcFrameLostN

/-- In the state after `boot` all counters are zero, and so within their bounds. -/
theorem counts_boot (resetReason : UInt32) : Counts (boot resetReason) := by
  unfold boot
  split_ifs <;> exact ⟨Nat.zero_le _, Nat.zero_le _⟩

/-- An update keeps the counters of the machine within their bounds. -/
theorem Counts.update {fs : FailsafeFsm} (h : Counts fs) (u : UpdateArgs K) : Counts (fs.update u) := by
  rw [update_spec]
  constructor
  · show (fs.imuDebounce u.imu).imuBadCount ≤ _
    have hle := h.imuBadCount
    unfold imuDebounce
    split_ifs
    · show fs.imuBadCount + 1 ≤ _
      omega
    · exact hle
    · exact Nat.zero_le _
  · show (fs.liveness u.rc).lostCount ≤ _
    have hle := h.lostCount
    unfold liveness
    split_ifs
    · exact Nat.zero_le _
    · exact le_rfl
    · show fs.lostCount + 1 ≤ _
      omega
    · exact hle

/-- What ties the variables of the machine together: the latches and the bits of `reason_` say the same, an
armed craft has neither, and the counters are within their bounds. -/
structure StateInv (fs : FailsafeFsm) : Prop where
  latched : fs.latched = true ↔ fs.active = true ∨ fs.bootLatched = true
  bootLatched : fs.bootLatched = true ↔ fs.reason &&& kReasonBootLatch ≠ 0
  active : fs.active = true ↔ fs.reason &&& kReasonRcTimeout ≠ 0 ∨ fs.reason &&& kReasonRcFlag ≠ 0 ∨
    fs.reason &&& kReasonImuInvalid ≠ 0 ∨ fs.reason &&& kReasonVbatCrit ≠ 0
  armed : fs.armed = true → fs.latched = false ∧ fs.active = false ∧ fs.bootLatched = false ∧
    fs.reason = kReasonNone
  imuBadCount : 0 ≤ fs.imuBadCount ∧ fs.imuBadCount ≤ kImuInvalidDebounce
  lostCount : 0 ≤ fs.lostCount ∧ fs.lostCount ≤ kRcFrameLostN

/-- The account, the latches and the bounds are the whole of it. -/
theorem stateInv_of_accounts {fs : FailsafeFsm} (hinv : Inv fs) (haccounts : Accounts fs)
    (hcounts : Counts fs) : StateInv fs := by
  obtain ⟨a, b, c, d, hreason, hactive⟩ := haccounts
  obtain ⟨ha, hb, hc, hd, hboot⟩ := reasonBits_and a b c d fs.bootLatched
  refine ⟨by rw [hinv.latched, Bool.or_eq_true], by rw [hreason, hboot], ?_, fun harmed => ?_,
    ⟨Nat.zero_le _, hcounts.imuBadCount⟩, ⟨Nat.zero_le _, hcounts.lostCount⟩⟩
  · rw [hreason, ha, hb, hc, hd, hactive]
    simp only [Bool.or_eq_true, or_assoc]
  · obtain ⟨hinactive, hnoboot⟩ := hinv.not_active harmed
    refine ⟨hinv.armed harmed, hinactive, hnoboot, ?_⟩
    rw [hactive] at hinactive
    simp only [Bool.or_eq_false_iff] at hinactive
    obtain ⟨⟨⟨rfl, rfl⟩, rfl⟩, rfl⟩ := hinactive
    rw [hreason, hnoboot]
    rfl

/-- **In every reachable state the latches, the reason, the armed flag and the counters agree**, whatever
`reset`, `boot` and `update` are called with, and in whatever order. -/
theorem stateInv_of_reach {fs : FailsafeFsm} (h : Reach (opStep (K := K)) reset fs) : StateInv fs := by
  have hboth : Accounts fs ∧ Counts fs := by
    refine h.invariant (I := fun fs => Accounts fs ∧ Counts fs) ⟨accounts_boot 0, counts_boot 0⟩ ?_
    rintro fs op fs' - ⟨haccounts, hcounts⟩ rfl
    cases op with
    | reset => exact ⟨accounts_boot 0, counts_boot 0⟩
    | boot resetReason => exact ⟨accounts_boot resetReason, counts_boot resetReason⟩
    | update u => exact ⟨haccounts.update u, hcounts.update u⟩
  exact stateInv_of_accounts (inv_of_reach h) hboth.1 hboth.2

/-- The conditions hold after a boot from a brownout and one update that observes a battery of 3.0 V. -/
theorem stateInv_of_reach_brownout : StateInv ((boot kResetBrownout).update (idle 3 false)) := by
  refine stateInv_of_reach (K := ℚ) (Reach.trans (t := boot kResetBrownout) ?_ ?_)
  · exact Reach.single (i := .boot kResetBrownout) (o := ()) rfl
  · exact Reach.single (i := .update (idle 3 false)) (o := ()) rfl

end FailsafeFsm

end DroneMini
