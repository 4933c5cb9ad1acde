import DroneMini.Failsafe.Step

/-!
# The latches in every reachable state

The machine is driven by `reset`, `boot` and `update`, in any order and with any arguments. In every
state reached this way the latch holds exactly when the failsafe is active or the boot latch is set, and
an armed craft has no latch (`Inv`, `Reach.inv`). `armTestPrev_eq` says what the machine remembers of the
arm requests.
-/

namespace DroneMini

namespace FailsafeFsm

variable {K : Type} [Field K] [LinearOrder K] [FloatEnv K]

/-- A call to the machine: `reset`, `boot` with a reset reason, or `update` with its arguments. -/
inductive Op (K : Type) where
  | reset
  | boot (resetReason : UInt32)
  | update (u : UpdateArgs K)

/-- The state of the machine after one of its three calls. -/
def apply (fs : FailsafeFsm) : Op K → FailsafeFsm
  | .reset => reset
  | .boot resetReason => boot resetReason
  | .update u => fs.update u

/-- The machine under its three calls in any order, as a step relation: every call is accepted and has no
output. -/
def opStep (fs : FailsafeFsm) (op : Op K) (fs' : FailsafeFsm) (_ : Unit) : Prop := fs' = fs.apply op

/-- The machine under calls to `update` alone, as the control loop makes them once it has booted. -/
def updateStep (fs : FailsafeFsm) (u : UpdateArgs K) (fs' : FailsafeFsm) (_ : Unit) : Prop :=
  fs' = fs.update u

/-- The state after the updates of a list of arguments, made one after the other. -/
def updates (fs : FailsafeFsm) (us : List (UpdateArgs K)) : FailsafeFsm :=
  us.foldl (fun fs u => fs.update u) fs

/-- The run that the updates of a list of arguments make, as the list of its events. -/
def trace (fs : FailsafeFsm) : List (UpdateArgs K) → List (Event FailsafeFsm (UpdateArgs K) Unit)
  | [] => []
  | u :: us => ⟨fs, u, fs.update u, ()⟩ :: trace (fs.update u) us

/-- The machine accepts every list of arguments: its trace is a run and ends in the state that `updates`
computes. -/
theorem trace_run (fs : FailsafeFsm) (us : List (UpdateArgs K)) :
    Run updateStep fs (trace fs us) (fs.updates us) := by
  induction us generalizing fs with
  | nil => exact .nil fs
  | cons u us ih => exact Run.append (.snoc (.nil fs) rfl) (ih (fs.update u))

/-- The trace over two lists of arguments is the trace over the first, followed by that of the second from
where the first ends. -/
theorem trace_append (fs : FailsafeFsm) (us vs : List (UpdateArgs K)) :
    trace fs (us ++ vs) = trace fs us ++ trace (fs.updates us) vs := by
  induction us generalizing fs with
  | nil => rfl
  | cons u us ih =>
      rw [List.cons_append, trace, ih]
      rfl

/-- The inputs of the run over a list are the list. -/
theorem map_inp_trace (fs : FailsafeFsm) (us : List (UpdateArgs K)) :
    (trace fs us).map Event.inp = us := by
  induction us generalizing fs with
  | nil => rfl
  | cons u us ih => rw [trace, List.map_cons, ih]

/-- The invariant of the machine: it is latched exactly when the failsafe is active or the boot latch stands,
and an armed craft is not latched. -/
structure Inv (fs : FailsafeFsm) : Prop where
  latched : fs.latched = (fs.active || fs.bootLatched)
  armed : fs.armed = true → fs.latched = false

/-- The state after `reset` meets the invariant of the machine. -/
theorem inv_reset : Inv reset := ⟨rfl, fun h => Bool.noConfusion h⟩

/-- The state after `boot` meets the invariant of the machine, whatever the reset reason. -/
theorem inv_boot (resetReason : UInt32) : Inv (boot resetReason) := by
  unfold boot
  split_ifs
  · exact ⟨rfl, fun h => Bool.noConfusion h⟩
  · exact inv_reset

/-- A machine that has just booted has seen no frame yet. -/
theorem boot_haveFrame (resetReason : UInt32) : (boot resetReason).haveFrame = false := by
  unfold boot
  split_ifs <;> rfl

/-- A machine that has just booted remembers `arm_test` as low. -/
theorem boot_armTestPrev (resetReason : UInt32) : (boot resetReason).armTestPrev = false := by
  unfold boot
  split_ifs <;> rfl

/-- A machine that has just booted is disarmed. -/
theorem boot_armed (resetReason : UInt32) : (boot resetReason).armed = false := by
  unfold boot
  split_ifs <;> rfl

/-- A machine that has just booted has no failsafe active, even where the reset reason latches it. -/
theorem boot_active (resetReason : UInt32) : (boot resetReason).active = false := by
  unfold boot
  split_ifs <;> rfl

/-- A machine that has just booted has counted no good frame. -/
theorem boot_goodFrames (resetReason : UInt32) : (boot resetReason).goodFrames = 0 := by
  unfold boot
  split_ifs <;> rfl

/-- An update keeps the invariant of the machine, for arbitrary arguments. -/
theorem Inv.update {fs : FailsafeFsm} (h : Inv fs) (u : UpdateArgs K) : Inv (fs.update u) := by
  refine ⟨?_, fun harmed => ?_⟩
  · rw [update_latched, update_active, update_bootLatched, h.latched]
    cases fs.edge u <;> cases fs.active <;> cases fs.bootLatched <;>
      cases decide (fs.FaultObserved u) <;> rfl
  · rw [update_armed, armedNext] at harmed
    rw [update_latched]
    cases hedge : fs.edge u with
    | true => rfl
    | false =>
        rw [hedge] at harmed
        cases hl : (fs.latched || decide (fs.FaultObserved u)) with
        | false => rfl
        | true => simp [hl] at harmed

/-- Each of the three calls keeps the invariant of the machine. -/
theorem Inv.apply {fs : FailsafeFsm} (h : Inv fs) (op : Op K) : Inv (fs.apply op) := by
  cases op with
  | reset => exact inv_reset
  | boot resetReason => exact inv_boot resetReason
  | update u => exact h.update u

/-- **Every reachable state meets the invariant**, over any order of calls from the reset state. -/
theorem inv_of_reach {fs : FailsafeFsm} (h : Reach (opStep (K := K)) reset fs) : Inv fs := by
  refine h.invariant inv_reset ?_
  rintro a op b - hinv rfl
  exact hinv.apply op

/-- In a state with the invariant nothing is armed while the failsafe is active. -/
theorem Inv.not_active {fs : FailsafeFsm} (h : Inv fs) (harmed : fs.armed = true) :
    fs.active = false ∧ fs.bootLatched = false := by
  have hl := h.armed harmed
  rw [h.latched] at hl
  exact Bool.or_eq_false_iff.mp hl

/-- An armed craft without a fault or a request stays armed exactly while good frames come in with the
arm switch on. -/
theorem Inv.update_of_armed {fs : FailsafeFsm} {u : UpdateArgs K} (h : Inv fs)
    (harmed : fs.armed = true) (hno : u.armTest = false) (hfault : ¬ fs.FaultObserved u) :
    (fs.update u).armed = (u.rc.frameOk && u.rc.armedSwitch) := by
  obtain ⟨hactive, hboot⟩ := h.not_active harmed
  rw [update_armed]
  simp [armedNext, edge, rcArms, hno, hfault, harmed, hactive, hboot, h.armed harmed]

/-- A bit of the mask in `reason_` means an active failsafe. -/
def ReasonActive (m : UInt32) (fs : FailsafeFsm) : Prop := fs.reason &&& m ≠ 0 → fs.active = true

/-- Every boot state meets this, when the boot latch is not in the mask. -/
theorem reasonActive_boot (resetReason : UInt32) {m : UInt32} (hm : kReasonBootLatch &&& m = 0) :
    ReasonActive m (boot resetReason) := by
  intro h
  unfold boot at h
  split_ifs at h with hafter
  · rw [show reset.reason ||| kReasonBootLatch = kReasonBootLatch by decide, hm] at h
    exact absurd rfl h
  · rw [show reset.reason &&& m = 0 from UInt32.zero_and] at h
    exact absurd rfl h

/-- An update keeps a bit of `reason_` tied to an active failsafe: what sets the bit activates the failsafe,
and a request clears both. -/
theorem ReasonActive.update {m : UInt32} {fs : FailsafeFsm} (h : ReasonActive m fs)
    (u : UpdateArgs K) : ReasonActive m (fs.update u) := by
  intro hbit
  rw [update_active]
  cases hedge : fs.edge u with
  | true =>
      rw [update_reason, hedge, if_pos rfl, show kReasonNone = 0 from rfl, UInt32.zero_and] at hbit
      exact absurd rfl hbit
  | false =>
      rcases (update_reason_and hedge m).mp hbit with hbit | hbit
      · rw [h hbit]
        rfl
      · have hfault : fs.FaultObserved u := by
          rw [← faultsNow_ne_none]
          intro hnone
          rw [hnone, show kReasonNone = 0 from rfl, UInt32.zero_and] at hbit
          exact hbit rfl
        rw [decide_eq_true hfault, Bool.or_true]
        rfl

/-- **In every reachable state a reason beside the boot latch means an active failsafe.** -/
theorem reasonActive_of_reach {m : UInt32} (hm : kReasonBootLatch &&& m = 0) {fs : FailsafeFsm}
    (h : Reach (opStep (K := K)) reset fs) : ReasonActive m fs := by
  have hreset : ReasonActive m reset := reasonActive_boot 0 hm
  refine h.invariant hreset ?_
  rintro a op b - ha rfl
  cases op with
  | reset => exact hreset
  | boot resetReason => exact reasonActive_boot resetReason hm
  | update u => exact ha.update u

/-! ## What the machine remembers of the arm requests -/

/-- The value of `arm_test` in the last update of a run of updates, `prev` when there was none. -/
def lastArmTest (prev : Bool) (hist : List (Event FailsafeFsm (UpdateArgs K) Unit)) : Bool :=
  (hist.getLast?.map fun e => e.inp.armTest).getD prev

/-- `arm_test` was true in the last update, and neither `reset` nor `boot` came after it. -/
def requestHeld (hist : List (Event FailsafeFsm (Op K) Unit)) : Bool :=
  match hist.getLast?.map Event.inp with
  | some (.update u) => u.armTest
  | _ => false

/-- A run of updates ends with the `arm_test` of the last one remembered. -/
theorem armTestPrev_eq_last {fs fs' : FailsafeFsm}
    {es : List (Event FailsafeFsm (UpdateArgs K) Unit)} (h : Run updateStep fs es fs') :
    fs'.armTestPrev = lastArmTest fs.armTestPrev es := by
  cases h with
  | nil => rfl
  | snoc hr hs =>
      rw [hs, update_armTestPrev, lastArmTest, List.getLast?_concat]
      rfl

/-- A run of calls ends with the `arm_test` of the last update remembered, unless `reset` or `boot`
made the machine forget it. -/
theorem armTestPrev_eq_held {fs : FailsafeFsm} {es : List (Event FailsafeFsm (Op K) Unit)}
    (h : Run opStep reset es fs) : fs.armTestPrev = requestHeld es := by
  cases h with
  | nil => rfl
  | @snoc _ _ op _ _ hr hs =>
      rw [hs, requestHeld, List.getLast?_concat]
      cases op with
      | reset => rfl
      | boot resetReason =>
          exact boot_armTestPrev resetReason
      | update u =>
          exact update_armTestPrev _ u

end FailsafeFsm

end DroneMini
