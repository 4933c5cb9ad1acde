import DroneMini.Failsafe.Invariant
import DroneMini.Lib.FltRat

/-!
# The latch against faults and against time

A fault observed by an update latches and keeps the craft disarmed, unless the same update is an
explicit arm request: the request clears the latch after the faults were recorded, so the craft is
armed with a live fault (`fault_disarms_iff`, `fault_loses_to_edge`). A latch once set stays until
`reset`, `boot` or such a request (`StaysLatched.update`, `latched_run`).
-/

namespace DroneMini

namespace FailsafeFsm

variable {K : Type} [Field K] [LinearOrder K] [FloatEnv K]

/-! ## A fault and an arm request in one update -/

/-- An update with an arm request ends armed and without a latch. -/
theorem update_of_edge {fs : FailsafeFsm} {u : UpdateArgs K} (h : fs.edge u = true) :
    (fs.update u).armed = true ∧ (fs.update u).active = false := by
  rw [update_armed, update_active, armedNext, if_pos h, h]
  exact ⟨rfl, rfl⟩

/-- An update that observes a fault and is no arm request ends latched and disarmed. -/
theorem update_of_fault {fs : FailsafeFsm} {u : UpdateArgs K} (h : fs.FaultObserved u)
    (hedge : fs.edge u = false) : (fs.update u).armed = false ∧ (fs.update u).active = true := by
  rw [update_armed, update_active]
  exact ⟨by simp [armedNext, hedge, h], by simp [hedge, h]⟩

/-- **When a live fault wins.** In every run of the machine, an update that observes a fault leaves the
craft disarmed with its output at zero if and only if it is not a rising edge of `arm_test`. -/
theorem fault_disarms_iff {fs : FailsafeFsm} {es : List (Event FailsafeFsm (Op K) Unit)}
    (hrun : Run opStep reset es fs) {hist later : List (Event FailsafeFsm (Op K) Unit)}
    {e : Event FailsafeFsm (Op K) Unit} (hes : es = hist ++ e :: later) {u : UpdateArgs K}
    (hu : e.inp = .update u) (hfault : e.pre.FaultObserved u) :
    (e.post.armed = false ∧ e.post.outputZero = true) ↔
      ¬ (u.armTest = true ∧ requestHeld hist = false) := by
  subst hes
  obtain ⟨hr, hs, -⟩ := hrun.split
  have hpost : e.post = e.pre.update u := by
    rw [hs, hu]
    rfl
  have hedge : e.pre.edge u = (u.armTest && !requestHeld hist) := by
    rw [edge, armTestPrev_eq_held hr]
  have hiff : (u.armTest = true ∧ requestHeld hist = false) ↔ e.pre.edge u = true := by
    rw [hedge, Bool.and_eq_true, Bool.not_eq_true']
  rw [hiff, hpost]
  cases h : e.pre.edge u with
  | true =>
      obtain ⟨harmed, -⟩ := update_of_edge h
      simp [harmed]
  | false =>
      obtain ⟨harmed, hactive⟩ := update_of_fault hfault h
      simp [harmed, outputZero]

/-- The IMU sample of a level craft at rest: valid, without rotation, and with the accelerometer at minus 9.81
m/s² on its third axis. -/
def level : ImuSample ℚ where
  gyroRps _ := .fin 0
  accelMps2 := ![.fin 0, .fin 0, .fin (-981 / 100)]
  magUT _ := .fin 0
  tempC := .fin 25
  tUs := 0
  valid := true

/-- An update without an RC frame, with a battery voltage. -/
def idle (vbat : ℚ) (armTest : Bool) : UpdateArgs ℚ := ⟨.zero, level, .fin vbat, 0, true, armTest⟩

/-- The state after a request at 3.8 V, which arms the craft. -/
def requested : FailsafeFsm := reset.update (idle (19 / 5) true)

/-- A craft that `arm_test` has armed at 3.8 V, with `arm_test` held down: the update that reads 3.0 V disarms it,
since it is no rising edge. -/
theorem fault_disarms_iff_held : requested.armed = true ∧ (requested.update (idle 3 true)).armed = false ∧
    (requested.update (idle 3 true)).outputZero = true := by
  have hrun : Run opStep reset
      ([⟨reset, Op.update (idle (19 / 5) true), requested, ()⟩] ++
        [⟨requested, Op.update (idle 3 true), requested.update (idle 3 true), ()⟩])
      (requested.update (idle 3 true)) := .snoc (.snoc (.nil _) rfl) rfl
  exact ⟨by decide +kernel, (fault_disarms_iff hrun rfl rfl (by decide +kernel)).mpr (by decide)⟩

/-- An arm request in an update that observes a battery of 3.0 V arms the craft: the edge clears the fault
that the same update has just set. -/
theorem fault_loses_to_edge :
    ¬ ∀ (fs : FailsafeFsm) (es hist later : List (Event FailsafeFsm (Op ℚ) Unit))
        (e : Event FailsafeFsm (Op ℚ) Unit) (u : UpdateArgs ℚ), Run opStep reset es fs →
      es = hist ++ e :: later → e.inp = .update u → e.pre.FaultObserved u →
      e.post.armed = false ∧ e.post.outputZero = true := by
  intro h
  have hrun : Run opStep reset
      ([] ++ [⟨reset, Op.update (idle 3 true), reset.update (idle 3 true), ()⟩])
      (reset.update (idle 3 true)) := .snoc (.nil _) rfl
  have hbad := (h _ _ _ _ _ _ hrun rfl rfl (by decide +kernel)).1
  rw [(update_of_edge (by decide)).1] at hbad
  cases hbad

/-! ## A latch against time -/

/-- What stays of a latched state: the latches, a disarmed craft and the bits of the reason. -/
structure StaysLatched (fs fs' : FailsafeFsm) : Prop where
  latched : fs'.latched = true
  active : fs.active = true → fs'.active = true
  bootLatched : fs'.bootLatched = fs.bootLatched
  armed : fs'.armed = false
  reason : fs.reason ||| fs'.reason = fs'.reason

/-- A latched state that meets the invariant is disarmed, so it is the first state of a stretch that stays
latched. -/
theorem StaysLatched.refl {fs : FailsafeFsm} (h : Inv fs)
    (hl : fs.active = true ∨ fs.bootLatched = true) : StaysLatched fs fs := by
  have hlatched : fs.latched = true := by
    rw [h.latched, Bool.or_eq_true]
    exact hl
  refine ⟨hlatched, id, rfl, ?_, UInt32.or_self⟩
  rw [Bool.eq_false_iff]
  intro harmed
  rw [h.armed harmed] at hlatched
  cases hlatched

/-- Two stretches that stay latched compose to one, when the second starts where the first ends. -/
theorem StaysLatched.trans {a b c : FailsafeFsm} (h : StaysLatched a b) (h' : StaysLatched b c) :
    StaysLatched a c where
  latched := h'.latched
  active ha := h'.active (h.active ha)
  bootLatched := h'.bootLatched.trans h.bootLatched
  armed := h'.armed
  reason := by
    rw [← h'.reason, ← UInt32.or_assoc, h.reason]

/-- An update without an arm request keeps a latched state latched. -/
theorem StaysLatched.update {fs : FailsafeFsm} {u : UpdateArgs K} (hl : fs.latched = true)
    (hedge : fs.edge u = false) : StaysLatched fs (fs.update u) := by
  refine ⟨?_, fun ha => ?_, ?_, ?_, ?_⟩
  · rw [update_latched, hedge, hl]
    rfl
  · rw [update_active, hedge, ha]
    rfl
  · rw [update_bootLatched, hedge]
    rfl
  · rw [update_armed]
    simp [armedNext, hedge, hl]
  · rw [update_reason, hedge, if_neg Bool.false_ne_true, ← UInt32.or_assoc, UInt32.or_self]

/-- An update that is no rising edge of `arm_test`, seen in its run. -/
theorem edge_of_run {fs fs' : FailsafeFsm} {es : List (Event FailsafeFsm (UpdateArgs K) Unit)}
    (hrun : Run updateStep fs es fs') {u : UpdateArgs K}
    (h : ¬ (u.armTest = true ∧ lastArmTest fs.armTestPrev es = false)) : fs'.edge u = false := by
  rw [← armTestPrev_eq_last hrun] at h
  rw [edge, Bool.eq_false_iff]
  intro hedge
  rw [Bool.and_eq_true, Bool.not_eq_true'] at hedge
  exact h hedge

/-- No update of the run is an arm request, when `prev` is the `arm_test` of the update before it. -/
def NoRequest (prev : Bool) (es : List (Event FailsafeFsm (UpdateArgs K) Unit)) : Prop :=
  Along (fun hist e => ¬ (e.inp.armTest = true ∧ lastArmTest prev hist = false)) es

/-- **The latch is permanent.** A run of updates without an arm request from a latched state with the
invariant stays latched. -/
theorem latched_run {fs fs' : FailsafeFsm} {es : List (Event FailsafeFsm (UpdateArgs K) Unit)}
    (hinv : Inv fs) (hl : fs.active = true ∨ fs.bootLatched = true) (hrun : Run updateStep fs es fs')
    (hno : NoRequest fs.armTestPrev es) : StaysLatched fs fs' := by
  induction hrun with
  | nil => exact .refl hinv hl
  | @snoc t u i _ es hr hs ih =>
      obtain ⟨hno, hlast⟩ := along_snoc.mp hno
      have hstay := ih hno
      rw [hs]
      exact hstay.trans (.update hstay.latched (edge_of_run hr hlast))

/-- Every update of such a run keeps the latch of its own state and that of the first. -/
theorem latched_event {fs fs' : FailsafeFsm} {hist later : List (Event FailsafeFsm (UpdateArgs K) Unit)}
    {e : Event FailsafeFsm (UpdateArgs K) Unit} (hinv : Inv fs)
    (hl : fs.active = true ∨ fs.bootLatched = true)
    (hrun : Run updateStep fs (hist ++ e :: later) fs')
    (hno : NoRequest fs.armTestPrev (hist ++ e :: later)) :
    StaysLatched fs e.post ∧ StaysLatched e.pre e.post := by
  obtain ⟨hr, hs, -⟩ := hrun.split
  have hpre := latched_run hinv hl hr hno.of_append
  have hstep : StaysLatched e.pre e.post := by
    rw [hs]
    exact .update hpre.latched (edge_of_run hr (hno hist e later rfl))
  exact ⟨hpre.trans hstep, hstep⟩

end FailsafeFsm

end DroneMini
