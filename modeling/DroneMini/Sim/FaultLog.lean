import DroneMini.Loop.ImuJudges
import DroneMini.Loop.RxFlag
import DroneMini.Sim.Session
import DroneMini.Lib.FltRat

/-!
# What a log says about faults

The log of a session read as a record of its faults. A row holds what the control tick read, so a fault is a
property of the rows and of the scenario (`Faulty`): the last frame is 100 ms back, the receiver raises its
flag, the last five samples of the IMU are of no use, or the battery is flat. A row shows the failsafe exactly
when some tick up to it was faulty (`failsafe_logged`), and from there on no row moves a motor. Under `arm_test`
the first tick is left out of this: its request clears what it has observed (`FaultBefore`).
-/

namespace DroneMini

namespace ClosedLoop

open PlantRunner FailsafeFsm SbusParser
open ControlLoop (sense_idle tickStep tick_spec decodes lastDecodeUs clock ClockMonotone fsArgs)

variable {σ F K : Type} [Field K] [LinearOrder K] [FloatEnv K] (s : Setup σ F K)

/-! ## Faults in a log -/

/-- What the control tick read, from the row of the tick. -/
def readsOf (k : Nat) (row : Row F) : HalReads K := reads s k ⟨row.gyro, row.acc, row.vbat, s.start⟩

/-- The last frame up to a tick is 100 ms back. -/
def LinkLost (frame : Nat → Option (List Nat × Nat)) (k : Nat) : Prop :=
  ∃ j, (frame j).isSome ∧ j + 100 ≤ k ∧ ∀ i ≤ k, j < i → frame i = none

/-- The frame of a tick carries the failsafe flag of the receiver. -/
def FlagRaised (frame : Nat → Option (List Nat × Nat)) (k : Nat) : Prop :=
  ∃ f, frame k = some f ∧ f.2 &&& 0x08 ≠ 0

/-- The last five samples up to a tick are of no use. -/
def ImuUnusable (rows : List (Row F)) (k : Nat) : Prop :=
  4 ≤ k ∧ ∀ j ≤ k, k < j + kImuInvalidDebounce →
    ∃ row, rows[j]? = some row ∧ imuBad (readsOf s j row).imu = true

/-- The battery voltage that the plant logged in a tick is critical when the firmware reads it. -/
def BatteryFlat (rows : List (Row F)) (k : Nat) : Prop :=
  ∃ row, rows[k]? = some row ∧ vbatCrit (Flt.ofBits (s.craft.bits row.vbat) : Flt K) = true

/-- A tick of a log is faulty: the link is lost, the receiver has raised its flag, the IMU is of no use, or
the battery is critical. -/
def Faulty (rows : List (Row F)) (k : Nat) : Prop :=
  LinkLost s.run.frame k ∨ FlagRaised s.run.frame k ∨ ImuUnusable s rows k ∨ BatteryFlat s rows k

/-- The frames of the scenario are accepted by the parser. -/
def Intact : Prop := ∀ k f, s.run.frame k = some f → acceptable (sbusEncode f.1 f.2) = true

/-! ## The ticks behind a log -/

/-- Each tick of a run read what its row of the log says, and its row shows what it put out. -/
def Behind (rows : List (Row F)) (es : List (ControlLoop.Tick K)) : Prop :=
  Along (fun hist e => ∃ row, rows[hist.length]? = some row ∧
    e.inp = ⟨readsOf s hist.length row, s.fw.armTest⟩ ∧
    row.out = Wire.outDict ((shown e.post e.out.calls).map s.bits)) es

variable {s} {rows : List (Row F)}

omit [LinearOrder K] [FloatEnv K] in
/-- The ticks that a log was written for stand behind its rows. -/
theorem Logs.behind {es : List (ControlLoop.Tick K)} (h : Logs s es rows) : Behind s rows es := by
  rintro hist e later rfl
  obtain ⟨m, hinp, hrow⟩ := h.row hist.length e (by simp)
  exact ⟨_, hrow, hinp, rfl⟩

omit [Field K] [LinearOrder K] [FloatEnv K] in
/-- A tick reads no RC bytes exactly if the scenario has no frame for it. -/
theorem raw_eq_nil {k : Nat} : s.run.raw k = [] ↔ s.run.frame k = none := by
  unfold RunArgs.raw
  cases hf : s.run.frame k with
  | none => simp
  | some f =>
    have hne : sbusEncode f.1 f.2 ≠ [] := by
      intro hnil
      have hlen := length_sbusEncode f.1 f.2
      rw [hnil] at hlen
      cases hlen
    simp [hne]

omit [Field K] [LinearOrder K] [FloatEnv K] in
/-- The bytes of a tick are one frame that is accepted. -/
theorem Intact.raw (h : Intact s) {k : Nat} (hne : s.run.raw k ≠ []) :
    (s.run.raw k).length = kSbusLen ∧ acceptable (s.run.raw k) = true := by
  rw [Ne, raw_eq_nil] at hne
  obtain ⟨f, hf⟩ := Option.ne_none_iff_exists'.mp hne
  rw [RunArgs.raw, hf]
  exact ⟨length_sbusEncode f.1 f.2, h k f hf⟩

/-- Before every tick of a session the parser is idle, since each frame was fed to it whole and accepted. -/
theorem idle_of_behind (hintact : Intact s) {es : List (ControlLoop.Tick K)} {c : FlightContext K}
    (hrun : Run tickStep (Runner.start s.fw).ctx es c) (h : Behind s rows es) : c.rc.n = 0 := by
  refine hrun.induct (P := fun _ c => c.rc.n = 0) h rfl ?_
  rintro hist e hidle ⟨fuel, htick⟩ ⟨row, -, hinp, -⟩
  have spec := tick_spec htick
  rw [spec.rc]
  refine (sense_idle spec.sense hidle ?_).1
  rw [hinp]
  exact hintact.raw

/-- A tick accepts exactly its own frame, if the scenario has one for it. -/
theorem accepted_of_behind (hintact : Intact s) {hist later : List (ControlLoop.Tick K)}
    {e : ControlLoop.Tick K} {c : FlightContext K}
    (hrun : Run tickStep (Runner.start s.fw).ctx (hist ++ e :: later) c)
    (h : Behind s rows (hist ++ e :: later)) :
    e.out.sensed.accepted
      = if s.run.frame hist.length = none then [] else [(0, s.run.raw hist.length)] := by
  obtain ⟨hbefore, ⟨fuel, htick⟩, -⟩ := hrun.split
  obtain ⟨row, -, hinp, -⟩ := h hist e later rfl
  have hidle := idle_of_behind hintact hbefore (Along.of_append h)
  have hraw : e.inp.hal.raw = s.run.raw hist.length := by rw [hinp]; rfl
  have haccepted := (sense_idle (tick_spec htick).sense hidle (by rw [hraw]; exact hintact.raw)).2
  rw [haccepted, hraw]
  simp only [raw_eq_nil]

/-- A tick decodes a frame exactly when it has one. -/
theorem decodes_of_behind (hintact : Intact s) {hist later : List (ControlLoop.Tick K)}
    {e : ControlLoop.Tick K} {c : FlightContext K}
    (hrun : Run tickStep (Runner.start s.fw).ctx (hist ++ e :: later) c)
    (h : Behind s rows (hist ++ e :: later)) : decodes e = (s.run.frame hist.length).isSome := by
  rw [decodes, accepted_of_behind hintact hrun h]
  cases s.run.frame hist.length <;> rfl

omit [LinearOrder K] [FloatEnv K] in
/-- The clock of the ticks behind a log shows the time of each row three times. -/
theorem clock_of_behind {es : List (ControlLoop.Tick K)} (h : Behind s rows es) :
    clock es = (List.range es.length).flatMap fun k => List.replicate 3 (.ofNat (k * DT_US)) := by
  induction es using List.reverseRecOn with
  | nil => rfl
  | append_singleton es e ih =>
    obtain ⟨hes, row, -, hinp, -⟩ := along_snoc.mp h
    rw [ControlLoop.clock_append, ih hes, List.length_append, List.length_singleton, List.range_succ,
      List.flatMap_append]
    simp [clock, hinp, readsOf, reads, List.replicate]

omit [Field K] [LinearOrder K] [FloatEnv K] in
/-- The time of a tick fits into 64 bits, so the clock does not wrap around during a run. -/
theorem toNat_time (k : Nat) (hk : k < s.run.nTicks) : (UInt64.ofNat (k * DT_US)).toNat = k * DT_US := by
  have hsmall := s.nTicks_lt
  apply UInt64.toNat_ofNat_of_lt'
  show k * 1000 < 2 ^ 64
  omega

omit [LinearOrder K] [FloatEnv K] in
/-- The clock of the ticks behind a log never goes back. -/
theorem clockMonotone_of_behind {es : List (ControlLoop.Tick K)} (h : Behind s rows es)
    (hlen : es.length ≤ s.run.nTicks) : ClockMonotone es := by
  rw [ClockMonotone, clock_of_behind h, List.pairwise_flatMap]
  refine ⟨fun k _ => List.pairwise_replicate.mpr (.inr (UInt64.le_refl _)), ?_⟩
  refine List.pairwise_lt_range.imp_of_mem fun {j k} hj hk hlt t ht u hu => ?_
  have hj := List.mem_range.mp hj
  have hk := List.mem_range.mp hk
  rw [List.eq_of_mem_replicate ht, List.eq_of_mem_replicate hu, UInt64.le_iff_toNat_le,
    toNat_time (s := s) j (by omega), toNat_time (s := s) k (by omega)]
  exact Nat.mul_le_mul_right _ hlt.le

/-- The time of the last tick that decoded a frame is that of the last frame in the scenario. -/
theorem lastDecodeUs_of_behind (hintact : Intact s) {es : List (ControlLoop.Tick K)} {c : FlightContext K}
    (hrun : Run tickStep (Runner.start s.fw).ctx es c) (h : Behind s rows es) (t : UInt64) :
    t ∈ lastDecodeUs es ↔ ∃ j < es.length, (s.run.frame j).isSome ∧ t = .ofNat (j * DT_US) ∧
      ∀ i < es.length, j < i → s.run.frame i = none := by
  induction es using List.reverseRecOn generalizing c with
  | nil => simp [lastDecodeUs]
  | append_singleton es e ih =>
    have hdecodes := decodes_of_behind hintact hrun h
    obtain ⟨hes, row, -, hinp, -⟩ := along_snoc.mp h
    have ih := ih hrun.snoc_inv.1 hes
    rw [List.length_append, List.length_singleton]
    cases hframe : s.run.frame es.length with
    | none =>
      rw [hframe] at hdecodes
      rw [ControlLoop.lastDecodeUs_snoc_of_not hdecodes, ih]
      constructor
      · rintro ⟨j, hj, hsome, ht, hnone⟩
        refine ⟨j, by omega, hsome, ht, fun i hi hji => ?_⟩
        rcases Nat.lt_succ_iff_lt_or_eq.mp hi with hi | rfl
        · exact hnone i hi hji
        · exact hframe
      · rintro ⟨j, hj, hsome, ht, hnone⟩
        have hne : j ≠ es.length := by
          rintro rfl
          rw [hframe] at hsome
          cases hsome
        exact ⟨j, by omega, hsome, ht, fun i hi => hnone i (by omega)⟩
    | some f =>
      rw [hframe] at hdecodes
      rw [ControlLoop.lastDecodeUs_snoc_of_decodes hdecodes, Option.mem_some_iff]
      have htime : e.inp.hal.rcUs = .ofNat (es.length * DT_US) := by rw [hinp]; rfl
      constructor
      · rintro rfl
        exact ⟨es.length, by omega, by rw [hframe]; rfl, htime, fun i hi hji => by omega⟩
      · rintro ⟨j, hj, hsome, ht, hnone⟩
        have hlast : j = es.length := by
          by_contra hne
          have := hnone es.length (by omega) (by omega)
          rw [hframe] at this
          cases this
        rw [htime, ht, hlast]

omit [LinearOrder K] [FloatEnv K] in
/-- The sample that the modules take is bad when the one that was read is. -/
theorem imuBad_sampleOf (k : Nat) (row : Row F) :
    imuBad (ControlLoop.sampleOf (readsOf s k row)) = imuBad (readsOf s k row).imu := by
  unfold ControlLoop.sampleOf
  split_ifs with hok
  · rfl
  · have hvalid : (readsOf s k row).imu.valid = false := Bool.eq_false_iff.mpr hok
    simp [imuBad, hvalid]

/-! ## What the arm state machine observes -/

section Observed
variable {hist later : List (ControlLoop.Tick K)} {e : ControlLoop.Tick K} {c : FlightContext K}
  (hrun : Run tickStep (Runner.start s.fw).ctx (hist ++ e :: later) c) (h : Behind s rows (hist ++ e :: later))
  (hlen : hist.length < s.run.nTicks)
include hrun h hlen

/-- A tick observes an RC timeout exactly if the link is lost in the scenario up to it. -/
theorem timeoutNow_of_behind (hintact : Intact s) :
    e.pre.fs.timeoutNow (fsArgs e.pre e.inp e.out.sensed) = true ↔ LinkLost s.run.frame hist.length := by
  obtain ⟨hbefore, hs, -⟩ := hrun.split
  rw [List.append_cons] at h
  have hbehind : Behind s rows (hist ++ [e]) := Along.of_append h
  obtain ⟨-, row, -, hinp, -⟩ := along_snoc.mp hbehind
  have hsnoc : Run tickStep (Runner.start s.fw).ctx (hist ++ [e]) e.post := .snoc hbefore hs
  have hmono := clockMonotone_of_behind hbehind (by simpa using hlen)
  have hknown := ControlLoop.linkKnown_of_run hsnoc (boot_haveFrame s.fw.resetReason) hmono
  have hnow : e.inp.hal.fsUs = .ofNat (hist.length * DT_US) := by rw [hinp]; rfl
  have hback {j : Nat} (hj : j ≤ hist.length) :
      kRcTimeoutUs ≤ UInt64.ofNat (hist.length * DT_US) - .ofNat (j * DT_US) ↔ j + 100 ≤ hist.length := by
    have hle : (UInt64.ofNat (j * DT_US)) ≤ .ofNat (hist.length * DT_US) := by
      rw [UInt64.le_iff_toNat_le, toNat_time (s := s) j (by omega), toNat_time _ hlen]
      exact Nat.mul_le_mul_right _ hj
    rw [UInt64.le_iff_toNat_le, UInt64.toNat_sub_of_le _ _ hle, toNat_time (s := s) j (by omega),
      toNat_time _ hlen]
    show 100000 ≤ hist.length * 1000 - j * 1000 ↔ _
    omega
  rw [ControlLoop.timeoutNow_iff hknown hs, hnow]
  simp only [lastDecodeUs_of_behind hintact hsnoc hbehind, List.length_append, List.length_singleton]
  constructor
  · rintro ⟨t, ⟨j, hj, hsome, rfl, hnone⟩, hle⟩
    exact ⟨j, hsome, (hback (by omega)).mp hle, fun i hi => hnone i (by omega)⟩
  · rintro ⟨j, hsome, hle, hnone⟩
    exact ⟨_, ⟨j, by omega, hsome, rfl, fun i hi => hnone i (by omega)⟩, (hback (by omega)).mpr hle⟩

omit hlen in
/-- A tick observes the flag of the receiver exactly if its frame carries it. -/
theorem rxFailsafe_of_behind (hintact : Intact s) :
    e.out.sensed.rc.rxFailsafe = true ↔ FlagRaised s.run.frame hist.length := by
  have haccepted := accepted_of_behind hintact hrun h
  obtain ⟨-, ⟨fuel, htick⟩, -⟩ := hrun.split
  rw [(tick_spec htick).sensed.rxFailsafe, haccepted]
  cases hframe : s.run.frame hist.length with
  | none => simp [FlagRaised, hframe]
  | some f =>
    have hraw : s.run.raw hist.length = sbusEncode f.1 f.2 := by rw [RunArgs.raw, hframe]
    rw [if_neg (by simp), hraw]
    simp [FlagRaised, hframe, flagged_sbusEncode]

omit hlen in
/-- A tick observes a debounced fault of the IMU exactly if the last five rows all show a sample that is of no
use. -/
theorem imuInvalidNow_of_behind :
    e.pre.fs.imuInvalidNow (fsArgs e.pre e.inp e.out.sensed) = true ↔ ImuUnusable s rows hist.length := by
  obtain ⟨hbefore, hs, -⟩ := hrun.split
  rw [List.append_cons] at h
  have hbehind : Behind s rows (hist ++ [e]) := Along.of_append h
  have hsnoc : Run tickStep (Runner.start s.fw).ctx (hist ++ [e]) e.post := .snoc hbefore hs
  have hboot : (Runner.start s.fw).ctx.fs = boot s.fw.resetReason := rfl
  have hjudged := ControlLoop.judged_of_run hboot rfl hsnoc
  have hpost : e.pre.fs.imuInvalidNow (fsArgs e.pre e.inp e.out.sensed)
      = decide (kImuInvalidDebounce ≤ e.post.fs.imuBadCount) := by
    obtain ⟨fuel, htick⟩ := hs
    rw [(tick_spec htick).fs, update_spec]
    rfl
  have hbad (j : Nat) (x : ControlLoop.Tick K) (hx : (hist ++ [e])[j]? = some x) :
      ∃ row, rows[j]? = some row ∧ ControlLoop.badSample x = imuBad (readsOf s j row).imu := by
    obtain ⟨before, rfl, row, hrow, hinp, -⟩ := Along.place hbehind hx
    refine ⟨row, hrow, ?_⟩
    rw [ControlLoop.badSample, hinp]
    exact imuBad_sampleOf before.length row
  rw [hpost, decide_eq_true_iff, hjudged.invalid_iff, Debounce.le_streak_iff, Debounce.endsBad_iff,
    List.length_append, List.length_singleton]
  constructor
  · rintro ⟨hlong, hall⟩
    refine ⟨Nat.le_of_succ_le_succ hlong, fun j hj hlast => ?_⟩
    obtain ⟨x, hx⟩ : ∃ x, (hist ++ [e])[j]? = some x :=
      ⟨_, List.getElem?_eq_getElem (by simpa using Nat.lt_succ_of_le hj)⟩
    obtain ⟨row, hrow, heq⟩ := hbad j x hx
    exact ⟨row, hrow, heq ▸ hall j x hx hlast⟩
  · rintro ⟨hlong, hall⟩
    refine ⟨Nat.succ_le_succ hlong, fun j x hx hlast => ?_⟩
    have hj : j < hist.length + 1 := by simpa using (List.getElem?_eq_some_iff.mp hx).1
    obtain ⟨row, hrow, heq⟩ := hbad j x hx
    obtain ⟨row', hrow', hrowbad⟩ := hall j (by omega) hlast
    rw [hrow, Option.some.injEq] at hrow'
    rw [heq, hrow']
    exact hrowbad

omit hlen in
/-- A tick observes a critical battery exactly if its row logs a voltage that is one. -/
theorem vbatCrit_of_behind :
    vbatCrit e.out.sensed.vbat = true ↔ BatteryFlat s rows hist.length := by
  obtain ⟨-, ⟨fuel, htick⟩, -⟩ := hrun.split
  obtain ⟨row, hrow, hinp, -⟩ := h hist e later rfl
  have hvbat := (tick_spec htick).sensed.vbat
  have hread : e.inp.hal.vbat = Flt.ofBits (s.craft.bits row.vbat) ∧
      e.inp.hal.vbatOk = (Flt.ofBits (s.craft.bits row.vbat) : Flt K).isFinite := by
    rw [hinp]
    exact ⟨rfl, rfl⟩
  rw [hvbat, hread.1, hread.2]
  simp only [BatteryFlat, hrow, Option.some.injEq, exists_eq_left']
  cases hfinite : (Flt.ofBits (s.craft.bits row.vbat) : Flt K).isFinite with
  | true => rw [if_pos rfl]
  | false => simp [vbatCrit, hfinite]

/-- A tick observes a fault exactly if it is faulty by the rows of the log and the frames of the scenario. -/
theorem faultObserved_of_behind (hintact : Intact s) :
    e.pre.fs.FaultObserved (fsArgs e.pre e.inp e.out.sensed) ↔ Faulty s rows hist.length :=
  or_congr (timeoutNow_of_behind hrun h hlen hintact) (or_congr (rxFailsafe_of_behind hrun h hintact)
    (or_congr (imuInvalidNow_of_behind hrun h) (vbatCrit_of_behind hrun h)))

end Observed

/-- Some tick before tick `n` is faulty. With `arm_test` the first tick does not count: the request is made in it,
and a request clears the fault that the same tick has just observed. A fault that lasts counts from the second tick
on. -/
def FaultBefore (s : Setup σ F K) (rows : List (Row F)) (n : Nat) : Prop :=
  ∃ j < n, (s.fw.armTest = true → 0 < j) ∧ Faulty s rows j

/-- One more tick counts as a fault before the next if it is faulty, unless it is the first one under
`arm_test`. -/
theorem faultBefore_succ {n : Nat} : FaultBefore s rows (n + 1) ↔
    FaultBefore s rows n ∨ (s.fw.armTest = true → 0 < n) ∧ Faulty s rows n := by
  constructor
  · rintro ⟨j, hj, hrequest, hfault⟩
    rcases Nat.lt_succ_iff_lt_or_eq.mp hj with hj | rfl
    · exact .inl ⟨j, hj, hrequest, hfault⟩
    · exact .inr ⟨hrequest, hfault⟩
  · rintro (⟨j, hj, hfault⟩ | hfault)
    · exact ⟨j, by omega, hfault⟩
    · exact ⟨n, by omega, hfault⟩

omit [Field K] [LinearOrder K] [FloatEnv K] in
/-- The only arm request of a session is that of its first tick under `arm_test`, since the level stays high
afterwards. -/
theorem edge_of_behind {es : List (ControlLoop.Tick K)} {fs : FailsafeFsm} {u : UpdateArgs K}
    (hprev : fs.armTestPrev = (s.fw.armTest && decide (0 < es.length))) (hu : u.armTest = s.fw.armTest) :
    fs.edge u = false ↔ s.fw.armTest = true → 0 < es.length := by
  rw [edge, hprev, hu]
  cases s.fw.armTest <;> simp

/-- **The failsafe is active exactly after a fault**, not counting one of the first tick under `arm_test`. -/
theorem active_of_behind (hintact : Intact s) {es : List (ControlLoop.Tick K)} {c : FlightContext K}
    (hrun : Run tickStep (Runner.start s.fw).ctx es c) (h : Behind s rows es)
    (hlen : es.length ≤ s.run.nTicks) :
    c.fs.armTestPrev = (s.fw.armTest && decide (0 < es.length)) ∧
      (c.fs.active = true ↔ FaultBefore s rows es.length) := by
  induction es using List.reverseRecOn generalizing c with
  | nil =>
    rw [hrun.nil_inv]
    refine ⟨?_, iff_of_false ?_ ?_⟩
    · exact (boot_armTestPrev s.fw.resetReason).trans (by simp)
    · exact Bool.eq_false_iff.mp (boot_active s.fw.resetReason)
    · rintro ⟨j, hj, -⟩
      cases hj
  | append_singleton es e ih =>
    obtain ⟨hbefore, ⟨fuel, htick⟩, rfl⟩ := hrun.snoc_inv
    obtain ⟨hes, row, -, hinp, -⟩ := along_snoc.mp h
    rw [List.length_append, List.length_singleton] at hlen ⊢
    obtain ⟨hprev, hactive⟩ := ih hbefore hes (by omega)
    have hfault := faultObserved_of_behind hrun h hlen hintact
    have hu : (fsArgs e.pre e.inp e.out.sensed).armTest = s.fw.armTest := by rw [fsArgs, hinp]
    have hedge := edge_of_behind hprev hu
    rw [(tick_spec htick).fs, update_armTestPrev, update_active, hu, faultBefore_succ, ← hfault, ← hactive,
      ← hedge]
    refine ⟨by simp, ?_⟩
    cases hreq : e.pre.fs.edge (fsArgs e.pre e.inp e.out.sensed) with
    | false => simp
    | true =>
      -- only the first tick makes a request, and nothing was active before it
      have hfirst : ¬ (s.fw.armTest = true → 0 < es.length) := by
        rw [← hedge, hreq]
        simp
      have hnone : ¬ FaultBefore s rows es.length := by
        rintro ⟨j, hj, -⟩
        exact hfirst fun _ => by omega
      simp [hactive, hnone]

variable (s rows) in
/-- The failsafe in a log: a row shows it exactly when some tick up to it is faulty, the first one not counted under
`arm_test`; and a row that shows it is one of a disarmed craft with its motors off. -/
structure FailsafeLogged : Prop where
  shown : ∀ (k : Nat) row, rows[k]? = some row → (row.out.failsafe = .int 1 ↔ FaultBefore s rows (k + 1))
  flag : ∀ row ∈ rows, row.out.failsafe = .int 0 ∨ row.out.failsafe = .int 1
  off : ∀ row ∈ rows, row.out.failsafe = .int 1 →
    row.out.armed = .int 0 ∧ row.out.mot = List.replicate 4 (.float (s.bits 0))

/-- The tick behind a row, with the ticks before it. -/
structure TickOf (s : Setup σ F K) (rows : List (Row F)) (k : Nat) (row : Row F)
    (hist : List (ControlLoop.Tick K)) (e : ControlLoop.Tick K) : Prop where
  place : hist.length = k
  lt : k < s.run.nTicks
  run : Run tickStep (Runner.start s.fw).ctx (hist ++ [e]) e.post
  behind : Behind s rows (hist ++ [e])
  out : row.out = Wire.outDict ((shown e.post e.out.calls).map s.bits)

/-- Every row of a log has a tick behind it. -/
theorem exists_tickOf {y : ClosedLoop σ F K} (h : Stops s y) {k : Nat} {row : Row F}
    (hrow : y.rows[k]? = some row) : ∃ hist e, TickOf s y.rows k row hist e := by
  obtain ⟨es, hrun, hlen, hlogs⟩ := ticks_of_stops h
  obtain ⟨e, he⟩ : ∃ e, es[k]? = some e :=
    ⟨_, List.getElem?_eq_getElem (hlogs.length ▸ (List.getElem?_eq_some_iff.mp hrow).1)⟩
  have hbehind := hlogs.behind
  obtain ⟨hist, later, rfl, rfl⟩ := split_of_getElem? he
  obtain ⟨row', hrow', -, hout⟩ := hbehind hist e later rfl
  rw [hrow, Option.some.injEq] at hrow'
  obtain ⟨hbefore, hs, -⟩ := hrun.split
  rw [List.append_cons] at hbehind hlen
  exact ⟨hist, e, rfl, by simp at hlen; omega, .snoc hbefore hs, Along.of_append hbehind, hrow' ▸ hout⟩

section Row
variable {k : Nat} {row : Row F} {hist : List (ControlLoop.Tick K)} {e : ControlLoop.Tick K}
  (h : TickOf s rows k row hist e)
include h

/-- The arm state machine meets its invariant behind a row. -/
theorem TickOf.inv : Inv e.post.fs := ControlLoop.inv_of_ticks h.run (inv_boot s.fw.resetReason)

/-- The failsafe is active behind a row exactly after a fault. -/
theorem TickOf.active (hintact : Intact s) : e.post.fs.active = true ↔ FaultBefore s rows (k + 1) := by
  have hlen : (hist ++ [e]).length = k + 1 := by rw [List.length_append, h.place, List.length_singleton]
  have hactive := (active_of_behind hintact h.run h.behind (hlen.le.trans h.lt)).2
  rwa [hlen] at hactive

/-- What a row shows of the failsafe is whether the tick behind it left it active. -/
theorem TickOf.failsafe : row.out.failsafe = if e.post.fs.active then .int 1 else .int 0 := by
  rw [h.out]
  cases hactive : e.post.fs.active <;> simp [Wire.outDict, Wire.SilOut.map, shown, hactive]

/-- What a row shows of the arm state is whether the tick behind it left the craft armed. -/
theorem TickOf.armed : row.out.armed = if e.post.fs.armed then .int 1 else .int 0 := by
  rw [h.out]
  cases harmed : e.post.fs.armed <;> simp [Wire.outDict, Wire.SilOut.map, shown, harmed]

/-- A row whose tick left the craft disarmed has all motors off. -/
theorem TickOf.off (harmed : e.post.fs.armed = false) :
    row.out.mot = List.replicate 4 (.float (s.bits 0)) := by
  obtain ⟨-, ⟨fuel, htick⟩, -⟩ := h.run.snoc_inv
  rw [h.out, ControlLoop.calls_of_disarmed (tick_spec htick) harmed]
  rfl

end Row

/-- The log of a closed loop shows its faults as `FailsafeLogged` says, wherever the loop stops. -/
theorem failsafeLogged_of_stops (hintact : Intact s) {y : ClosedLoop σ F K} (h : Stops s y) :
    FailsafeLogged s y.rows where
  shown k row hrow := by
    obtain ⟨hist, e, he⟩ := exists_tickOf h hrow
    rw [he.failsafe, ← he.active hintact]
    cases e.post.fs.active <;> simp
  flag row hmem := by
    obtain ⟨k, hrow⟩ := List.mem_iff_getElem?.mp hmem
    obtain ⟨hist, e, he⟩ := exists_tickOf h hrow
    rw [he.failsafe]
    cases e.post.fs.active <;> simp
  off row hmem hshown := by
    obtain ⟨k, hrow⟩ := List.mem_iff_getElem?.mp hmem
    obtain ⟨hist, e, he⟩ := exists_tickOf h hrow
    have hdisarmed : e.post.fs.armed = false := by
      rw [Bool.eq_false_iff]
      intro harmed
      rw [he.failsafe, (he.inv.not_active harmed).1] at hshown
      cases hshown
    exact ⟨by simp [he.armed, hdisarmed], he.off hdisarmed⟩

end ClosedLoop

namespace Session

open ClosedLoop

variable {σ F K : Type} [Field K] [LinearOrder K] [FloatEnv K]

/-- **A session logs its faults.** In the log that a session leaves behind, a row shows the failsafe exactly
when some tick up to it was faulty, and from the first such row on no row moves a motor. -/
theorem failsafe_logged {s : Setup σ F K} (hintact : Intact s) {x : State σ F K}
    (hreach : Reach (step s) init x) {e : PlantRunner.Ended} {st : PlantRunner.RunState σ F}
    (hended : x.left = .ended e (some st)) : FailsafeLogged s st.rows := by
  obtain ⟨y, hstops, hrows⟩ := rows_of_ended hreach hended
  rw [hrows]
  exact failsafeLogged_of_stops hintact hstops

/-- A craft that rests on a bench with a good battery. -/
def bench : PlantRunner.Craft Unit UInt32 where
  sense _ := ((fun _ => 0, ![0, 0, 0xC11CF5C3]), ())  -- 1 g upwards
  battery _ _ := (0x40733333, ())  -- 3.8 V
  step _ _ _ := some ()
  finite _ := true
  bits := id

/-- Two ticks on the bench at half throttle, the second with the failsafe flag of the receiver. -/
def flagged : Setup Unit UInt32 ℚ where
  craft := bench
  start := ()
  run := ⟨2, 0, fun k => some (baseChannels 0 0 0 0 true, if k = 1 then 8 else 0)⟩
  fw := ⟨.kOpenLoop, true, false, .fin (1 / 2), 0, 0, 0, 1⟩
  fuel := 1
  bits v := if v = 0 then 0 else 0x3F000000  -- 0.5
  nTicks_pos := by decide
  nTicks_lt := by decide

/-- Every frame of the session on the bench is accepted by the parser. -/
theorem intact_flagged : Intact flagged := by
  rintro k f hf
  obtain rfl := Option.some.inj hf
  dsimp only
  split_ifs <;> decide +kernel

/-- A session on the bench: the flag stops the motors. -/
theorem session_flagged :
    ∃ x e st, Reach (step flagged) init x ∧ x.left = .ended e (some st) ∧
      st.rows.map (fun row => (row.out.armed, row.out.failsafe, row.out.mot)) =
        [(.int 1, .int 0, List.replicate 4 (.float 0x3F000000)),
          (.int 0, .int 1, List.replicate 4 (.float 0))] := by
  have hrun : ((ClosedLoop.run flagged).elim (fun _ => false) fun y =>
      decide (y.rows.map (fun row => (row.out.armed, row.out.failsafe, row.out.mot)) =
        [(.int 1, .int 0, List.replicate 4 (.float 0x3F000000)),
          (.int 0, .int 1, List.replicate 4 (.float 0))])) = true := by
    decide +kernel
  cases hy : ClosedLoop.run flagged with
  | inl stop =>
    rw [hy] at hrun
    cases hrun
  | inr y =>
    rw [hy] at hrun
    obtain ⟨x, e, st, hreach, hended, hrows⟩ := exists_ended hy
    exact ⟨x, e, st, hreach, hended, hrows ▸ of_decide_eq_true hrun⟩

/-- The log of the session on the bench, whose second frame carries the flag of the receiver: its second row
shows the failsafe and its first does not. -/
theorem failsafe_logged_flagged :
    ∃ x e st, Reach (step flagged) init x ∧ x.left = .ended e (some st) ∧
      st.rows.map (fun row => row.out.failsafe) = [.int 0, .int 1] ∧ FailsafeLogged flagged st.rows := by
  obtain ⟨x, e, st, hreach, hended, hrows⟩ := session_flagged
  refine ⟨x, e, st, hreach, hended, ?_, failsafe_logged intact_flagged hreach hended⟩
  simpa [Function.comp_def] using congrArg (List.map fun r => r.2.1) hrows

end Session

end DroneMini
