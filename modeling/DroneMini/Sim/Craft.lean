import DroneMini.Plant.Simulator
import DroneMini.Sim.FaultLog

/-!
# The craft of a session

What a session does to the simulated craft. A log tells which duties the craft was stepped on, so what holds of
the craft and the log at the start, and is kept by every step, holds at the end (`craft_of_stops`). Hence a craft
that is never armed is left exactly where it stood, and its IMU shows a craft at rest; and one whose duties do
not carry its weight has not left the ground (`stays_down`).
-/

namespace DroneMini

namespace ClosedLoop

open PlantRunner
open Session (Before)

variable {σ F K : Type} [Field K] [LinearOrder K] [FloatEnv K] {s : Setup σ F K}

/-! ## The craft behind a log -/

/-- What a tick does to the craft: it measures it and steps it on the duties that it logs, or measures it and
stops. -/
def CraftStep (s : Setup σ F K) (y : ClosedLoop σ F K) (out : SilProto.OutDict) (c : σ) : Prop :=
  s.craft.step (measure s y).craft out.mot (measure s y).vbat = some c ∨ c = (measure s y).craft

/-- A tick that is logged steps the craft on the duties of its row. -/
theorem craftStep_of_tick {k : Nat} {y y' : ClosedLoop σ F K}
    (h : tick s y k = .inr y' ∨ tick s y k = .inl (.diverges y')) : ∃ out,
      y'.rows = y.rows ++ [rowOf k (s.run.commands k) (measure s y) out] ∧ CraftStep s y out y'.craft := by
  unfold tick at h
  cases htick : ControlLoop.tick s.fuel y.ctx ⟨reads s k (measure s y), s.fw.armTest⟩ with
  | none =>
    rw [htick] at h
    rcases h with h | h <;> cases h
  | some p =>
    obtain ⟨ctx, t⟩ := p
    rw [htick] at h
    dsimp only at h
    generalize Wire.outDict ((shown ctx t.calls).map s.bits) = out at h
    refine ⟨out, (move_logged h).2, ?_⟩
    unfold move at h
    dsimp only at h
    unfold CraftStep
    cases hstep : s.craft.step (measure s y).craft out.mot (measure s y).vbat with
    | none =>
      rw [hstep] at h
      rcases h with h | h <;> cases h
      exact .inr rfl
    | some c =>
      rw [hstep] at h
      dsimp only at h
      split_ifs at h <;> rcases h with h | h <;> cases h
      · exact .inl rfl
      · exact .inl rfl

/-- What holds of the craft and the log, now and before each row. -/
structure Kept (s : Setup σ F K) (P : List (Row F) → σ → Prop) (y : ClosedLoop σ F K) : Prop where
  now : P y.rows y.craft
  before : ∀ (k : Nat) row, y.rows[k]? = some row → ∃ y' out, P y'.rows y'.craft ∧ y'.rows = y.rows.take k ∧
    row = rowOf k (s.run.commands k) (measure s y') out

section Rule
variable {P : List (Row F) → σ → Prop}
  (hstep : ∀ k y out c, P y.rows y.craft → CraftStep s y out c →
    P (y.rows ++ [rowOf k (s.run.commands k) (measure s y) out]) c)
include hstep

/-- A tick, whether it goes on or diverges, keeps what holds of the craft and the log now and before each
row. -/
theorem Kept.tick {y y' : ClosedLoop σ F K} (h : Kept s P y)
    (htick : tick s y y.rows.length = .inr y' ∨ tick s y y.rows.length = .inl (.diverges y')) : Kept s P y' := by
  obtain ⟨out, hrows, hcraft⟩ := craftStep_of_tick htick
  refine ⟨hrows ▸ hstep _ y out y'.craft h.now hcraft, fun k row hrow => ?_⟩
  rw [hrows] at hrow
  rcases Nat.lt_or_ge k y.rows.length with hk | hk
  · rw [List.getElem?_append_left hk] at hrow
    obtain ⟨y₀, out₀, hP, htake, heq⟩ := h.before k row hrow
    refine ⟨y₀, out₀, hP, ?_, heq⟩
    rw [htake, hrows, List.take_append_of_le_length hk.le]
  · rw [List.getElem?_append_right hk, List.getElem?_singleton] at hrow
    split_ifs at hrow with hlast
    obtain rfl : k = y.rows.length := by omega
    exact ⟨y, out, h.now, by rw [hrows, List.take_left], (Option.some.inj hrow).symm⟩

/-- **Invariant rule**: what holds of the craft at the start, and is kept by every step with its row, holds at
the end and before each row. -/
theorem kept_of_stops (hstart : P [] s.start) {y : ClosedLoop σ F K} (h : Stops s y) : Kept s P y := by
  have hbefore {n : Nat} {y : ClosedLoop σ F K} (h : Before s n y) : y.rows.length = n ∧ Kept s P y := by
    refine runUntil_range_invariant (P := fun n y => y.rows.length = n ∧ Kept s P y)
      ⟨rfl, hstart, fun k row hrow => ?_⟩ ?_ h
    · cases hrow
    · rintro n y y' ⟨rfl, hkept⟩ htick
      obtain ⟨out, hrows, -⟩ := craftStep_of_tick (.inl htick)
      exact ⟨by simp [hrows], hkept.tick hstep (.inl htick)⟩
  rcases h with h | h
  · exact (hbefore h).2
  · obtain ⟨n, y₀, -, hy₀, htick⟩ := runUntil_range_stop_iff.mp h
    obtain ⟨rfl, hkept⟩ := hbefore hy₀
    exact hkept.tick hstep (.inr htick)

end Rule

/-- A row that is not armed has its motors off. -/
theorem mot_of_unarmed {y : ClosedLoop σ F K} (h : Stops s y) {row : Row F} (hmem : row ∈ y.rows)
    (hshown : row.out.armed = .int 0) : row.out.mot = List.replicate 4 (.float (s.bits 0)) := by
  obtain ⟨k, hrow⟩ := List.mem_iff_getElem?.mp hmem
  obtain ⟨hist, e, he⟩ := exists_tickOf h hrow
  refine he.off (Bool.eq_false_iff.mpr fun harmed => ?_)
  rw [he.armed, harmed] at hshown
  cases hshown

/-! ## The simulated craft -/

section Simulated
variable {R : Type} [Field R] [LinearOrder R] [FloatEnv R] [FloorRing R] {s : Setup (Simulator R) R K}
  {bits : R → UInt32} (hcraft : s.craft = Simulator.craft bits) {y : ClosedLoop (Simulator R) R K}
include hcraft

omit [Field K] [LinearOrder K] [FloatEnv K] in
/-- What a tick measures: the IMU samples what the plant reports, and the plant stays as it is. -/
theorem measure_simulator : (measure s y).craft.plant = y.craft.plant ∧
    (measure s y).craft.icm = { y.craft.icm with drawn := y.craft.icm.drawn + 1 } ∧
    ((measure s y).gyro, (measure s y).accel)
      = (y.craft.icm.sample (Rk4Plant.sense y.craft.plant).1 (Rk4Plant.sense y.craft.plant).2).1 := by
  unfold measure
  rw [hcraft]
  unfold Simulator.craft
  dsimp only
  split <;> exact ⟨rfl, rfl, rfl⟩

omit [Field K] [LinearOrder K] [FloatEnv K] in
/-- What a tick does to the plant: nothing, or a step on the duties of its row. -/
theorem craftStep_simulator {out : SilProto.OutDict} {c : Simulator R} (h : CraftStep s y out c) :
    c.icm = { y.craft.icm with drawn := y.craft.icm.drawn + 1 } ∧ (c.plant = y.craft.plant ∨
      ∃ d, Simulator.duties out.mot = some d ∧
        Rk4Plant.step y.craft.plant Params.dt d (.fin (measure s y).vbat) = some c.plant) := by
  obtain ⟨hplant, hicm, -⟩ := measure_simulator hcraft (y := y)
  rcases h with h | rfl
  · rw [hcraft] at h
    simp only [Simulator.craft, Option.bind_eq_bind, Option.bind_eq_some_iff] at h
    obtain ⟨d, hd, plant, hstep, h⟩ := h
    cases h
    exact ⟨hicm, .inr ⟨d, hd, hplant ▸ hstep⟩⟩
  · exact ⟨hicm, .inl hplant⟩

end Simulated

variable {R : Type} [Field R] [LinearOrder R] [FloatEnv R] [FloorRing R]

open Rk4Plant (reset Carries Grounded SpinsTo)

/-- The IMU of the craft at a tick, which has drawn its noise once for each tick before. -/
def icmAt (s : Setup (Simulator R) R K) (k : Nat) : Icm20948 R :=
  { s.start.icm with drawn := s.start.icm.drawn + k }

/-- A plant rests as long as all rows so far have the motors off, and its IMU has drawn once for each row. -/
def Rests (s : Setup (Simulator R) R K) (rows : List (Row R)) (c : Simulator R) : Prop :=
  c.icm = icmAt s rows.length ∧
    ((∀ row ∈ rows, row.out.mot = List.replicate 4 (.float (s.bits 0))) → c.plant = reset 0)

/-- What a craft at rest on the ground measures: no rotation and its weight, through the IMU model. -/
def restSample (icm : Icm20948 R) : (Fin 3 → R) × (Fin 3 → R) :=
  (icm.sample (fun _ => 0) ![0, 0, -Params.gravity]).1

/-- The duties of a row do not carry the weight. -/
def LowRow (m : R) (row : Row R) : Prop :=
  ∀ d, Simulator.duties row.out.mot = some d → ∀ i, Params.pwmToOmega d (.fin row.vbat) i ≤ m

section Simulated
variable [IsStrictOrderedRing R] {s : Setup (Simulator R) R K} {bits : R → UInt32}
  (hcraft : s.craft = Simulator.craft bits)
include hcraft

omit [LinearOrder K] [FloatEnv K] in
/-- **A plant rests while its motors are off**: a tick that leaves them off leaves it in its initial state. -/
theorem rests_step (hsqrt : FloatEnv.sqrt (.fin (1 : R)) = .fin 1)
    (hzero : (Flt.ofBits (s.bits 0) : Flt R) = .fin 0) (k : Nat) (y : ClosedLoop (Simulator R) R K)
    (out : SilProto.OutDict) (c : Simulator R) (h : Rests s y.rows y.craft) (hstep : CraftStep s y out c) :
    Rests s (y.rows ++ [rowOf k (s.run.commands k) (measure s y) out]) c := by
  obtain ⟨hicm, hplant⟩ := craftStep_simulator hcraft hstep
  refine ⟨?_, fun hoff => ?_⟩
  · rw [hicm, h.1, List.length_append, List.length_singleton]
    rfl
  have hrest := h.2 fun row hrow => hoff row (List.mem_append_left _ hrow)
  have hmot : out.mot = List.replicate 4 (.float (s.bits 0)) := hoff _ (List.mem_append_right _ List.mem_cons_self)
  rcases hplant with hplant | ⟨d, hd, hplant⟩
  · rw [hplant, hrest]
  · have hduties : d = fun _ => 0 := by
      have hduty : (Simulator.duty (.float (s.bits 0)) : Option R) = some 0 := by
        rw [Simulator.duty, hzero]
      rw [hmot] at hd
      simp only [Simulator.duties, List.replicate, List.getD_cons_zero, List.getD_cons_succ, hduty] at hd
      cases hd
      funext i
      fin_cases i <;> rfl
    have hdt : (0 : R) < Params.dt := by norm_num [Params.dt]
    rw [hduties, hrest, Rk4Plant.step_reset hsqrt hdt, Option.some.injEq] at hplant
    exact hplant.symm

omit [Field K] [LinearOrder K] [FloatEnv K] in
/-- **A plant stays on the ground** while its duties do not carry its weight. -/
theorem low_step {m : R} (hm : Carries m) (k : Nat) (y : ClosedLoop (Simulator R) R K) (out : SilProto.OutDict)
    (c : Simulator R) (h : (∀ row ∈ y.rows, LowRow m row) → Grounded y.craft.plant ∧ SpinsTo m y.craft.plant)
    (hstep : CraftStep s y out c)
    (hlow : ∀ row ∈ y.rows ++ [rowOf k (s.run.commands k) (measure s y) out], LowRow m row) :
    Grounded c.plant ∧ SpinsTo m c.plant := by
  obtain ⟨-, hplant⟩ := craftStep_simulator hcraft hstep
  obtain ⟨hground, hspins⟩ := h fun row hrow => hlow row (List.mem_append_left _ hrow)
  rcases hplant with hplant | ⟨d, hd, hplant⟩
  · rw [hplant]
    exact ⟨hground, hspins⟩
  · have hdt : (0 : R) < Params.dt ∧ Params.dt ≤ (Params.tauMS : R) := by
      norm_num [Params.dt, Params.tauMS]
    have hcommand := hlow _ (List.mem_append_right _ List.mem_cons_self) d hd
    exact Rk4Plant.grounded_step hm hdt hcommand hground hspins hplant

omit [Field K] [LinearOrder K] [FloatEnv K] in
/-- A craft at rest measures what it measures at rest. -/
theorem measure_at_rest {y : ClosedLoop (Simulator R) R K} (h : y.craft.plant = reset 0) :
    ((measure s y).gyro, (measure s y).accel) = restSample y.craft.icm := by
  have hgrounded : Grounded (reset (0 : R)) := ⟨rfl, le_rfl⟩
  have hsense : Rk4Plant.sense (reset (0 : R)) = (fun _ => 0, ![0, 0, -Params.gravity]) := by
    rw [Rk4Plant.sense_grounded hgrounded]
    refine congrArg₂ Prod.mk ?_ ?_ <;> funext i
    · fin_cases i <;> simp [toFrd, reset]
    · have hunit : ¬(1 : R) < 1e-12 := by norm_num
      fin_cases i <;> simp [toFrd, reset, quatToR, hunit]
  rw [(measure_simulator hcraft).2.2, h, hsense, restSample]

end Simulated

/-- What a log tells about a craft that starts on the ground: until it is armed, its IMU shows a craft at rest;
if it was never armed, it is where it was; if its duties never carried its weight, it is still on the ground. -/
structure StaysDown (s : Setup (Simulator R) R K) (rows : List (Row R)) (c : Simulator R) : Prop where
  shown : ∀ (k : Nat) row, rows[k]? = some row → (∀ before ∈ rows.take k, before.out.armed = .int 0) →
    (row.gyro, row.acc) = restSample (icmAt s k)
  stays : (∀ row ∈ rows, row.out.armed = .int 0) → c.plant = reset 0
  grounded : ∀ m, 0 ≤ m → Carries m → (∀ row ∈ rows, LowRow m row) → Grounded c.plant ∧ SpinsTo m c.plant

variable [IsStrictOrderedRing R] {s : Setup (Simulator R) R K} {bits : R → UInt32}

/-- The craft of a closed loop that starts on the ground stays down, wherever the loop stops. -/
theorem staysDown_of_stops (hcraft : s.craft = Simulator.craft bits) (hstart : s.start.plant = reset 0)
    (hsqrt : FloatEnv.sqrt (.fin (1 : R)) = .fin 1) (hzero : (Flt.ofBits (s.bits 0) : Flt R) = .fin 0)
    {y : ClosedLoop (Simulator R) R K} (h : Stops s y) : StaysDown s y.rows y.craft := by
  have hrests : Kept s (Rests s) y := kept_of_stops (rests_step hcraft hsqrt hzero) ⟨rfl, fun _ => hstart⟩ h
  refine ⟨fun k row hrow hoff => ?_, fun hoff => ?_, fun m hm hcarries hlow => ?_⟩
  · obtain ⟨y', out, ⟨hicm, hplant⟩, htake, rfl⟩ := hrests.before k row hrow
    have hlen : y'.rows.length = k := by
      rw [htake, List.length_take, Nat.min_eq_left (List.getElem?_eq_some_iff.mp hrow).1.le]
    have hmot (row : Row R) (hmem : row ∈ y'.rows) : row.out.mot = List.replicate 4 (.float (s.bits 0)) := by
      rw [htake] at hmem
      exact mot_of_unarmed h (List.mem_of_mem_take hmem) (hoff row hmem)
    rw [← hlen, ← hicm]
    exact measure_at_rest hcraft (hplant hmot)
  · exact hrests.now.2 fun row hmem => mot_of_unarmed h hmem (hoff row hmem)
  · have hkept : Kept s (fun rows c => (∀ row ∈ rows, LowRow m row) → Grounded c.plant ∧ SpinsTo m c.plant) y := by
      refine kept_of_stops (low_step hcraft hcarries) (fun _ => ?_) h
      rw [hstart]
      exact ⟨⟨rfl, le_rfl⟩, fun _ => ⟨le_rfl, hm⟩⟩
    exact hkept.now hlow

end ClosedLoop

namespace Session

open ClosedLoop

section Craft
variable {σ F K : Type} [Field K] [LinearOrder K] [FloatEnv K] {s : Setup σ F K}

/-- The log and the craft of a plant that has returned are those of the closed loop. -/
theorem craft_of_ended {x : State σ F K} (h : Reach (step s) init x) {e : PlantRunner.Ended}
    {st : PlantRunner.RunState σ F} (hended : x.left = .ended e (some st)) :
    ∃ y, Stops s y ∧ st.rows = y.rows ∧ st.craft = y.craft := by
  have houtcome := outcome_of_ended h hended
  unfold Outcome at houtcome
  unfold Stops
  split at houtcome
  · exact ⟨_, .inl ‹_›, houtcome.2.2⟩
  · exact ⟨_, .inr ‹_›, houtcome.2.2⟩
  · exact houtcome.elim

end Craft

variable {R K : Type} [Field K] [LinearOrder K] [FloatEnv K] [Field R] [LinearOrder R] [FloatEnv R] [FloorRing R]
  [IsStrictOrderedRing R]

/-- **A craft stays down.** In every session with the simulator that starts on the ground: as long as the log
shows a disarmed craft, its IMU shows a craft at rest, and a craft that was never armed is left where it stood;
and a craft whose logged duties do not carry its weight is left on the ground. -/
theorem stays_down {s : Setup (Simulator R) R K} {bits : R → UInt32} (hcraft : s.craft = Simulator.craft bits)
    (hstart : s.start.plant = Rk4Plant.reset 0) (hsqrt : FloatEnv.sqrt (.fin (1 : R)) = .fin 1)
    (hzero : (Flt.ofBits (s.bits 0) : Flt R) = .fin 0) {x : State (Simulator R) R K}
    (hreach : Reach (step s) init x) {e : PlantRunner.Ended} {st : PlantRunner.RunState (Simulator R) R}
    (hended : x.left = .ended e (some st)) : StaysDown s st.rows st.craft := by
  obtain ⟨y, hstops, hrows, hst⟩ := craft_of_ended hreach hended
  rw [hrows, hst]
  exact staysDown_of_stops hcraft hstart hsqrt hzero hstops

/-- Three ticks on the simulator, armed at half throttle, which does not lift it. -/
def lowThrottle : Setup (Simulator ℚ) ℚ ℚ where
  craft := Simulator.craft fun v =>
    if v = 0 then 0 else if v < 0 then 0xC11CE80A else 0x40860419  -- 1 g upwards, 4.188 V
  start := ⟨Rk4Plant.reset 0, ⟨true, 157 / 9000, fun _ => 0, fun _ _ => 0, fun _ _ => 0, 0⟩, .new Params.battery 1⟩
  run := ⟨3, 0, fun _ => some (baseChannels 0 0 0 0 true, 0)⟩
  fw := ⟨.kOpenLoop, true, false, .fin (1 / 2), 0, 0, 0, 1⟩
  fuel := 1
  bits v := if v = 0 then 0 else 0x3F000000  -- 0.5
  nTicks_pos := by decide
  nTicks_lt := by decide

/-- The same ticks without `arm_test`, at full throttle with the arm switch on. -/
def parked : Setup (Simulator ℚ) ℚ ℚ :=
  { lowThrottle with
    run := ⟨3, 0, fun _ => some (baseChannels 0 0 1 0 true, 0)⟩
    fw := ⟨.kOpenLoop, false, true, .fin (1 / 2), 0, 0, 0, 1⟩ }

/-- What some rows show of the arm state and the motors. -/
def motorsOf (rows : List (PlantRunner.Row ℚ)) : List (Struct.Value × List Struct.Value) :=
  rows.map fun row => (row.out.armed, row.out.mot)

/-- The motors are on in every row of the first of these sessions, and in no row of the second. -/
theorem motors_lowThrottle :
    ((ClosedLoop.run lowThrottle).elim (fun _ => false) fun y =>
      decide (motorsOf y.rows = List.replicate 3 (.int 1, List.replicate 4 (.float 0x3F000000)))) = true ∧
    ((ClosedLoop.run parked).elim (fun _ => false) fun y =>
      decide (motorsOf y.rows = List.replicate 3 (.int 0, List.replicate 4 (.float 0)))) = true := by
  decide +kernel

/-- A session of a setup whose closed loop ends with some motors in its rows. -/
theorem session_of_motors {s : Setup (Simulator ℚ) ℚ ℚ} {ms : List (Struct.Value × List Struct.Value)}
    (h : ((ClosedLoop.run s).elim (fun _ => false) fun y => decide (motorsOf y.rows = ms)) = true) :
    ∃ x e st, Reach (step s) init x ∧ x.left = .ended e (some st) ∧ motorsOf st.rows = ms := by
  cases hy : ClosedLoop.run s with
  | inl stop =>
    rw [hy] at h
    cases h
  | inr y =>
    rw [hy] at h
    obtain ⟨x, e, st, hreach, hended, hrows⟩ := exists_ended hy
    exact ⟨x, e, st, hreach, hended, hrows ▸ of_decide_eq_true h⟩

/-- The craft whose motors are on at half throttle is left on the ground; the plant of the craft that is never armed
is left in its initial state, and each of its rows shows an IMU at rest. -/
theorem stays_down_lowThrottle :
    (∃ x e st, Reach (step lowThrottle) init x ∧ x.left = .ended e (some st) ∧
      motorsOf st.rows = List.replicate 3 (.int 1, List.replicate 4 (.float 0x3F000000)) ∧
      StaysDown lowThrottle st.rows st.craft) ∧
    ∃ x e st, Reach (step parked) init x ∧ x.left = .ended e (some st) ∧ st.rows.length = 3 ∧
      st.craft.plant = Rk4Plant.reset 0 ∧
      ∀ (k : Nat) row, st.rows[k]? = some row → (row.gyro, row.acc) = restSample (icmAt parked k) := by
  obtain ⟨hlow, hparked⟩ := motors_lowThrottle
  obtain ⟨x, e, st, hreach, hended, hrows⟩ := session_of_motors hlow
  obtain ⟨x', e', st', hreach', hended', hmotors⟩ := session_of_motors hparked
  have hdown := stays_down rfl rfl (by decide) (by decide) hreach' hended'
  unfold motorsOf at hmotors
  have hlen : st'.rows.length = 3 := by
    have hlen := congrArg List.length hmotors
    rwa [List.length_map, List.length_replicate] at hlen
  have hoff : ∀ row ∈ st'.rows, row.out.armed = .int 0 := by
    intro row hrow
    have hmem := List.mem_map_of_mem (f := fun row : PlantRunner.Row ℚ => (row.out.armed, row.out.mot)) hrow
    rw [hmotors] at hmem
    exact (Prod.mk.inj (List.eq_of_mem_replicate hmem)).1
  refine ⟨⟨x, e, st, hreach, hended, hrows, ?_⟩, x', e', st', hreach', hended', hlen,
    hdown.stays hoff, fun k row hrow => hdown.shown k row hrow fun before hmem => hoff before ?_⟩
  · exact stays_down rfl rfl (by decide) (by decide) hreach hended
  · exact List.mem_of_mem_take hmem

end Session

end DroneMini
