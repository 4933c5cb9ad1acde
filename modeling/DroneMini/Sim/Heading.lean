import DroneMini.Plant.Heading
import DroneMini.Sim.Craft

/-!
# Sessions and the heading of the craft

Two crafts that show the same at every step cannot be told apart by a session: it leaves the same return value
and the same log of both (`run_lookalike`). A simulator and one that is turned and carried along the ground are
such a pair, so no session shows where its craft stood or where it pointed (`heading_hidden`).
-/

namespace DroneMini

namespace PlantRunner

/-- Two crafts that show the same, as long as their states are related. -/
structure Lookalike {σ τ F : Type} (w : Craft σ F) (w' : Craft τ F) (Q : σ → τ → Prop) : Prop where
  sense : ∀ {c c'}, Q c c' → (w'.sense c').1 = (w.sense c).1 ∧ Q (w.sense c).2 (w'.sense c').2
  battery : ∀ {c c'} mot, Q c c' →
    (w'.battery c' mot).1 = (w.battery c mot).1 ∧ Q (w.battery c mot).2 (w'.battery c' mot).2
  step : ∀ {c c'} mot vbat, Q c c' → Option.Rel Q (w.step c mot vbat) (w'.step c' mot vbat)
  finite : ∀ {c c'}, Q c c' → w'.finite c' = w.finite c
  bits : w'.bits = w.bits

end PlantRunner

/-- The same session with another craft, from another start. -/
def Setup.withCraft {σ τ F K : Type} (s : Setup σ F K) (w : PlantRunner.Craft τ F) (start : τ) : Setup τ F K :=
  { s with craft := w, start := start }

namespace ClosedLoop

open PlantRunner

variable {σ τ F K : Type} [Field K] [LinearOrder K] [FloatEnv K]

/-- Two closed loops that show the same: the duties, the rows and the flight contexts are equal, and the
crafts related. -/
structure Looks (Q : σ → τ → Prop) (y : ClosedLoop σ F K) (y' : ClosedLoop τ F K) : Prop where
  craft : Q y.craft y'.craft
  duty : y'.duty = y.duty
  rows : y'.rows = y.rows
  ctx : y'.ctx = y.ctx

/-- Two closed loops stop for the same reason: both hang, or both diverge in states that show the same. -/
inductive LooksStops (Q : σ → τ → Prop) : Stop σ F K → Stop τ F K → Prop
  | hangs : LooksStops Q .hangs .hangs
  | diverges {y : ClosedLoop σ F K} {y' : ClosedLoop τ F K} (h : Looks Q y y') :
    LooksStops Q (.diverges y) (.diverges y')

section Lookalike
variable {s : Setup σ F K} {w : Craft τ F} {start : τ} {Q : σ → τ → Prop} (hw : Lookalike s.craft w Q)
include hw

omit [Field K] [LinearOrder K] [FloatEnv K] in
/-- Two closed loops that show the same measure the same, and their crafts stay related. -/
theorem measure_lookalike {y : ClosedLoop σ F K} {y' : ClosedLoop τ F K} (h : Looks Q y y') : ∃ c',
    Q (measure s y).craft c' ∧ measure (s.withCraft w start) y'
      = ⟨(measure s y).gyro, (measure s y).accel, (measure s y).vbat, c'⟩ := by
  obtain ⟨hsense, hQ⟩ := hw.sense h.craft
  obtain ⟨hbattery, hQ⟩ := hw.battery y.duty hQ
  refine ⟨(w.battery (w.sense y'.craft).2 y.duty).2, hQ, ?_⟩
  have hmeasure : measure (s.withCraft w start) y'
      = ⟨(w.sense y'.craft).1.1, (w.sense y'.craft).1.2, (w.battery (w.sense y'.craft).2 y'.duty).1,
        (w.battery (w.sense y'.craft).2 y'.duty).2⟩ := rfl
  rw [hmeasure, h.duty, hsense, hbattery]
  rfl

/-- **A tick keeps two closed loops looking alike**: they go on so or stop for the same reason. -/
theorem Looks.tick {y : ClosedLoop σ F K} {y' : ClosedLoop τ F K} (h : Looks Q y y') (k : Nat) :
    Sum.LiftRel (LooksStops Q) (Looks Q) (ClosedLoop.tick s y k) (ClosedLoop.tick (s.withCraft w start) y' k) := by
  obtain ⟨c', hQ, hmeasure⟩ := measure_lookalike hw h
  have hother : (s.withCraft w start).craft = w := rfl
  have hreads : reads (s.withCraft w start) k (measure (s.withCraft w start) y') = reads s k (measure s y) := by
    unfold reads
    rw [hmeasure, hother, hw.bits]
    rfl
  have hrow (out : SilProto.OutDict) :
      rowOf k ((s.withCraft w start).run.commands k) (measure (s.withCraft w start) y') out
        = rowOf k (s.run.commands k) (measure s y) out := by
    rw [hmeasure]
    rfl
  have hfw : (s.withCraft w start).fw = s.fw := rfl
  have hfuel : (s.withCraft w start).fuel = s.fuel := rfl
  have hbits : (s.withCraft w start).bits = s.bits := rfl
  unfold ClosedLoop.tick
  rw [hreads, hfw, hfuel, hbits, h.ctx]
  cases ControlLoop.tick s.fuel y.ctx ⟨reads s k (measure s y), s.fw.armTest⟩ with
  | none => exact .inl .hangs
  | some p =>
    obtain ⟨ctx, t⟩ := p
    dsimp only
    generalize Wire.outDict ((shown ctx t.calls).map s.bits) = out
    have hstep := hw.step out.mot (measure s y).vbat hQ
    have hmoved {c : σ} {c' : τ} (hQ : Q c c') : Looks Q
        ⟨c, out.mot, y.rows ++ [rowOf k (s.run.commands k) (measure s y) out], ctx⟩
        ⟨c', out.mot, y'.rows ++ [rowOf k ((s.withCraft w start).run.commands k)
          (measure (s.withCraft w start) y') out], ctx⟩ :=
      ⟨hQ, rfl, by rw [hrow, h.rows], rfl⟩
    have hcraft : (measure (s.withCraft w start) y').craft = c' := by rw [hmeasure]
    have hvbat : (measure (s.withCraft w start) y').vbat = (measure s y).vbat := by rw [hmeasure]
    unfold move
    dsimp only
    rw [hother, hcraft, hvbat]
    generalize s.craft.step (measure s y).craft out.mot (measure s y).vbat = r at hstep ⊢
    generalize w.step c' out.mot (measure s y).vbat = r' at hstep ⊢
    cases hstep with
    | none => exact .inl (.diverges (hmoved hQ))
    | @some c c'' hnext =>
      dsimp only
      rw [hw.finite hnext]
      split_ifs
      · exact .inr (hmoved hnext)
      · exact .inl (.diverges (hmoved hnext))

/-- Two closed loops whose crafts start related show the same over all ticks of a run. -/
theorem run_lookalike (hstart : Q s.start start) :
    Sum.LiftRel (LooksStops Q) (Looks Q) (run s) (run (s.withCraft w start)) :=
  runUntil_rel (fun _ _ k _ h => Looks.tick hw h k) ⟨hstart, rfl, rfl, rfl⟩

end Lookalike

end ClosedLoop

/-! ## The simulator -/

section Simulator
variable {R : Type} [Field R] [LinearOrder R] [IsStrictOrderedRing R]

/-- A simulator whose plant is turned about the vertical and carried along the ground. -/
def Heading.simulator (h : Heading R) (c : Simulator R) : Simulator R := { c with plant := h.state c.plant }

/-- **A simulator shows neither its place nor its heading** to the IMU and the battery, however it is
driven. -/
theorem lookalike_heading [FloatEnv R] [FloorRing R] (h : Heading R) (bits : R → UInt32) :
    PlantRunner.Lookalike (Simulator.craft bits) (Simulator.craft bits) fun c c' => c' = h.simulator c where
  sense := by
    rintro c _ rfl
    have hsense : Rk4Plant.sense (h.simulator c).plant = Rk4Plant.sense c.plant := h.sense_state c.plant
    unfold Simulator.craft
    dsimp only
    rw [hsense]
    exact ⟨rfl, rfl⟩
  battery := by
    rintro c _ mot rfl
    have hbatt : (h.simulator c).batt = c.batt := rfl
    unfold Simulator.craft
    dsimp only
    rw [hbatt]
    cases (c.batt.step Params.dt (Simulator.dutySum mot) : Option (Battery R × R)) <;> exact ⟨rfl, rfl⟩
  step := by
    rintro c _ mot vbat rfl
    unfold Simulator.craft
    dsimp only
    cases (Simulator.duties mot : Option (Fin 4 → R)) with
    | none => exact .none
    | some d =>
      have hstep : Rk4Plant.step (h.simulator c).plant Params.dt d (.fin vbat)
          = (Rk4Plant.step c.plant Params.dt d (.fin vbat)).map h.state := h.step_state c.plant _ d _
      rw [Option.bind_eq_bind, Option.bind_some, Option.bind_some, hstep]
      cases Rk4Plant.step c.plant Params.dt d (.fin vbat) with
      | none => exact .none
      | some plant => exact .some rfl
  finite _ := rfl
  bits := rfl

end Simulator

namespace Session

open ClosedLoop

section Lookalike
variable {σ τ F K : Type} [Field K] [LinearOrder K] [FloatEnv K] {s : Setup σ F K}
  {w : PlantRunner.Craft τ F} {start : τ} {Q : σ → τ → Prop}

/-- What two sessions with crafts that look alike leave behind. -/
theorem lookalike_of_ended (hw : PlantRunner.Lookalike s.craft w Q) (hstart : Q s.start start)
    {x : State σ F K} {x' : State τ F K} (hreach : Reach (step s) init x)
    (hreach' : Reach (step (s.withCraft w start)) init x') {e e' : PlantRunner.Ended}
    {st : PlantRunner.RunState σ F} {st' : PlantRunner.RunState τ F} (hended : x.left = .ended e (some st))
    (hended' : x'.left = .ended e' (some st')) :
    e = e' ∧ st.aborted = st'.aborted ∧ st.rows = st'.rows ∧ Q st.craft st'.craft := by
  have houtcome := outcome_of_ended hreach hended
  have houtcome' := outcome_of_ended hreach' hended'
  have hrun := run_lookalike hw hstart
  unfold Outcome at houtcome houtcome'
  generalize ClosedLoop.run s = r at hrun houtcome
  generalize ClosedLoop.run (s.withCraft w start) = r' at hrun houtcome'
  cases hrun with
  | inl hstop =>
    cases hstop with
    | hangs => exact houtcome.elim
    | diverges h =>
      obtain ⟨rfl, haborted, hrows, hcraft⟩ := houtcome
      obtain ⟨rfl, haborted', hrows', hcraft'⟩ := houtcome'
      exact ⟨rfl, haborted.trans haborted'.symm, by rw [hrows, hrows', h.rows],
        by rw [hcraft, hcraft']; exact h.craft⟩
  | inr h =>
    obtain ⟨rfl, haborted, hrows, hcraft⟩ := houtcome
    obtain ⟨rfl, haborted', hrows', hcraft'⟩ := houtcome'
    exact ⟨rfl, haborted.trans haborted'.symm, by rw [hrows, hrows', h.rows],
      by rw [hcraft, hcraft']; exact h.craft⟩

end Lookalike

variable {R K : Type} [Field K] [LinearOrder K] [FloatEnv K] [Field R] [LinearOrder R] [FloatEnv R] [FloorRing R]
  [IsStrictOrderedRing R]

/-- **No session shows where its craft is or where it points.** Two sessions with the simulator that differ in
a turn about the vertical and a shift along the ground of the plant they start with leave the same return value
and the same log, and the plant of the one is that of the other, turned and carried. -/
theorem heading_hidden {s : Setup (Simulator R) R K} {bits : R → UInt32} (hcraft : s.craft = Simulator.craft bits)
    (h : Heading R) {x x' : State (Simulator R) R K} (hreach : Reach (step s) init x)
    (hreach' : Reach (step (s.withCraft s.craft (h.simulator s.start))) init x') {e e' : PlantRunner.Ended}
    {st st' : PlantRunner.RunState (Simulator R) R} (hended : x.left = .ended e (some st))
    (hended' : x'.left = .ended e' (some st')) :
    e = e' ∧ st.aborted = st'.aborted ∧ st.rows = st'.rows ∧ st'.craft = h.simulator st.craft := by
  have hw : PlantRunner.Lookalike s.craft s.craft fun c c' => c' = h.simulator c := by
    rw [hcraft]
    exact lookalike_heading h bits
  exact lookalike_of_ended hw rfl hreach hreach' hended hended'

/-- A place one metre east and two south, and a heading turned by twice the angle with cosine 3/5 and sine
4/5. -/
def elsewhere : Heading ℚ := ⟨3 / 5, 4 / 5, by norm_num, 1, -2⟩

/-- Three ticks on the simulator with the motors on, here and elsewhere: the logs are the same. -/
theorem heading_hidden_lowThrottle :
    ∃ x x' e e' st st', Reach (step lowThrottle) init x ∧
      Reach (step (lowThrottle.withCraft lowThrottle.craft (elsewhere.simulator lowThrottle.start))) init x' ∧
      x.left = .ended e (some st) ∧ x'.left = .ended e' (some st') ∧ st.rows.length = 3 ∧ st.rows = st'.rows ∧
      st'.craft = elsewhere.simulator st.craft := by
  obtain ⟨x, e, st, hreach, hended, hmotors⟩ := session_of_motors motors_lowThrottle.1
  have hreturns : (ClosedLoop.run (lowThrottle.withCraft lowThrottle.craft
      (elsewhere.simulator lowThrottle.start))).isRight = true := by decide +kernel
  obtain ⟨y, hy⟩ := Sum.isRight_iff.mp hreturns
  obtain ⟨x', e', st', hreach', hended', -⟩ := exists_ended hy
  have hhidden := heading_hidden rfl elsewhere hreach hreach' hended hended'
  refine ⟨x, x', e, e', st, st', hreach, hreach', hended, hended', ?_, hhidden.2.2⟩
  simpa [motorsOf] using congrArg List.length hmotors

end Session

end DroneMini
