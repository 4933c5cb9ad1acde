import DroneMini.Lib.Rk4Lag
import DroneMini.Lib.Run
import DroneMini.Lib.FltRat
import DroneMini.Plant.Vehicle

/-!
# The rotors

The derivative of a rotor speed reads no other component of the state, so the four stages of `step` are a
Runge–Kutta step on a first-order lag (`motors_of_step`): a step moves each speed towards the commanded one
by a fixed factor and not past it. Hence along a run the speeds stay below what the highest voltage commands,
and under a constant command they approach it geometrically (`rotors_never_overshoot`).
-/

namespace DroneMini

variable {K : Type} [Field K] [LinearOrder K]

namespace Params

variable [IsStrictOrderedRing K]

theorem tauMS_pos : (0 : K) < tauMS := by
  norm_num [tauMS]

/-- A clipped duty is between zero and one, whatever was asked for. -/
theorem clip_mem (d : K) : 0 ≤ max 0 (min 1 d) ∧ max 0 (min 1 d) ≤ 1 :=
  ⟨le_max_left _ _, max_le zero_le_one (min_le_left _ _)⟩

/-- A command does not change when it is clipped first. -/
theorem pwmToOmega_clip (duty : Fin 4 → K) (vbat : Flt K) :
    pwmToOmega (fun i => max 0 (min 1 (duty i))) vbat = pwmToOmega duty vbat := by
  funext i
  dsimp only [pwmToOmega]
  rw [min_eq_right (clip_mem (duty i)).2, max_eq_right (clip_mem (duty i)).1]

/-- The rotor speed that full duty commands at a voltage. -/
def topOmega (v : K) : K := pwmToOmega (fun _ => 1) (.fin v) 0

/-- The speed that a duty commands is its clipped part of the speed of full duty. -/
theorem pwmToOmega_fin (duty : Fin 4 → K) (v : K) (i : Fin 4) :
    pwmToOmega duty (.fin v) i = max 0 (min 1 (duty i)) * topOmega v := by
  dsimp only [pwmToOmega, topOmega]
  rw [min_self, max_eq_right zero_le_one, one_mul]

/-- Full duty commands no negative speed, and more at a higher voltage. -/
theorem topOmega_mono {v w : K} (h : v ≤ w) : 0 ≤ topOmega v ∧ topOmega v ≤ topOmega w := by
  have homega : (0 : K) ≤ omegaMaxRadS := by norm_num [omegaMaxRadS]
  have hnominal : (0 : K) ≤ vbatNominal := by norm_num [vbatNominal]
  dsimp only [pwmToOmega, topOmega]
  rw [min_self, max_eq_right zero_le_one, one_mul, one_mul]
  refine ⟨mul_nonneg homega (div_nonneg (le_max_right v 0) hnominal), ?_⟩
  gcongr

/-- A command at a voltage up to `vmax` is between rest and full duty. -/
theorem pwmToOmega_mem {v vmax : K} (hv : v ≤ vmax) (duty : Fin 4 → K) (i : Fin 4) :
    0 ≤ pwmToOmega duty (.fin v) i ∧ pwmToOmega duty (.fin v) i ≤ topOmega vmax := by
  obtain ⟨htop, hle⟩ := topOmega_mono hv
  obtain ⟨h0, h1⟩ := clip_mem (duty i)
  rw [pwmToOmega_fin]
  exact ⟨mul_nonneg h0 htop, (mul_le_of_le_one_left htop h1).trans hle⟩

/-- No rotor is commanded to turn backwards, at any duty and voltage. -/
theorem pwmToOmega_nonneg (duty : Fin 4 → K) (vbat : Flt K) (i : Fin 4) : 0 ≤ pwmToOmega duty vbat i := by
  cases vbat with
  | fin v => exact (pwmToOmega_mem le_rfl duty i).1
  | posInf | negInf | nan => simp [pwmToOmega]

end Params

namespace Rk4Plant

open Params

/-- What the four stages of `step` make of one rotor, which does not depend on the rest of the state. -/
theorem motors_move (x : PlantState K) (dt : K) (duty : Fin 4 → K) (vbat : Flt K) (i : Fin 4) :
    let k1 := deriv x duty vbat
    let k2 := deriv (move x (0.5 * dt) k1) duty vbat
    let k3 := deriv (move x (0.5 * dt) k2) duty vbat
    let k4 := deriv (move x dt k3) duty vbat
    (move x (dt / 6.0) (stages k1 k2 k3 k4)).motors i =
      rk4Lag tauMS (pwmToOmega duty vbat i) dt (x.motors i) :=
  rfl

/-- The ground contact leaves the rotors alone. -/
@[simp] theorem motors_ground (x : PlantState K) : (ground x).motors = x.motors := by
  unfold ground
  split_ifs <;> rfl

variable [IsStrictOrderedRing K] [FloatEnv K]

/-- What a step does to a rotor: the stages, and no speed below zero. -/
theorem motors_of_step {x y : PlantState K} {dt : K} {duty : Fin 4 → K} {vbat : Flt K}
    (h : step x dt duty vbat = some y) (i : Fin 4) :
    y.motors i = max (rk4Lag tauMS (pwmToOmega duty vbat i) dt (x.motors i)) 0 := by
  unfold step at h
  dsimp only at h
  split at h
  · split_ifs at h
    cases h
    rw [motors_ground, ← pwmToOmega_clip duty]
    exact congrArg (max · 0) (motors_move x dt _ vbat i)
  · cases h

/-- **One step on a rotor** that does not turn backwards: it comes closer to the command. -/
theorem motors_eq_approach {x y : PlantState K} {dt : K} {duty : Fin 4 → K} {vbat : Flt K}
    (hdt : 0 < dt ∧ dt ≤ tauMS) (h : step x dt duty vbat = some y) {i : Fin 4} (hx : 0 ≤ x.motors i) :
    y.motors i = approach (pwmToOmega duty vbat i) (rk4Factor (dt / tauMS)) (x.motors i) ∧
      y.motors i ∈ Set.uIcc (x.motors i) (pwmToOmega duty vbat i) := by
  have hτ : (0 : K) < tauMS := tauMS_pos
  have hh0 : 0 < dt / tauMS := div_pos hdt.1 hτ
  have hh1 : dt / tauMS ≤ 1 := (div_le_one hτ).mpr hdt.2
  have hmem : approach (pwmToOmega duty vbat i) (rk4Factor (dt / tauMS)) (x.motors i) ∈
      Set.uIcc (x.motors i) (pwmToOmega duty vbat i) :=
    approach_mem_uIcc (rk4Factor_pos hh0.le hh1).le (rk4Factor_lt_one hh0 hh1).le
  have hpos : 0 ≤ approach (pwmToOmega duty vbat i) (rk4Factor (dt / tauMS)) (x.motors i) :=
    (le_min hx (pwmToOmega_nonneg duty vbat i)).trans hmem.1
  have heq : y.motors i = approach (pwmToOmega duty vbat i) (rk4Factor (dt / tauMS)) (x.motors i) := by
    rw [motors_of_step h, rk4Lag_eq hτ.ne', max_eq_left hpos]
  exact ⟨heq, heq ▸ hmem⟩

/-! ## Runs -/

/-- The inputs of a step: its length, the four duties and the battery voltage. -/
structure Input (K : Type) where
  dt : K
  duty : Fin 4 → K
  vbat : Flt K

/-- A step of the plant that does not raise, as the step of a transition system. -/
def Steps (x : PlantState K) (u : Input K) (y : PlantState K) (_ : Unit) : Prop :=
  step x u.dt u.duty u.vbat = some y

/-- The rotor speeds that the duties of an input command at its voltage. -/
def Input.command (u : Input K) : Fin 4 → K := pwmToOmega u.duty u.vbat

/-- An input with a step of at most one time constant and a battery of at most `vmax`. -/
structure Input.Ok (vmax : K) (u : Input K) : Prop where
  dt : 0 < u.dt ∧ u.dt ≤ tauMS
  vbat : ∃ v, u.vbat = .fin v ∧ 0 ≤ v ∧ v ≤ vmax

/-- The rotors turn forwards, and not faster than full duty commands at `vmax`. -/
def Spins (vmax : K) (x : PlantState K) : Prop := ∀ i, x.motors i ∈ Set.Icc 0 (topOmega vmax)

variable {vmax : K} {x y : PlantState K} {es : List (Event (PlantState K) (Input K) Unit)}

/-- A step keeps the bounds, and no speed leaves the interval between what it was and the command. -/
theorem spins_step {u : Input K} (hu : u.Ok vmax) (hx : Spins vmax x) (h : Steps x u y ()) :
    Spins vmax y ∧ ∀ i, y.motors i ∈ Set.uIcc (x.motors i) (u.command i) := by
  have hbetween (i : Fin 4) := (motors_eq_approach hu.dt h (hx i).1).2
  refine ⟨fun i => ?_, hbetween⟩
  obtain ⟨v, hv, -, hle⟩ := hu.vbat
  have hcommand := pwmToOmega_mem hle u.duty i
  rw [← hv] at hcommand
  exact ⟨(le_min (hx i).1 hcommand.1).trans (hbetween i).1,
    (hbetween i).2.trans (max_le (hx i).2 hcommand.2)⟩

/-- Under a constant command a run scales the distance to it once a step. -/
theorem motors_of_constant {dt : K} {c : Fin 4 → K} (hrun : Run Steps x es y)
    (hok : ∀ e ∈ es, e.inp.Ok vmax) (hx : Spins vmax x)
    (hconst : ∀ e ∈ es, e.inp.dt = dt ∧ e.inp.command = c) (i : Fin 4) :
    y.motors i = approach (c i) (rk4Factor (dt / tauMS) ^ es.length) (x.motors i) := by
  refine (hrun.induct (P := fun hist b => Spins vmax b ∧
      b.motors i = approach (c i) (rk4Factor (dt / tauMS) ^ hist.length) (x.motors i))
    (along_of_forall fun e he => And.intro (hok e he) (hconst e he)) ⟨hx, by simp⟩ ?_).2
  rintro hist e ⟨hspins, heq⟩ hstep ⟨he, rfl, rfl⟩
  have hnext := (motors_eq_approach he.dt hstep (hspins i).1).1
  refine ⟨(spins_step he hspins hstep).1, ?_⟩
  rw [hnext, heq, List.length_append, List.length_singleton, pow_succ]
  exact approach_approach _ _ _ _

/-- Along a run every step keeps the bounds and the interval. -/
theorem spins_of_run (hrun : Run Steps x es y) (hok : ∀ e ∈ es, e.inp.Ok vmax) (hx : Spins vmax x) :
    ∀ e ∈ es, Spins vmax e.post ∧ ∀ i, e.post.motors i ∈ Set.uIcc (e.pre.motors i) (e.inp.command i) := by
  refine (hrun.each (P := Spins vmax) (along_of_forall hok) hx ?_).2
  intro hist e hspins hstep he
  have hnext := spins_step he hspins hstep
  exact ⟨hnext.1, hnext⟩

/-- **Rotor speeds never overshoot.** Every step leaves each of them between rest and full duty at `vmax`, and
between what it was and the command; under a constant command they approach it geometrically. -/
theorem rotors_never_overshoot (hrun : Run Steps x es y) (hok : ∀ e ∈ es, e.inp.Ok vmax)
    (hx : Spins vmax x) :
    (∀ e ∈ es, Spins vmax e.post ∧ ∀ i, e.post.motors i ∈ Set.uIcc (e.pre.motors i) (e.inp.command i)) ∧
      ∀ dt c, (∀ e ∈ es, e.inp.dt = dt ∧ e.inp.command = c) → ∀ i,
        y.motors i = c i + (x.motors i - c i) * rk4Factor (dt / tauMS) ^ es.length :=
  ⟨spins_of_run hrun hok hx, fun _ _ hconst => motors_of_constant hrun hok hx hconst⟩

/-- The plant that stands level on the ground with its rotors at rest. -/
def rest : PlantState ℚ := ⟨fun _ => 0, fun _ => 0, ![1, 0, 0, 0], fun _ => 0, fun _ => 0⟩

/-- An input with the same duty on all four rotors, at three volts. -/
def evenDuty (dt duty : ℚ) : Input ℚ := ⟨dt, fun _ => duty, .fin 3⟩

/-- Inputs with one duty at three volts and short steps are within a battery of at most four volts. -/
theorem ok_evenDuty {us : List (Input ℚ)} (h : ∀ u ∈ us, (0 < u.dt ∧ u.dt ≤ tauMS) ∧ u.vbat = .fin 3)
    {es : List (Event (PlantState ℚ) (Input ℚ) Unit)} (hes : es.map Event.inp = us) : ∀ e ∈ es, e.inp.Ok 4 := by
  intro e he
  obtain ⟨hdt, hvbat⟩ := h e.inp (hes ▸ List.mem_map_of_mem he)
  exact ⟨hdt, 3, hvbat, by decide, by decide⟩

/-- `step` on the inputs of a run, for evaluating one. -/
def advance (x : PlantState ℚ) (u : Input ℚ) : Option (PlantState ℚ × Unit) :=
  (step x u.dt u.duty u.vbat).map fun y => (y, ())

/-- What `execute` returns for them is a run of the plant. -/
theorem steps_of_execute {x y : PlantState ℚ} {us : List (Input ℚ)}
    {es : List (Event (PlantState ℚ) (Input ℚ) Unit)} (h : execute advance x us = some (es, y)) :
    Run Steps x es y := by
  refine (execute_run h).mono fun a u b o hs => ?_
  obtain ⟨c, hc, heq⟩ := Option.map_eq_some_iff.mp hs
  cases heq
  exact hc

/-- Full duty, rotors off and half duty: rotors that stand still speed up, slow down while they still turn, and
speed up again, each step between where they were and what is commanded. Under half duty alone, step after step,
they approach its speed geometrically. -/
theorem rotors_never_overshoot_switched :
    (∃ es y, Run Steps rest es y ∧
      es.map Event.inp = [evenDuty (1 / 50) 1, evenDuty (1 / 100) 0, evenDuty (1 / 100) (1 / 2)] ∧
      es.map (fun e => decide (e.pre.motors 0 < e.post.motors 0)) = [true, false, true] ∧
      ∀ e ∈ es, Spins 4 e.post ∧ ∀ i, e.post.motors i ∈ Set.uIcc (e.pre.motors i) (e.inp.command i)) ∧
    ∃ es y, Run Steps rest es y ∧ es.map Event.inp = List.replicate 3 (evenDuty (1 / 100) (1 / 2)) ∧ ∀ i,
      y.motors i = (evenDuty (1 / 100) (1 / 2)).command i +
        (0 - (evenDuty (1 / 100) (1 / 2)).command i) * rk4Factor (1 / 100 / tauMS) ^ 3 := by
  have hspins : Spins 4 rest := fun i => ⟨le_rfl, (topOmega_mono le_rfl).1⟩
  have hswitched : (execute advance rest
      [evenDuty (1 / 50) 1, evenDuty (1 / 100) 0, evenDuty (1 / 100) (1 / 2)]).any (fun r =>
        r.1.map (fun e => decide (e.pre.motors 0 < e.post.motors 0)) == [true, false, true]) = true := by
    decide +kernel
  obtain ⟨⟨es, y⟩, hes, hdirections⟩ := (Option.any_eq_true _ _).mp hswitched
  obtain ⟨⟨es', y'⟩, hes'⟩ := Option.isSome_iff_exists.mp (by decide +kernel :
    (execute advance rest (List.replicate 3 (evenDuty (1 / 100) (1 / 2)))).isSome)
  have hinp := execute_inputs hes
  have hinp' := execute_inputs hes'
  have hlen : es'.length = 3 := by
    rw [← List.length_map (f := Event.inp), hinp', List.length_replicate]
  have hconst : ∀ e ∈ es', e.inp.dt = 1 / 100 ∧ e.inp.command = (evenDuty (1 / 100) (1 / 2)).command := by
    intro e he
    have heq := List.eq_of_mem_replicate (hinp' ▸ List.mem_map_of_mem (f := Event.inp) he)
    rw [heq]
    exact ⟨rfl, rfl⟩
  refine ⟨⟨es, y, steps_of_execute hes, hinp, eq_of_beq hdirections,
    (rotors_never_overshoot (steps_of_execute hes) (ok_evenDuty (by decide +kernel) hinp) hspins).1⟩,
    es', y', steps_of_execute hes', hinp', fun i => ?_⟩
  have hgeometric := (rotors_never_overshoot (steps_of_execute hes') (ok_evenDuty (by decide +kernel) hinp')
    hspins).2 (1 / 100) _ hconst i
  rw [hlen] at hgeometric
  exact hgeometric

end Rk4Plant

end DroneMini
