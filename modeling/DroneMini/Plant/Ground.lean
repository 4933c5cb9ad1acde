import DroneMini.Plant.Rotors

/-!
# The ground

A plant on the ground whose rotors together cannot lift its weight stays there, whatever its attitude and
however it turns: no point of the Runge–Kutta step accelerates upwards, and the contact takes back what the
step sinks (`grounded_step`). So a run whose commands stay below the speed at which the rotors carry the weight
never leaves the ground (`never_takes_off`).
-/

namespace DroneMini

variable {K : Type} [Field K] [LinearOrder K] [IsStrictOrderedRing K]

/-- The up axis of the body has a vertical part of at most one, for a quaternion of any length. -/
theorem quatToR_le_one (q : Fin 4 → K) : quatToR q 2 2 ≤ 1 := by
  unfold quatToR
  dsimp only
  split_ifs
  · exact le_rfl
  · refine sub_le_self 1 (mul_nonneg (div_nonneg (by norm_num) ?_) ?_)
    · exact add_nonneg (add_nonneg (add_nonneg (mul_self_nonneg _) (mul_self_nonneg _)) (mul_self_nonneg _))
        (mul_self_nonneg _)
    · exact add_nonneg (mul_self_nonneg _) (mul_self_nonneg _)

namespace Rk4Plant

open Params

/-- The plant is on the ground and not on the way up. -/
structure Grounded (x : PlantState K) : Prop where
  pos : x.pos 2 = 0
  vel : x.vel 2 ≤ 0

/-- The rotors turn forwards, at a speed of at most `m`. -/
def SpinsTo (m : K) (x : PlantState K) : Prop := ∀ i, x.motors i ∈ Set.Icc 0 m

/-- At the speed `m` all four rotors together lift no more than the weight. -/
def Carries (m : K) : Prop := 4 * (kT * m * m) ≤ massKg * gravity

/-- The upward acceleration is the vertical part of the thrust over the mass, less gravity. -/
theorem deriv_vel (x : PlantState K) (duty : Fin 4 → K) (vbat : Flt K) :
    (deriv x duty vbat).vel 2 = quatToR x.quat 2 2 * (∑ i, thrust x.motors i) / massKg - gravity := by
  unfold deriv
  dsimp only
  rw [Matrix.mulVec, dotProduct, Fin.sum_univ_three]
  dsimp only [linearDrag, Matrix.cons_val]
  norm_num
  ring

/-- **Rotors that do not carry the weight do not accelerate upwards**, in any attitude. -/
theorem deriv_vel_nonpos {m : K} (hm : Carries m) {x : PlantState K} (hx : SpinsTo m x) (duty : Fin 4 → K)
    (vbat : Flt K) : (deriv x duty vbat).vel 2 ≤ 0 := by
  have hk : (0 : K) ≤ kT := by norm_num [kT]
  have hmass : (0 : K) < massKg := by norm_num [massKg]
  have hthrust (i : Fin 4) : 0 ≤ thrust x.motors i ∧ thrust x.motors i ≤ kT * m * m := by
    obtain ⟨h0, h1⟩ := hx i
    refine ⟨mul_nonneg (mul_nonneg hk h0) h0, ?_⟩
    have hm0 : 0 ≤ kT * m := mul_nonneg hk (h0.trans h1)
    unfold thrust
    gcongr
  have hpos : 0 ≤ ∑ i, thrust x.motors i := Finset.sum_nonneg fun i _ => (hthrust i).1
  have hsum : ∑ i, thrust x.motors i ≤ massKg * gravity := by
    refine (Finset.sum_le_card_nsmul _ _ _ fun i _ => (hthrust i).2).trans (le_trans (le_of_eq ?_) hm)
    simp
  rw [deriv_vel, sub_nonpos, div_le_iff₀ hmass, mul_comm gravity]
  exact (mul_le_of_le_one_left hpos (quatToR_le_one x.quat)).trans hsum

section Step
variable {m : K} (hm : Carries m) {duty : Fin 4 → K} {vbat : Flt K} (hc : ∀ i, pwmToOmega duty vbat i ≤ m)
  {x : PlantState K} (hx : SpinsTo m x)

/-- A point of the step from `x` that does not rise. -/
structure Sinks (duty : Fin 4 → K) (vbat : Flt K) (x s : PlantState K) : Prop where
  motors : ∀ i, OnTheWay (pwmToOmega duty vbat i) (x.motors i) (s.motors i)
  vel : s.vel 2 ≤ 0

include hm hc hx

/-- At a point that sinks the altitude and the upward velocity do not grow. -/
theorem Sinks.deriv {s : PlantState K} (h : Sinks duty vbat x s) :
    (deriv s duty vbat).pos 2 ≤ 0 ∧ (deriv s duty vbat).vel 2 ≤ 0 := by
  have hspins : SpinsTo m s := fun i => (h.motors i).mem_Icc (hx i) ⟨pwmToOmega_nonneg duty vbat i, hc i⟩
  exact ⟨h.vel, deriv_vel_nonpos hm hspins duty vbat⟩

/-- A point reached along such a slope sinks as well, so the next stage starts from one. -/
theorem Sinks.next {s : PlantState K} (h : Sinks duty vbat x s) (hvel : x.vel 2 ≤ 0) {t : K}
    (ht : 0 ≤ t ∧ t ≤ tauMS) : Sinks duty vbat x (move x t (Rk4Plant.deriv s duty vbat)) where
  motors i := (h.motors i).next tauMS_pos ht.1 ht.2
  vel := add_nonpos hvel (mul_nonpos_of_nonneg_of_nonpos ht.1 (h.deriv hm hc hx).2)

/-- None of the four stages rises, in altitude or in velocity. -/
theorem stages_nonpos (hvel : x.vel 2 ≤ 0) {dt : K} (hdt : 0 < dt ∧ dt ≤ tauMS) :
    let k1 := deriv x duty vbat
    let k2 := deriv (move x (0.5 * dt) k1) duty vbat
    let k3 := deriv (move x (0.5 * dt) k2) duty vbat
    let k4 := deriv (move x dt k3) duty vbat
    (stages k1 k2 k3 k4).pos 2 ≤ 0 ∧ (stages k1 k2 k3 k4).vel 2 ≤ 0 := by
  intro k1 k2 k3 k4
  have hhalf : 0 ≤ 0.5 * dt ∧ 0.5 * dt ≤ tauMS := by
    have htau := hdt.2
    have hpos := hdt.1
    norm_num
    constructor <;> linarith
  have h1 : Sinks duty vbat x x := ⟨fun i => onTheWay_self _ _, hvel⟩
  have h2 := h1.next hm hc hx hvel hhalf
  have h3 := h2.next hm hc hx hvel hhalf
  have h4 := h3.next hm hc hx hvel ⟨hdt.1.le, hdt.2⟩
  obtain ⟨hp1, hv1⟩ := h1.deriv hm hc hx
  obtain ⟨hp2, hv2⟩ := h2.deriv hm hc hx
  obtain ⟨hp3, hv3⟩ := h3.deriv hm hc hx
  obtain ⟨hp4, hv4⟩ := h4.deriv hm hc hx
  have htwo : (0 : K) ≤ 2.0 := by norm_num
  have hsum {a b c d : K} (ha : a ≤ 0) (hb : b ≤ 0) (hc : c ≤ 0) (hd : d ≤ 0) :
      a + 2.0 * b + 2.0 * c + d ≤ 0 :=
    add_nonpos (add_nonpos (add_nonpos ha (mul_nonpos_of_nonneg_of_nonpos htwo hb))
      (mul_nonpos_of_nonneg_of_nonpos htwo hc)) hd
  exact ⟨hsum hp1 hp2 hp3 hp4, hsum hv1 hv2 hv3 hv4⟩

end Step

omit [IsStrictOrderedRing K] in
/-- The ground contact takes back what has sunk below it. -/
theorem grounded_ground {x : PlantState K} (hpos : x.pos 2 ≤ 0) (hvel : x.vel 2 ≤ 0) : Grounded (ground x) := by
  unfold ground
  split_ifs with hbelow hdown
  · exact ⟨rfl, le_rfl⟩
  · exact ⟨rfl, hvel⟩
  · exact ⟨le_antisymm hpos (not_lt.mp hbelow), hvel⟩

/-- What a plant on the ground reports: no acceleration but that of the ground. -/
theorem sense_grounded {x : PlantState K} (h : Grounded x) :
    sense x = (toFrd x.omega, toFrd fun j => quatToR x.quat 2 j * gravity) := by
  have hpos : x.pos 2 ≤ 1e-9 := h.pos.trans_le (by norm_num)
  have hvel : x.vel 2 ≤ 1e-9 := h.vel.trans (by norm_num)
  unfold sense
  dsimp only
  rw [if_pos ⟨hpos, hvel⟩]
  congr 2
  funext j
  rw [Matrix.mulVec, dotProduct, Fin.sum_univ_three]
  dsimp only [Matrix.transpose_apply, Matrix.cons_val]
  norm_num

variable [FloatEnv K] {m : K}

/-- **A step of a plant on the ground** with rotors that do not carry its weight. -/
theorem grounded_step (hm : Carries m) {x y : PlantState K} {dt : K} {duty : Fin 4 → K} {vbat : Flt K}
    (hdt : 0 < dt ∧ dt ≤ tauMS) (hc : ∀ i, pwmToOmega duty vbat i ≤ m) (hx : Grounded x) (hspins : SpinsTo m x)
    (h : step x dt duty vbat = some y) : Grounded y ∧ SpinsTo m y := by
  have hmotors : SpinsTo m y := fun i =>
    Set.uIcc_subset_Icc (hspins i) ⟨pwmToOmega_nonneg duty vbat i, hc i⟩ (motors_eq_approach hdt h (hspins i).1).2
  refine ⟨?_, hmotors⟩
  have hclipped (i : Fin 4) : pwmToOmega (fun i => max 0 (min 1 (duty i))) vbat i ≤ m := by
    rw [pwmToOmega_clip]
    exact hc i
  obtain ⟨hpos, hvel⟩ := stages_nonpos hm hclipped hspins hx.vel hdt
  have hsixth : (0 : K) ≤ dt / 6.0 := div_nonneg hdt.1.le (by norm_num)
  unfold step at h
  dsimp only at h
  split at h
  · split_ifs at h
    cases h
    refine grounded_ground ?_ ?_
    · show x.pos 2 + dt / 6.0 * _ ≤ 0
      rw [hx.pos, zero_add]
      exact mul_nonpos_of_nonneg_of_nonpos hsixth hpos
    · exact add_nonpos hx.vel (mul_nonpos_of_nonneg_of_nonpos hsixth hvel)
  · cases h

/-! ## At rest -/

/-- `Rk4Plant.reset`: level, at rest and at the given altitude. -/
def reset (alt : K) : PlantState K := ⟨![0, 0, alt], fun _ => 0, ![1, 0, 0, 0], fun _ => 0, fun _ => 0⟩

/-- A plant that falls, level and with its rotors off. -/
def falling (z v : K) : PlantState K := ⟨![0, 0, z], ![0, 0, v], ![1, 0, 0, 0], fun _ => 0, fun _ => 0⟩

omit [LinearOrder K] [IsStrictOrderedRing K] [FloatEnv K] in
theorem falling_reset (alt : K) : falling alt 0 = reset alt := by
  unfold falling reset
  congr
  funext i
  fin_cases i <;> rfl

omit [FloatEnv K] in
/-- The derivative of a falling plant without thrust: its velocity, and gravity. -/
theorem deriv_falling (z v : K) (vbat : Flt K) : deriv (falling z v) (fun _ => 0) vbat
    = ⟨![0, 0, v], ![0, 0, -gravity], fun _ => 0, fun _ => 0, fun _ => 0⟩ := by
  have hthrust : (∑ i, thrust (falling z v).motors i) = 0 := Finset.sum_eq_zero fun i _ => mul_zero _
  have hmotors (i : Fin 4) : (falling z v).motors i = 0 := rfl
  have hcommand (i : Fin 4) : pwmToOmega (fun _ => (0 : K)) vbat i = 0 := by simp [pwmToOmega]
  have hzero : (0.0 : K) = 0 := by norm_num
  unfold deriv
  dsimp only
  rw [PlantState.mk.injEq, hthrust]
  refine ⟨rfl, ?_, ?_, ?_, ?_⟩ <;> funext i
  · fin_cases i <;> simp [Matrix.mulVec, dotProduct, Fin.sum_univ_three, linearDrag, hzero]
  · fin_cases i <;> simp [quatMul, falling, hzero]
  · fin_cases i <;> simp [torque, thrust, cross, falling, angularDrag]
  · rw [hmotors, hcommand, sub_zero, zero_div]

omit [LinearOrder K] [IsStrictOrderedRing K] [FloatEnv K] in
/-- A falling plant that moves along a derivative in altitude alone is a falling plant again. -/
theorem move_falling (z v t p a : K) :
    move (falling z v) t ⟨![0, 0, p], ![0, 0, a], fun _ => 0, fun _ => 0, fun _ => 0⟩
      = falling (z + t * p) (v + t * a) := by
  unfold move falling
  rw [PlantState.mk.injEq]
  refine ⟨?_, ?_, ?_, ?_, ?_⟩ <;> funext i
  · fin_cases i <;> simp
  · fin_cases i <;> simp
  · simp
  · simp
  · simp

omit [LinearOrder K] [IsStrictOrderedRing K] [FloatEnv K] in
/-- The weighted sum of the stages of a falling plant has the same shape. -/
theorem stages_falling (p1 p2 p3 p4 a : K) :
    stages ⟨![0, 0, p1], ![0, 0, a], fun _ => 0, fun _ => 0, fun _ => 0⟩
      ⟨![0, 0, p2], ![0, 0, a], fun _ => 0, fun _ => 0, fun _ => 0⟩
      ⟨![0, 0, p3], ![0, 0, a], fun _ => 0, fun _ => 0, fun _ => 0⟩
      ⟨![0, 0, p4], ![0, 0, a], fun _ => 0, fun _ => 0, fun _ => 0⟩
      = ⟨![0, 0, p1 + 2.0 * p2 + 2.0 * p3 + p4], ![0, 0, a + 2.0 * a + 2.0 * a + a], fun _ => 0, fun _ => 0,
        fun _ => 0⟩ := by
  unfold stages
  rw [PlantState.mk.injEq]
  refine ⟨?_, ?_, ?_, ?_, ?_⟩ <;> funext i
  · fin_cases i <;> simp
  · fin_cases i <;> simp
  · simp
  · simp
  · simp

/-- **A plant that stands still with its rotors off stays as it is.** -/
theorem step_reset (hsqrt : FloatEnv.sqrt (.fin (1 : K)) = .fin 1) {dt : K} (hdt : 0 < dt) (vbat : Flt K) :
    step (reset 0) dt (fun _ => 0) vbat = some (reset 0) := by
  have hduty : (fun _ : Fin 4 => max (0 : K) (min 1 0)) = fun _ => 0 := by simp
  have hg : (0 : K) < gravity := by norm_num [gravity]
  unfold step
  dsimp only
  rw [hduty, ← falling_reset, deriv_falling, move_falling, deriv_falling, move_falling, deriv_falling,
    move_falling, deriv_falling, stages_falling, move_falling]
  have hfalls : 0 + dt / 6.0 * (0 + 2.0 * (0 + 0.5 * dt * -gravity) + 2.0 * (0 + 0.5 * dt * -gravity) +
      (0 + dt * -gravity)) < 0 ∧ 0 + dt / 6.0 * (-gravity + 2.0 * -gravity + 2.0 * -gravity + -gravity) < 0 := by
    norm_num
    constructor <;> nlinarith [mul_pos hdt hg, mul_pos hdt (mul_pos hdt hg)]
  generalize 0 + dt / 6.0 * (0 + 2.0 * _ + 2.0 * _ + _) = z at hfalls ⊢
  generalize 0 + dt / 6.0 * (-gravity + 2.0 * _ + 2.0 * _ + _) = v at hfalls ⊢
  have hnorm : ∑ i, (falling z v).quat i * (falling z v).quat i = 1 := by
    simp [falling, Fin.sum_univ_four]
  have hpos : (falling z v).pos 2 < 0 := hfalls.1
  have hvel : (falling z v).vel 2 < 0 := hfalls.2
  rw [hnorm, hsqrt]
  dsimp only
  rw [if_neg one_ne_zero, ground, if_pos hpos, if_pos hvel, falling_reset, Option.some.injEq, reset,
    PlantState.mk.injEq]
  refine ⟨?_, ?_, ?_, rfl, ?_⟩ <;> funext i
  · fin_cases i <;> rfl
  · fin_cases i <;> rfl
  · exact div_one _
  · exact max_self _

/-! ## Runs -/

variable {x y : PlantState K} {es : List (Event (PlantState K) (Input K) Unit)}

/-- **A plant whose rotors do not carry its weight never takes off.** In a run from the ground whose commands stay
below a speed at which the rotors do not lift more than the weight, every state is on the ground, and the rotors
stay below that speed. -/
theorem never_takes_off (hm : Carries m) (hrun : Run Steps x es y)
    (hok : ∀ e ∈ es, (0 < e.inp.dt ∧ e.inp.dt ≤ tauMS) ∧ ∀ i, e.inp.command i ≤ m) (hx : Grounded x)
    (hspins : SpinsTo m x) : ∀ e ∈ es, Grounded e.post ∧ SpinsTo m e.post := by
  refine (hrun.each (P := fun x => Grounded x ∧ SpinsTo m x) (along_of_forall hok) ⟨hx, hspins⟩ ?_).2
  rintro hist e ⟨hgrounded, hspins⟩ hstep ⟨hdt, hc⟩
  have hnext := grounded_step hm hdt hc hgrounded hspins hstep
  exact ⟨hnext, hnext⟩

/-- A plant on the ground that lies on its side and rolls, with a speed along the ground. -/
def toppled : PlantState ℚ := ⟨![1, 2, 0], ![1 / 2, 0, -1], ![3 / 5, 4 / 5, 0, 0], ![1, 0, 0], fun _ => 0⟩

/-- A toppled plant that is given half duty, nothing and half duty again, which does not lift it. -/
theorem never_takes_off_toppled : ∃ es y, Run Steps toppled es y ∧
    es.map Event.inp = [evenDuty (1 / 50) (1 / 2), evenDuty (1 / 100) 0, evenDuty (1 / 50) (1 / 2)] ∧
    (∀ e ∈ es, e.post.pos 0 ≠ e.pre.pos 0) ∧ 0 < y.motors 0 ∧
    ∀ e ∈ es, Grounded e.post ∧ SpinsTo 1250 e.post := by
  have hruns : (execute advance toppled
      [evenDuty (1 / 50) (1 / 2), evenDuty (1 / 100) 0, evenDuty (1 / 50) (1 / 2)]).any (fun r =>
        decide ((∀ e ∈ r.1, e.post.pos 0 ≠ e.pre.pos 0) ∧ 0 < r.2.motors 0)) = true := by
    decide +kernel
  obtain ⟨⟨es, y⟩, hes, hmoves⟩ := (Option.any_eq_true _ _).mp hruns
  obtain ⟨hpos, hmotors⟩ := of_decide_eq_true hmoves
  have hinp := execute_inputs hes
  have hcarries : Carries (1250 : ℚ) := by unfold Carries; decide +kernel
  have hok : ∀ u ∈ [evenDuty (1 / 50) (1 / 2), evenDuty (1 / 100) 0, evenDuty (1 / 50) (1 / 2)],
      (0 < u.dt ∧ u.dt ≤ tauMS) ∧ ∀ i, u.command i ≤ 1250 := by decide +kernel
  have hspins : SpinsTo 1250 toppled := fun i => ⟨le_rfl, by norm_num [toppled]⟩
  exact ⟨es, y, steps_of_execute hes, hinp, hpos, hmotors, never_takes_off hcarries (steps_of_execute hes)
    (fun e he => hok e.inp (hinp ▸ List.mem_map_of_mem he)) ⟨rfl, by decide⟩ hspins⟩

end Rk4Plant

end DroneMini
