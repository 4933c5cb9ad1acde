import DroneMini.Flight.Estimator
import DroneMini.Lib.FltReal
import Mathlib.Algebra.BigOperators.Fin
import Mathlib.Algebra.Order.Chebyshev
import Mathlib.Data.List.Infix
import Mathlib.Tactic.NormNum
import Mathlib.Tactic.Linarith

/-!
# The calibration over a sequence of samples

`calibrateUpdate` on one sample after the other, in exact arithmetic. A window is a row of
`kCalibSamples` readings, each of at most the allowed magnitude. The calibration is complete once some
sequence of readings so far ends in a window (`calibrated_iff`), and the bias is the mean of the first
such window from then on (`bias_of_window`).
-/

namespace DroneMini

namespace ComplementaryEstimator

variable {K : Type} [Field K] [LinearOrder K]

/-- The square of the Euclidean norm of a reading. -/
def normSq (g : Fin 3 → K) : K := g 0 * g 0 + g 1 * g 1 + g 2 * g 2

/-- The gyro of a sample that takes part in the calibration. -/
def reading (imu : ImuSample K) : Option (Fin 3 → K) :=
  if imu.valid && finite3 imu.gyroRps then some fun i => (imu.gyroRps i).num else none

/-- The readings among the samples, in order: the gyro of each sample that is valid and finite. -/
def readings (imus : List (ImuSample K)) : List (Fin 3 → K) := imus.filterMap reading

/-- The reading is of a magnitude that the calibration takes for a craft at rest. -/
def Still (g : Fin 3 → K) : Prop := normSq g ≤ ((0.349 : ℚ) : K) * ((0.349 : ℚ) : K)

instance (g : Fin 3 → K) : Decidable (Still g) := inferInstanceAs (Decidable (_ ≤ _))

/-- The readings make a window: as many as the calibration asks for, and all of them still. -/
structure Window (gs : List (Fin 3 → K)) : Prop where
  length : gs.length = kCalibSamples
  still : ∀ g ∈ gs, Still g

/-- The readings of the samples end in a window, so the calibration is complete by then. -/
def EndsInWindow (imus : List (ImuSample K)) : Prop := ∃ gs, gs <:+ readings imus ∧ Window gs

/-- The readings end in this window, and did not end in a window before. -/
structure FirstWindow (imus : List (ImuSample K)) (gs : List (Fin 3 → K)) : Prop where
  suffix : gs <:+ readings imus
  window : Window gs
  first : ∀ hist, hist <+: imus → EndsInWindow hist → hist = imus

/-- The sum of the readings on one axis. -/
def total (gs : List (Fin 3 → K)) (i : Fin 3) : K := (gs.map fun g => g i).sum

/-- The mean of the readings on one axis, which the calibration takes for the bias. -/
def mean (gs : List (Fin 3 → K)) (i : Fin 3) : K := total gs i / gs.length

omit [LinearOrder K] in
/-- The sum of the readings with one more reading is the sum so far with that reading added. -/
theorem total_concat (gs : List (Fin 3 → K)) (g : Fin 3 → K) (i : Fin 3) :
    total (gs ++ [g]) i = total gs i + g i := by
  simp only [total, List.map_append, List.map_singleton, List.sum_append, List.sum_singleton]

omit [LinearOrder K] in
/-- One more sample brings one more reading, or none when it is not usable. -/
theorem readings_concat (imus : List (ImuSample K)) (imu : ImuSample K) :
    readings (imus ++ [imu]) = readings imus ++ (reading imu).toList := by
  rw [readings, List.filterMap_append]
  cases h : reading imu with
  | none => rw [List.filterMap_cons_none h]; rfl
  | some g => rw [List.filterMap_cons_some h]; rfl

/-- A window as long as another one, at the end of the same readings, is that one. -/
theorem Window.eq_of_suffix {gs gs' l : List (Fin 3 → K)} (h : Window gs) (h' : Window gs') (hs : gs <:+ l)
    (hs' : gs' <:+ l) : gs = gs' :=
  (List.suffix_of_suffix_length_le hs hs' (h.length.trans h'.length.symm).le).eq_of_length
    (h.length.trans h'.length.symm)

/-- Among the beginnings of one sequence of samples there is one first window only. -/
theorem FirstWindow.unique {imus hist hist' : List (ImuSample K)} {gs gs' : List (Fin 3 → K)}
    (h : FirstWindow hist gs) (h' : FirstWindow hist' gs') (hp : hist <+: imus) (hp' : hist' <+: imus) :
    gs = gs' := by
  have hends : EndsInWindow hist := ⟨gs, h.suffix, h.window⟩
  have hends' : EndsInWindow hist' := ⟨gs', h'.suffix, h'.window⟩
  have heq : hist = hist' := by
    rcases le_total hist.length hist'.length with hle | hle
    · exact h'.first hist (List.prefix_of_prefix_length_le hp hp' hle) hends
    · exact (h.first hist' (List.prefix_of_prefix_length_le hp' hp hle) hends').symm
  subst heq
  exact h.window.eq_of_suffix h'.window h.suffix h'.suffix

section Order
variable [IsStrictOrderedRing K]

/-- The square of a sum of readings is at most their number times the sum of the squares. -/
theorem total_sq_le (gs : List (Fin 3 → K)) (i : Fin 3) :
    total gs i * total gs i ≤ gs.length * (gs.map fun g => g i * g i).sum := by
  have hsum (f : (Fin 3 → K) → K) : (gs.map f).sum = ∑ j : Fin gs.length, f gs[j] :=
    (Fin.sum_univ_fun_getElem gs f).symm
  rw [total, hsum, hsum, ← pow_two]
  refine sq_sum_le_card_mul_sum_sq.trans_eq ?_
  rw [Finset.card_univ, Fintype.card_fin]
  simp only [pow_two]

/-- **The mean of readings of the allowed magnitude is of the allowed magnitude.** -/
theorem still_mean {gs : List (Fin 3 → K)} (hne : gs ≠ []) (h : ∀ g ∈ gs, Still g) : Still (mean gs) := by
  have hlength : (0 : K) < gs.length := Nat.cast_pos.mpr (List.length_pos_iff.mpr hne)
  have hsum : (gs.map normSq).sum ≤ gs.length * (((0.349 : ℚ) : K) * ((0.349 : ℚ) : K)) := by
    have hle := List.sum_le_card_nsmul (gs.map normSq) _ fun x hx => by
      obtain ⟨g, hg, rfl⟩ := List.mem_map.mp hx
      exact h g hg
    rwa [List.length_map, nsmul_eq_mul] at hle
  have haxes : (gs.map fun g => g 0 * g 0).sum + (gs.map fun g => g 1 * g 1).sum +
      (gs.map fun g => g 2 * g 2).sum = (gs.map normSq).sum := by
    rw [← List.sum_map_add, ← List.sum_map_add]
    rfl
  have htotal : normSq (total gs) ≤ gs.length * (gs.map normSq).sum := by
    rw [← haxes, mul_add, mul_add]
    exact add_le_add (add_le_add (total_sq_le gs 0) (total_sq_le gs 1)) (total_sq_le gs 2)
  have hmean : normSq (mean gs) = normSq (total gs) / (gs.length * gs.length) := by
    simp only [normSq, mean]
    field_simp
  rw [Still, hmean, div_le_iff₀ (mul_pos hlength hlength)]
  calc normSq (total gs) ≤ gs.length * (gs.map normSq).sum := htotal
    _ ≤ gs.length * (gs.length * (((0.349 : ℚ) : K) * ((0.349 : ℚ) : K))) :=
      mul_le_mul_of_nonneg_left hsum hlength.le
    _ = ((0.349 : ℚ) : K) * ((0.349 : ℚ) : K) * (gs.length * gs.length) := by ring

end Order

/-! ## The run of the calibration -/

variable [FloatEnv K]

/-- The estimator after a sequence of samples that it calibrates on from new. -/
def calibrate (imus : List (ImuSample K)) : ComplementaryEstimator K := imus.foldl calibrateUpdate new

/-- The calibration is under way: the readings since the last one that was too large are summed up, and
there are not enough of them yet. -/
structure Collecting (imus : List (ImuSample K)) (est : ComplementaryEstimator K) : Prop where
  state : est.state ≠ .kDone
  sums : ∃ earlier gs, readings imus = earlier ++ gs ∧ (∀ g ∈ gs, Still g) ∧
    (∀ g ∈ earlier.getLast?, ¬ Still g) ∧ est.n = gs.length ∧ gs.length < kCalibSamples ∧
    ∀ i, est.sum i = .fin (total gs i)

/-- The calibration is complete, with the mean of the given readings as the bias. -/
structure Completed (gs : List (Fin 3 → K)) (est : ComplementaryEstimator K) : Prop where
  state : est.state = .kDone
  bias : ∀ i, est.bias i = .fin (mean gs i)

omit [FloatEnv K] in
/-- As long as the calibration is under way the readings do not end in a window. -/
theorem Collecting.not_endsInWindow {imus : List (ImuSample K)} {est : ComplementaryEstimator K}
    (h : Collecting imus est) : ¬ EndsInWindow imus := by
  rintro ⟨gs', hsuffix, hwindow⟩
  obtain ⟨earlier, gs, hreadings, -, hearlier, -, hlength, -⟩ := h.sums
  rw [hreadings] at hsuffix
  -- the window reaches back to the last reading that was too large
  have hshorter : gs.length < gs'.length := hwindow.length.symm ▸ hlength
  obtain ⟨back, rfl⟩ := List.suffix_of_suffix_length_le (List.suffix_append earlier gs) hsuffix hshorter.le
  obtain ⟨rest, hrest⟩ := hsuffix
  rw [← List.append_assoc] at hrest
  have hearlier_eq := List.append_cancel_right hrest
  rcases List.eq_nil_or_concat back with rfl | ⟨back, g, rfl⟩
  · exact absurd hshorter (lt_irrefl _)
  · rw [List.concat_eq_append] at hearlier_eq hwindow
    have hlast : g ∈ earlier.getLast? := by
      rw [← hearlier_eq, ← List.append_assoc, List.getLast?_concat]
      rfl
    exact hearlier g hlast (hwindow.still g (by simp))

/-- A calibration that is complete stays as it is, whatever samples come. -/
theorem calibrateUpdate_of_done {est : ComplementaryEstimator K} (h : est.state = .kDone)
    (imu : ImuSample K) : est.calibrateUpdate imu = est := by
  rw [calibrateUpdate, if_pos h]

omit [Field K] [LinearOrder K] [FloatEnv K] in
/-- The first sample moves an idle calibration to collecting, and one that collects stays there. -/
theorem ite_idle {est : ComplementaryEstimator K} (h : est.state ≠ .kDone) :
    (if est.state = .kIdle then { est with state := .kCollect } else est) =
      { est with state := .kCollect } := by
  cases hstate : est.state with
  | kIdle => exact if_pos rfl
  | kCollect =>
    rw [if_neg (by simp), ← hstate]
  | kDone => exact absurd hstate h

/-- A sample without a reading does not count, and the calibration collects on. -/
theorem calibrateUpdate_of_none {est : ComplementaryEstimator K} (h : est.state ≠ .kDone)
    {imu : ImuSample K} (hnone : reading imu = none) :
    est.calibrateUpdate imu = { est with state := .kCollect } := by
  unfold reading at hnone
  split_ifs at hnone with hvalid
  have hskip : (!imu.valid || !finite3 imu.gyroRps) = true := by
    rw [← Bool.not_and, Bool.not_eq_true']
    exact Bool.eq_false_of_not_eq_true hvalid
  rw [calibrateUpdate, if_neg h, ite_idle h, if_pos hskip]

omit [LinearOrder K] [FloatEnv K] in
/-- The gyro of a sample with a reading is valid and finite, and is that reading. -/
theorem gyro_of_reading {imu : ImuSample K} {g : Fin 3 → K} (h : reading imu = some g) :
    (!imu.valid || !finite3 imu.gyroRps) = false ∧ imu.gyroRps = fun i => .fin (g i) := by
  unfold reading at h
  split_ifs at h with hvalid
  obtain ⟨hok, hfinite⟩ := Bool.and_eq_true_iff.mp hvalid
  obtain ⟨h01, h2⟩ := Bool.and_eq_true_iff.mp hfinite
  obtain ⟨h0, h1⟩ := Bool.and_eq_true_iff.mp h01
  have hnum {v : Flt K} (hv : v.isFinite = true) : v = .fin v.num := by
    obtain ⟨x, rfl⟩ := Flt.eq_fin_of_isFinite hv
    rfl
  cases h
  refine ⟨by rw [hok, hfinite]; rfl, funext fun i => ?_⟩
  fin_cases i
  · exact hnum h0
  · exact hnum h1
  · exact hnum h2

section Exact
variable [IsStrictOrderedRing K] [ExactArith K] [ExactSqrt K]

omit [IsStrictOrderedRing K] [ExactSqrt K] in
/-- The norm that the calibration compares is the square root of the sum of squares. -/
theorem norm3_fin (g : Fin 3 → K) : norm3 (fun i => .fin (g i)) = FloatEnv.sqrt (.fin (normSq g)) := by
  simp only [norm3, normSq, Flt.fin_mul_fin, Flt.fin_add_fin]

omit [FloatEnv K] [ExactArith K] [ExactSqrt K] in
theorem normSq_nonneg (g : Fin 3 → K) : 0 ≤ normSq g :=
  add_nonneg (add_nonneg (mul_self_nonneg _) (mul_self_nonneg _)) (mul_self_nonneg _)

/-- The magnitude exceeds the limit exactly when the reading is not still. -/
theorem limit_lt_norm3 (g : Fin 3 → K) :
    kCalibMaxGyroRps < norm3 (fun i => .fin (g i)) ↔ ¬ Still g := by
  have hlimit : (0 : K) ≤ ((0.349 : ℚ) : K) := Rat.cast_nonneg.mpr (by norm_num)
  rw [norm3_fin, kCalibMaxGyroRps, Flt.lit_eq, Flt.fin_lt_sqrt hlimit (normSq_nonneg g), Still, not_le]

/-- A reading that is too large starts the collection anew. -/
theorem calibrateUpdate_of_moving {est : ComplementaryEstimator K} (h : est.state ≠ .kDone)
    {imu : ImuSample K} {g : Fin 3 → K} (hg : reading imu = some g) (hmoving : ¬ Still g) :
    est.calibrateUpdate imu = { est with state := .kCollect, n := 0, sum := fun _ => 0 } := by
  obtain ⟨hvalid, hgyro⟩ := gyro_of_reading hg
  rw [calibrateUpdate, if_neg h, ite_idle h, if_neg (by rw [hvalid]; exact Bool.false_ne_true), hgyro,
    if_pos ((limit_lt_norm3 g).mpr hmoving)]

/-- A reading of the allowed magnitude is added, and the last one that is needed completes the
calibration. -/
theorem calibrateUpdate_of_still {est : ComplementaryEstimator K} (h : est.state ≠ .kDone)
    {imu : ImuSample K} {g s : Fin 3 → K} (hg : reading imu = some g) (hstill : Still g)
    (hsum : ∀ i, est.sum i = .fin (s i)) :
    est.calibrateUpdate imu =
      if kCalibSamples ≤ est.n + 1 then
        { est with
          state := .kDone
          n := est.n + 1
          sum := fun i => .fin (s i + g i)
          bias := fun i => .fin (s i + g i) * (1 / .ofInt ↑(est.n + 1)) }
      else { est with state := .kCollect, n := est.n + 1, sum := fun i => .fin (s i + g i) } := by
  obtain ⟨hvalid, hgyro⟩ := gyro_of_reading hg
  rw [calibrateUpdate, if_neg h, ite_idle h, if_neg (by rw [hvalid]; exact Bool.false_ne_true), hgyro,
    if_neg (not_not_intro hstill ∘ (limit_lt_norm3 g).mp)]
  simp only [hsum, Flt.fin_add_fin]

/-- **A sample keeps the collection going or completes it**, and then the readings end in a window. -/
theorem Collecting.step {imus : List (ImuSample K)} {est : ComplementaryEstimator K}
    (h : Collecting imus est) (imu : ImuSample K) :
    Collecting (imus ++ [imu]) (est.calibrateUpdate imu) ∨
      ∃ gs, gs <:+ readings (imus ++ [imu]) ∧ Window gs ∧ Completed gs (est.calibrateUpdate imu) := by
  obtain ⟨earlier, gs, hreadings, hgs, hearlier, hn, hlength, hsum⟩ := h.sums
  rw [readings_concat, hreadings]
  cases hg : reading imu with
  | none =>
    rw [calibrateUpdate_of_none h.state hg]
    refine .inl ⟨by simp, earlier, gs, ?_, hgs, hearlier, hn, hlength, hsum⟩
    rw [readings_concat, hreadings, hg]
    exact List.append_nil _
  | some g =>
    by_cases hstill : Still g
    · have hgs' : ∀ g' ∈ gs ++ [g], Still g' := by
        intro g' hg'
        rcases List.mem_append.mp hg' with hg' | hg'
        · exact hgs g' hg'
        · exact List.mem_singleton.mp hg' ▸ hstill
      have hreadings' : readings (imus ++ [imu]) = earlier ++ (gs ++ [g]) := by
        rw [readings_concat, hreadings, hg, List.append_assoc]
        rfl
      have hcount : est.n + 1 = (gs ++ [g]).length := by rw [hn, List.length_append, List.length_singleton]
      rw [calibrateUpdate_of_still h.state hg hstill hsum]
      split_ifs with hfull
      · have hwindow : (gs ++ [g]).length = kCalibSamples := by omega
        refine .inr ⟨gs ++ [g], ?_, ⟨hwindow, hgs'⟩, rfl, fun i => ?_⟩
        · rw [Option.toList_some, List.append_assoc]
          exact List.suffix_append _ _
        · have hne : (((est.n + 1 : ℕ) : ℤ) : K) ≠ 0 := Int.cast_ne_zero.mpr (by omega)
          have hcast : (((est.n + 1 : ℕ) : ℤ) : K) = ((gs ++ [g]).length : K) := by
            rw [hcount, Int.cast_natCast]
          change (.fin (total gs i + g i) * (1 / .ofInt _) : Flt K) = _
          rw [Flt.ofInt_exact, Flt.one_def, Flt.fin_div_fin _ hne, Flt.fin_mul_fin, hcast,
            mul_one_div, mean, total_concat]
      · refine .inl ⟨by simp, earlier, gs ++ [g], hreadings', hgs', hearlier, hcount, by omega, fun i => ?_⟩
        rw [total_concat]
    · rw [calibrateUpdate_of_moving h.state hg hstill]
      refine .inl ⟨by simp, earlier ++ gs ++ [g], [], ?_, by simp, ?_, rfl, Nat.succ_pos 199, fun i => rfl⟩
      · rw [readings_concat, hreadings, hg, List.append_nil]
        rfl
      · rw [List.getLast?_concat]
        intro g' hg'
        exact Option.some.inj hg' ▸ hstill

/-- **The calibration is under way as long as no beginning of the samples ends in a window, and complete
with the mean of the first window from then on.** -/
theorem calibrate_cases (imus : List (ImuSample K)) :
    (Collecting imus (calibrate imus) ∧ ∀ hist, hist <+: imus → ¬ EndsInWindow hist) ∨
      ∃ hist gs, hist <+: imus ∧ FirstWindow hist gs ∧ Completed gs (calibrate imus) := by
  induction imus using List.reverseRecOn with
  | nil =>
    have hcollecting : Collecting [] (calibrate ([] : List (ImuSample K))) :=
      ⟨by simp [calibrate, new], [], [], rfl, by simp, by simp, rfl, Nat.succ_pos 199, fun _ => rfl⟩
    refine .inl ⟨hcollecting, fun hist hbegin => ?_⟩
    rw [List.prefix_nil.mp hbegin]
    exact hcollecting.not_endsInWindow
  | append_singleton imus imu ih =>
    have hstep : calibrate (imus ++ [imu]) = (calibrate imus).calibrateUpdate imu := List.foldl_concat ..
    rw [hstep]
    rcases ih with ⟨hcollecting, hnone⟩ | ⟨hist, gs, hbegin, hfirst, hdone⟩
    · rcases hcollecting.step imu with hnext | ⟨gs, hsuffix, hwindow, hdone⟩
      · refine .inl ⟨hnext, fun hist hbegin => ?_⟩
        rcases List.prefix_concat_iff.mp hbegin with rfl | hbegin
        · exact hnext.not_endsInWindow
        · exact hnone hist hbegin
      · refine .inr ⟨imus ++ [imu], gs, List.prefix_rfl,
          ⟨hsuffix, hwindow, fun hist hbegin hends => ?_⟩, hdone⟩
        rcases List.prefix_concat_iff.mp hbegin with heq | hbegin
        · exact heq
        · exact absurd hends (hnone hist hbegin)
    · rw [calibrateUpdate_of_done hdone.state]
      exact .inr ⟨hist, gs, hbegin.trans (List.prefix_append _ _), hfirst, hdone⟩

/-- The calibration is complete once the readings of some beginning of the samples end in a window. -/
theorem calibrated_iff (imus : List (ImuSample K)) :
    (calibrate imus).state = .kDone ↔ ∃ hist, hist <+: imus ∧ EndsInWindow hist := by
  rcases calibrate_cases imus with ⟨hcollecting, hnone⟩ | ⟨hist, gs, hbegin, hfirst, hdone⟩
  · refine iff_of_false hcollecting.state ?_
    rintro ⟨hist, hbegin, hends⟩
    exact hnone hist hbegin hends
  · exact iff_of_true hdone.state ⟨hist, hbegin, gs, hfirst.suffix, hfirst.window⟩

/-- From the first window on the bias is its mean. -/
theorem bias_of_window {imus hist : List (ImuSample K)} {gs : List (Fin 3 → K)} (hbegin : hist <+: imus)
    (hfirst : FirstWindow hist gs) (i : Fin 3) : (calibrate imus).bias i = .fin (mean gs i) := by
  rcases calibrate_cases imus with ⟨-, hnone⟩ | ⟨hist', gs', hbegin', hfirst', hdone⟩
  · exact absurd ⟨gs, hfirst.suffix, hfirst.window⟩ (hnone hist hbegin)
  · rw [hfirst.unique hfirst' hbegin hbegin']
    exact hdone.bias i

end Exact

end ComplementaryEstimator

end DroneMini
