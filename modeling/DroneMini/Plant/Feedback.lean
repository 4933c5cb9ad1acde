import DroneMini.Flight.AxisSigns
import DroneMini.Plant.Vehicle
import Mathlib.Tactic.NormNum
import Mathlib.Tactic.Positivity

/-!
# Negative feedback

The loop through the mixer, the rotors and the frame flip, in exact arithmetic. At rest the angular
acceleration of the body, as the rate controller measures it, is a positive multiple of the signed sum
of the squared duties over the sign table of the mixer (`measured_rateDeriv`). A single axis command
splits the duties into a high and a low pair, whatever is clipped (`mot_single`), so it accelerates that
axis the way it points and no other (`negative_feedback`).
-/

namespace DroneMini

variable {K : Type} [Field K] [LinearOrder K]

namespace Rk4Plant

open Params QuadXMixer

/-- A body vector in the measurement convention of the rate controller: gyro x, minus gyro y, gyro z. -/
def measured (v : Fin 3 → K) : Fin 3 → K := ![toFrd v 0, -toFrd v 1, toFrd v 2]

/-- The sum of the squared duties with the signs of an axis. -/
def squares (duty : Fin 4 → K) (axis : Fin 3) : K := ∑ i, signTable axis i * duty i ^ 2

/-- What the rotors turn a unit of the signed sum into, at the speed of a full duty. -/
def leverage (full : K) : Fin 3 → K :=
  ![armLengthM * kT * full ^ 2, armLengthM * kT * full ^ 2, kQ * full ^ 2]

omit [LinearOrder K] in
theorem squares_roll (duty : Fin 4 → K) :
    squares duty 0 = -duty 0 ^ 2 - duty 1 ^ 2 + duty 2 ^ 2 + duty 3 ^ 2 := by
  rw [squares, Fin.sum_univ_four]
  dsimp only [signTable, Matrix.cons_val]
  ring

omit [LinearOrder K] in
theorem squares_pitch (duty : Fin 4 → K) :
    squares duty 1 = duty 0 ^ 2 - duty 1 ^ 2 + duty 2 ^ 2 - duty 3 ^ 2 := by
  rw [squares, Fin.sum_univ_four]
  dsimp only [signTable, Matrix.cons_val]
  ring

omit [LinearOrder K] in
theorem squares_yaw (duty : Fin 4 → K) :
    squares duty 2 = -duty 0 ^ 2 + duty 1 ^ 2 + duty 2 ^ 2 - duty 3 ^ 2 := by
  rw [squares, Fin.sum_univ_four]
  dsimp only [signTable, Matrix.cons_val]
  ring

omit [LinearOrder K] in
/-- The torque of the rotors at a common multiple of the duties, in FRD with pitch turned round. -/
theorem measured_torque (duty : Fin 4 → K) (full : K) (axis : Fin 3) :
    measured (torque fun i => duty i * full) axis = leverage full axis * squares duty axis := by
  match axis with
  | 0 =>
      rw [squares_roll]
      show ∑ i, (rotorMap i).pos 1 * thrust (fun i => duty i * full) i = _
      rw [Fin.sum_univ_four]
      dsimp only [rotorMap, thrust, leverage, Matrix.cons_val]
      ring
  | 1 =>
      rw [squares_pitch]
      show - -(-∑ i, (rotorMap i).pos 0 * thrust (fun i => duty i * full) i) = _
      rw [Fin.sum_univ_four]
      dsimp only [rotorMap, thrust, leverage, Matrix.cons_val]
      ring
  | 2 =>
      rw [squares_yaw]
      show -∑ i, (rotorMap i).dir * kQ * (duty i * full) * (duty i * full) = _
      rw [Fin.sum_univ_four]
      dsimp only [rotorMap, leverage, Matrix.cons_val]
      ring

/-- A body at rest feels the torque of its rotors only. -/
theorem rateDeriv_at_rest {x : PlantState K} (hrest : x.omega = fun _ => 0) (duty : Fin 4 → K)
    (vbat : Flt K) (i : Fin 3) : rateDeriv x duty vbat i = torque x.motors i / inertia i := by
  have hcross (b : Fin 3 → K) : cross (fun _ => 0) b i = 0 := by
    match i with
    | 0 | 1 | 2 =>
        show 0 * _ - 0 * _ = (0 : K)
        rw [zero_mul, zero_mul, sub_zero]
  unfold rateDeriv deriv
  dsimp only
  rw [hrest, hcross, sub_zero, mul_zero, zero_div, sub_zero, one_div_mul_eq_div]

/-- The speeds that duties between zero and one command are proportional to the duty and to the voltage. -/
theorem pwmToOmega_of_unit {duty : Fin 4 → K} (h : ∀ i, 0 ≤ duty i ∧ duty i ≤ 1) {v : K} (hv : 0 < v) :
    pwmToOmega duty (.fin v) = fun i => duty i * (omegaMaxRadS * (v / vbatNominal)) := by
  funext i
  unfold pwmToOmega
  dsimp only
  rw [max_eq_left hv.le, min_eq_right (h i).2, max_eq_right (h i).1]

/-- **The acceleration of a body at rest**, with the rotors at the steady speeds of a duty. -/
theorem measured_rateDeriv {x : PlantState K} {duty : Fin 4 → K} (h : ∀ i, 0 ≤ duty i ∧ duty i ≤ 1)
    {v : K} (hv : 0 < v) (hrest : x.omega = fun _ => 0) (hmotors : x.motors = pwmToOmega duty (.fin v))
    (axis : Fin 3) (duty' : Fin 4 → K) (vbat : Flt K) :
    measured (rateDeriv x duty' vbat) axis =
      leverage (omegaMaxRadS * (v / vbatNominal)) axis / inertia axis * squares duty axis := by
  have hacc : rateDeriv x duty' vbat = fun i => torque x.motors i / inertia i :=
    funext (rateDeriv_at_rest hrest duty' vbat)
  have hscale (w : Fin 3 → K) :
      measured (fun i => w i / inertia i) axis = measured w axis / inertia axis := by
    match axis with
    | 0 => rfl
    | 1 =>
        show - -(w 1 / inertia 1) = - -w 1 / inertia 1
        rw [neg_neg, neg_neg]
    | 2 => exact (neg_div _ _).symm
  rw [hacc, hscale, hmotors, pwmToOmega_of_unit h hv, measured_torque, mul_div_right_comm]

section Ordered
variable [IsStrictOrderedRing K]

/-- The rotors act on every axis the way the sign table says. -/
theorem leverage_div_inertia_pos {full : K} (hfull : 0 < full) (axis : Fin 3) :
    0 < leverage full axis / inertia axis := by
  match axis with
  | 0 | 1 | 2 =>
      dsimp only [leverage, inertia, armLengthM, kT, kQ, Matrix.cons_val]
      positivity

/-! ## A single axis -/

variable [FloatEnv K] [ExactArith K]

/-- The command of a single axis, with the other two at zero. -/
def single (axis : Fin 3) (d : K) : Fin 3 → K := fun a => if a = axis then d else 0

omit [FloatEnv K] [ExactArith K] in
/-- The raw mix of a single command is the throttle with the command added in the signs of its axis. -/
theorem rawMix_single {t d : K} (ht : 0 ≤ t ∧ t ≤ 1) (hd : |d| ≤ 1) (axis : Fin 3) (i : Fin 4) :
    rawMix (.fin t) (.fin (single axis d 0)) (.fin (single axis d 1)) (.fin (single axis d 2)) i =
      t + signTable axis i * d := by
  have hsingle (a : Fin 3) : |single axis d a| ≤ 1 := by
    unfold single
    split_ifs
    · exact hd
    · rw [abs_zero]
      exact zero_le_one
  rw [rawMix_fin ht hsingle]
  match axis, i with
  | 0, 0 | 0, 1 | 0, 2 | 0, 3 | 1, 0 | 1, 1 | 1, 2 | 1, 3 | 2, 0 | 2, 1 | 2, 2 | 2, 3 =>
      simp [mixed, single, signTable, sub_eq_add_neg]

omit [IsStrictOrderedRing K] [FloatEnv K] [ExactArith K] [LinearOrder K] in
/-- Every axis has a motor that it raises and one that it lowers. -/
theorem signTable_both (axis : Fin 3) :
    ∃ p n : Fin 4, signTable axis p = (1 : K) ∧ signTable axis n = (-1 : K) := by
  match axis with
  | 0 => exact ⟨2, 0, rfl, rfl⟩
  | 1 => exact ⟨0, 1, rfl, rfl⟩
  | 2 => exact ⟨1, 0, rfl, rfl⟩

omit [FloatEnv K] [ExactArith K] in
/-- The lower channels of a single command are not clipped. -/
theorem lower_lt_one {m : Fin 4 → K} {t d : K} {axis : Fin 3} (hm : ∀ i, m i = t + signTable axis i * d)
    {i j : Fin 4} (hi : signTable axis i * d = -|d|) (hj : signTable axis j * d = |d|) (hne : d ≠ 0) :
    m i + shiftNum m < 1 := by
  have hpos : 0 < |d| := abs_pos.mpr hne
  have hlow : t - |d| ≤ lowest m := by
    obtain ⟨k, hk⟩ := (isLeast_lowest m).1
    have hge : -|d| ≤ signTable axis k * d := by
      rcases signTable_eq_or (K := K) axis k with h | h
      · rw [h, one_mul]
        exact neg_abs_le d
      · rw [h, neg_one_mul]
        exact neg_le_neg (le_abs_self d)
    rw [← hk, hm]
    linarith
  have hhigh : t + |d| ≤ highest m := by
    rw [← hj, ← hm]
    exact le_highest m j
  have hright : min 0 (1 - highest m) ≤ 1 - highest m := min_le_right _ _
  have hshift : shiftNum m < 1 - (t - |d|) := max_lt (by linarith) (by linarith)
  rw [hm, hi]
  linarith

/-- The duties of a single command: a mean, and an excursion of the sign of the command, whatever is
clipped. -/
theorem mot_single {t d : K} (ht : 0 ≤ t ∧ t ≤ 1) (hd : |d| ≤ 1) (hne : d ≠ 0) (axis : Fin 3) :
    ∃ mean half : K, 0 < mean ∧ SignType.sign half = SignType.sign d ∧
      ∀ i, ((write (.fin t) (.fin (single axis d 0)) (.fin (single axis d 1))
        (.fin (single axis d 2))).1.mot i).num = mean + signTable axis i * half := by
  let m := rawMix (.fin t) (.fin (single axis d 0)) (.fin (single axis d 1)) (.fin (single axis d 2))
  have hm (i : Fin 4) : m i = t + signTable axis i * d := rawMix_single ht hd axis i
  let up := min 1 (t + d + shiftNum m)
  let down := min 1 (t - d + shiftNum m)
  have hmot (i : Fin 4) : ((write (.fin t) (.fin (single axis d 0)) (.fin (single axis d 1))
      (.fin (single axis d 2))).1.mot i).num = (up + down) / 2 + signTable axis i * ((up - down) / 2) := by
    rw [write_mot]
    show min 1 (m i + shiftNum m) = _
    rw [hm]
    rcases signTable_eq_or (K := K) axis i with h | h
    · rw [h, one_mul]
      ring
    · rw [h, neg_one_mul, ← sub_eq_add_neg]
      ring
  obtain ⟨p, n, hp, hn⟩ := signTable_both (K := K) axis
  have hmp : m p = t + d := by rw [hm, hp, one_mul]
  have hmn : m n = t - d := by rw [hm, hn, neg_one_mul, sub_eq_add_neg]
  have hup := nonneg_add_shiftNum m p
  have hdown := nonneg_add_shiftNum m n
  rw [hmp] at hup
  rw [hmn] at hdown
  have hcut {a b : K} (ha : a < 1) (hab : a < b) : min 1 a < min 1 b := by
    rw [min_eq_right ha.le]
    exact lt_min ha hab
  have hup0 : 0 ≤ up := le_min zero_le_one hup
  have hdown0 : 0 ≤ down := le_min zero_le_one hdown
  rcases lt_or_gt_of_ne hne with h | h
  · have hlow := lower_lt_one hm (i := p) (j := n) (by rw [hp, abs_of_neg h, one_mul, neg_neg])
      (by rw [hn, abs_of_neg h, neg_one_mul]) hne
    rw [hmp] at hlow
    have hlt : up < down := hcut hlow (by linarith)
    refine ⟨(up + down) / 2, (up - down) / 2, by linarith, ?_, hmot⟩
    rw [sign_neg h, sign_neg (by linarith)]
  · have hlow := lower_lt_one hm (i := n) (j := p) (by rw [hn, abs_of_pos h, neg_one_mul])
      (by rw [hp, abs_of_pos h, one_mul]) hne
    rw [hmn] at hlow
    have hlt : down < up := hcut hlow (by linarith)
    refine ⟨(up + down) / 2, (up - down) / 2, by linarith, ?_, hmot⟩
    rw [sign_pos h, sign_pos (by linarith)]

omit [LinearOrder K] [IsStrictOrderedRing K] [FloatEnv K] [ExactArith K] in
/-- The signed sums of such duties: the axes of the sign table do not see each other. -/
theorem squares_single (mean half : K) (axis a : Fin 3) :
    squares (fun i => mean + signTable axis i * half) a = if a = axis then 8 * mean * half else 0 := by
  match axis, a with
  | 0, 0 | 0, 1 | 0, 2 | 1, 0 | 1, 1 | 1, 2 | 2, 0 | 2, 1 | 2, 2 =>
      simp only [squares_roll, squares_pitch, squares_yaw]
      simp [signTable] <;> ring

/-- **The loop closes with negative feedback.** A command on one axis, the body at rest and the rotors at
the steady speeds of what the mixer makes of it: the measured acceleration of that axis has the sign of
the command, and the other two axes are not accelerated at all. -/
theorem negative_feedback {t d v : K} (ht : 0 ≤ t ∧ t ≤ 1) (hd : |d| ≤ 1) (hne : d ≠ 0) (hv : 0 < v)
    (axis : Fin 3) {x : PlantState K} {out : PwmCmd K} (hrest : x.omega = fun _ => 0)
    (hout : out = (write (.fin t) (.fin (single axis d 0)) (.fin (single axis d 1))
      (.fin (single axis d 2))).1)
    (hmotors : x.motors = pwmToOmega (fun i => (out.mot i).num) (.fin v)) (duty : Fin 4 → K)
    (vbat : Flt K) :
    SignType.sign (measured (rateDeriv x duty vbat) axis) = SignType.sign d ∧
      ∀ other ≠ axis, measured (rateDeriv x duty vbat) other = 0 := by
  obtain ⟨mean, half, hmean, hsign, hmot⟩ := mot_single ht hd hne axis
  have hunit (i : Fin 4) : 0 ≤ (out.mot i).num ∧ (out.mot i).num ≤ 1 := by
    rw [hout, write_mot]
    exact ⟨le_min zero_le_one (nonneg_add_shiftNum _ i), min_le_left _ _⟩
  have hsquares (a : Fin 3) : squares (fun i => (out.mot i).num) a =
      if a = axis then 8 * mean * half else 0 := by
    rw [hout, funext hmot, squares_single]
  have hfull : 0 < (omegaMaxRadS : K) * (v / vbatNominal) := by
    unfold omegaMaxRadS vbatNominal
    positivity
  refine ⟨?_, fun other hother => ?_⟩
  · rw [measured_rateDeriv hunit hv hrest hmotors, hsquares, if_pos rfl, sign_mul, sign_mul,
      sign_pos (leverage_div_inertia_pos hfull axis), one_mul, sign_pos (by positivity), one_mul, hsign]
  · rw [measured_rateDeriv hunit hv hrest hmotors, hsquares, if_neg hother, mul_zero]

end Ordered

/-- The body at rest, the rotors at the speeds of a yaw command that the mixer clips. -/
def yawing : PlantState ℚ where
  pos := ![0, 0, 1]
  vel := fun _ => 0
  quat := ![1, 0, 0, 0]
  omega := fun _ => 0
  motors := pwmToOmega (fun i => ((write (.fin 1) (.fin (single 2 (-0.9) 0)) (.fin (single 2 (-0.9) 1))
    (.fin (single 2 (-0.9) 2))).1.mot i).num) (.fin 3.7)

/-- The yaw command of minus 0.9 turns the craft to the left, and neither rolls nor pitches it. -/
theorem negative_feedback_yaw :
    SignType.sign (measured (rateDeriv yawing (fun _ => 0) (.fin 3.7)) 2) = SignType.sign (-0.9 : ℚ) ∧
      ∀ other ≠ 2, measured (rateDeriv yawing (fun _ => 0) (.fin 3.7)) other = 0 :=
  negative_feedback (t := 1) (d := -0.9) (v := 3.7) (by norm_num) (by norm_num [abs_le]) (by norm_num)
    (by norm_num) 2 rfl rfl rfl (fun _ => 0) (.fin 3.7)

end Rk4Plant

end DroneMini
