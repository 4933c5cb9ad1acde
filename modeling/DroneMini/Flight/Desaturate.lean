import DroneMini.Flight.Mirror
import DroneMini.Lib.Shift
import Mathlib.Tactic.Linarith

/-!
# Desaturation

What the two corrections of `QuadXMixer::desaturate` and the clip after them amount to, in exact
arithmetic. Every channel is the raw mix value plus the shift, cut at 1 (`write_mot`); the shift is the
least that fits when there is one (`desaturation_least`). When there is none, the clip changes channels
that the shift does not tell of (`reportsSaturation_iff`).
-/

namespace DroneMini

variable {K : Type} [Field K] [LinearOrder K]

namespace QuadXMixer

/-- The raw mix of the inputs as `write` sanitises them. -/
def rawMix (thr roll pitch yaw : Flt K) : Fin 4 → K :=
  let t := (clampf thr 0 1).num
  let r := (clampf roll (-1) 1).num
  let p := (clampf pitch (-1) 1).num
  let y := (clampf yaw (-1) 1).num
  ![t - r + p - y, t - r - p + y, t + r + p + y, t + r - p - y]

omit [Field K] in
/-- The highest of the four channels, found in the order of the source. -/
def highest (m : Fin 4 → K) : K := max (max (max (m 0) (m 1)) (m 2)) (m 3)

omit [Field K] in
/-- The lowest of the four channels, found in the order of the source. -/
def lowest (m : Fin 4 → K) : K := min (m 3) (min (m 2) (min (m 1) (m 0)))

omit [Field K] in
theorem isGreatest_highest (m : Fin 4 → K) : IsGreatest (Set.range m) (highest m) := by
  constructor
  · unfold highest
    rcases max_choice (max (max (m 0) (m 1)) (m 2)) (m 3) with h | h
    · rcases max_choice (max (m 0) (m 1)) (m 2) with h' | h'
      · rcases max_choice (m 0) (m 1) with h'' | h''
        · exact ⟨0, by rw [h, h', h'']⟩
        · exact ⟨1, by rw [h, h', h'']⟩
      · exact ⟨2, by rw [h, h']⟩
    · exact ⟨3, h.symm⟩
  · rintro _ ⟨i, rfl⟩
    fin_cases i <;> simp [highest]

omit [Field K] in
theorem isLeast_lowest (m : Fin 4 → K) : IsLeast (Set.range m) (lowest m) := by
  constructor
  · unfold lowest
    rcases min_choice (m 3) (min (m 2) (min (m 1) (m 0))) with h | h
    · exact ⟨3, h.symm⟩
    · rcases min_choice (m 2) (min (m 1) (m 0)) with h' | h'
      · exact ⟨2, by rw [h, h']⟩
      · rcases min_choice (m 1) (m 0) with h'' | h''
        · exact ⟨1, by rw [h, h', h'']⟩
        · exact ⟨0, by rw [h, h', h'']⟩
  · rintro _ ⟨i, rfl⟩
    fin_cases i <;> simp [lowest]

omit [Field K] in
theorem le_highest (m : Fin 4 → K) (i : Fin 4) : m i ≤ highest m := (isGreatest_highest m).2 ⟨i, rfl⟩

omit [Field K] in
theorem lowest_le (m : Fin 4 → K) (i : Fin 4) : lowest m ≤ m i := (isLeast_lowest m).2 ⟨i, rfl⟩

/-- The shift that `desaturate` takes, as a number: the high side first, the low side has the last
word. -/
def shiftNum (m : Fin 4 → K) : K := max (0 - lowest m) (min 0 (1 - highest m))

/-- On a number the clamp is a maximum of a minimum. -/
theorem clampf_num (x : K) {lo hi : K} (h : lo ≤ hi) :
    clampf (.fin x) (.fin lo) (.fin hi) = .fin (max lo (min hi x)) := by
  unfold clampf
  rw [if_neg (by simp)]
  rcases lt_or_ge x lo with hx | hx
  · rw [if_pos (Flt.fin_lt_fin.mpr hx), min_eq_right (hx.le.trans h), max_eq_left hx.le]
  · rw [if_neg (Flt.fin_lt_fin.not.mpr hx.not_gt), Flt.ite_lt_min, max_eq_right (le_min h hx)]

section Exact
variable [IsStrictOrderedRing K]

/-- The shift leaves no channel below zero, whatever the channels are. -/
theorem nonneg_add_shiftNum (m : Fin 4 → K) (i : Fin 4) : 0 ≤ m i + shiftNum m := by
  have hlow := lowest_le m i
  have hshift : 0 - lowest m ≤ shiftNum m := le_max_left _ _
  linarith

variable [FloatEnv K] [ExactArith K]

omit [IsStrictOrderedRing K] in
/-- The channels of the code are those of the raw mix. -/
theorem mix_eq_rawMix (thr roll pitch yaw : Flt K) :
    mix (clampf thr 0 1) (clampf roll (-1) 1) (clampf pitch (-1) 1) (clampf yaw (-1) 1) =
      fun i => .fin (rawMix thr roll pitch yaw i) := by
  obtain ⟨t, ht⟩ := clampf_eq_fin thr 0 1
  obtain ⟨r, hr⟩ := clampf_eq_fin roll (-1) 1
  obtain ⟨p, hp⟩ := clampf_eq_fin pitch (-1) 1
  obtain ⟨y, hy⟩ := clampf_eq_fin yaw (-1) 1
  unfold rawMix
  rw [Flt.zero_def, Flt.one_def, Flt.neg_fin, ht, hr, hp, hy]
  funext i
  fin_cases i <;> simp [mix, Flt.num]

/-- The two corrections of `desaturate` in a row: down to one, and then up to zero. -/
theorem shiftOf_fin (hi lo : K) :
    shiftOf (.fin hi) (.fin lo) = .fin (max (0 - lo) (min 0 (1 - hi))) := by
  have hhigh : (if (.fin 1 : Flt K) < .fin hi then .fin 0 - (.fin hi - .fin 1) else .fin 0 : Flt K) =
      .fin (min 0 (1 - hi)) := by
    rcases lt_or_ge 1 hi with h | h
    · rw [if_pos (Flt.fin_lt_fin.mpr h), Flt.fin_sub_fin, Flt.fin_sub_fin,
        min_eq_right (sub_nonpos.mpr h.le), zero_sub, neg_sub]
    · rw [if_neg (Flt.fin_lt_fin.not.mpr h.not_gt), min_eq_left (sub_nonneg.mpr h)]
  unfold shiftOf
  rw [Flt.one_def, Flt.zero_def, hhigh]
  dsimp only
  rw [Flt.fin_add_fin, Flt.fin_sub_fin]
  rcases lt_or_ge (lo + min 0 (1 - hi)) 0 with h | h
  · rw [if_pos (Flt.fin_lt_fin.mpr h), max_eq_left (by linarith), sub_add_cancel_right, zero_sub]
  · rw [if_neg (Flt.fin_lt_fin.not.mpr h.not_gt), max_eq_right (by linarith)]

/-- The shift that `write` returns is the one of the channels it mixes. -/
theorem write_shift (thr roll pitch yaw : Flt K) :
    (write thr roll pitch yaw).2 = .fin (shiftNum (rawMix thr roll pitch yaw)) := by
  rw [write_eq, mix_eq_rawMix, desaturate_fin]
  exact shiftOf_fin _ _

/-- **Every channel is the raw mix value plus the shift, cut at 1.** -/
theorem write_mot (thr roll pitch yaw : Flt K) (i : Fin 4) :
    (write thr roll pitch yaw).1.mot i =
      .fin (min 1 (rawMix thr roll pitch yaw i + shiftNum (rawMix thr roll pitch yaw))) := by
  have hmot : (write thr roll pitch yaw).1.mot i =
      clampf (.fin (rawMix thr roll pitch yaw i) + (write thr roll pitch yaw).2) 0 1 := by
    rw [write_eq, mix_eq_rawMix, desaturate_fin]
  rw [hmot, write_shift, Flt.fin_add_fin, Flt.zero_def, Flt.one_def, clampf_num _ zero_le_one,
    max_eq_right (le_min zero_le_one (nonneg_add_shiftNum _ i))]

/-! ## The least shift -/

omit [FloatEnv K] [ExactArith K] in
/-- When the channels are spread over more than the unit interval the shift puts the lowest at zero. -/
theorem shiftNum_of_wide {m : Fin 4 → K} (h : 1 < highest m - lowest m) : shiftNum m = -lowest m := by
  unfold shiftNum
  rw [zero_sub]
  exact max_eq_left ((min_le_right _ _).trans (by linarith))

/-- **The desaturation takes the least shift.** When there is a shift that fits, the mixer takes the
smallest in size and so keeps all differences; otherwise it puts the lowest channel at zero and cuts the
others at one. -/
theorem desaturation_least (thr roll pitch yaw : Flt K) :
    let m := rawMix thr roll pitch yaw
    let w := write thr roll pitch yaw
    (highest m - lowest m ≤ 1 →
      ∃ s, IsLeastShift m 0 1 s ∧ w.2 = .fin s ∧ (∀ i, w.1.mot i = .fin (m i + s)) ∧
        ∀ i j, w.1.mot i - w.1.mot j = .fin (m i - m j)) ∧
    (1 < highest m - lowest m →
      w.2 = .fin (-lowest m) ∧ ∀ i, w.1.mot i = .fin (min 1 (m i - lowest m))) ∧
    (∀ i, 0 ≤ w.1.mot i ∧ w.1.mot i ≤ 1) ∧
    ∀ i j, m i ≤ m j → w.1.mot i ≤ w.1.mot j := by
  intro m w
  refine ⟨fun hnarrow => ?_, fun hwide => ?_, fun i => ?_, fun i j hij => ?_⟩
  · have hleast : IsLeastShift m 0 1 (shiftNum m) :=
      isLeastShift (isGreatest_highest m) (isLeast_lowest m) (by rwa [sub_zero])
    have hmot (i : Fin 4) : w.1.mot i = .fin (m i + shiftNum m) := by
      rw [← min_eq_right (hleast.fits i).2]
      exact write_mot thr roll pitch yaw i
    refine ⟨shiftNum m, hleast, write_shift thr roll pitch yaw, hmot, fun i j => ?_⟩
    rw [hmot, hmot, Flt.fin_sub_fin, add_sub_add_right_eq_sub]
  · have hshift := shiftNum_of_wide hwide
    refine ⟨?_, fun i => ?_⟩
    · rw [← hshift]
      exact write_shift thr roll pitch yaw
    · rw [sub_eq_add_neg, ← hshift]
      exact write_mot thr roll pitch yaw i
  · rw [show w.1.mot i = _ from write_mot thr roll pitch yaw i]
    exact ⟨Flt.fin_le_fin.mpr (le_min zero_le_one (nonneg_add_shiftNum m i)),
      Flt.fin_le_fin.mpr (min_le_left _ _)⟩
  · show (write thr roll pitch yaw).1.mot i ≤ (write thr roll pitch yaw).1.mot j
    rw [write_mot, write_mot, Flt.fin_le_fin]
    exact min_le_min_left 1 (add_le_add_left hij _)

/-- The mixer takes the least shift at a high throttle with a roll command and no pitch command. -/
theorem desaturation_least_high :
    ∃ s, IsLeastShift (rawMix (.fin 0.9) (.fin 0.3) .nan (0 : Flt ℚ)) 0 1 s ∧
      (write (.fin 0.9) (.fin 0.3) .nan (0 : Flt ℚ)).2 = .fin s := by
  obtain ⟨s, hleast, hshift, -⟩ :=
    (desaturation_least (.fin 0.9) (.fin 0.3) .nan (0 : Flt ℚ)).1 (by decide +kernel)
  exact ⟨s, hleast, hshift⟩

/-! ## What the shift tells -/

omit [FloatEnv K] [ExactArith K] in
/-- No shift is taken when all channels fit, and when the lowest is at zero already. -/
theorem shiftNum_eq_zero_iff (m : Fin 4 → K) :
    shiftNum m = 0 ↔ 0 ≤ lowest m ∧ (highest m ≤ 1 ∨ lowest m = 0) := by
  unfold shiftNum
  rcases le_or_gt (highest m) 1 with hhi | hhi
  · rw [min_eq_left (sub_nonneg.mpr hhi), max_eq_right_iff, sub_nonpos]
    exact ⟨fun h => ⟨h, .inl hhi⟩, And.left⟩
  · have hneg : 1 - highest m < 0 := sub_neg.mpr hhi
    rw [min_eq_right hneg.le]
    constructor
    · intro h
      rcases max_choice (0 - lowest m) (1 - highest m) with h' | h' <;> rw [h] at h'
      · have hzero : lowest m = 0 := by linarith
        exact ⟨hzero.ge, .inr hzero⟩
      · exact absurd h' hneg.ne'
    · rintro ⟨-, h | h⟩
      · exact absurd h hhi.not_ge
      · rw [h, sub_zero, max_eq_left hneg.le]

omit [IsStrictOrderedRing K] [FloatEnv K] [ExactArith K] in
/-- The channels lie in the unit interval when the highest and the lowest do. -/
theorem forall_unit_iff (m : Fin 4 → K) :
    (∀ i, 0 ≤ m i ∧ m i ≤ 1) ↔ 0 ≤ lowest m ∧ highest m ≤ 1 := by
  constructor
  · intro h
    obtain ⟨i, hi⟩ := (isLeast_lowest m).1
    obtain ⟨j, hj⟩ := (isGreatest_highest m).1
    exact ⟨hi ▸ (h i).1, hj ▸ (h j).2⟩
  · rintro ⟨hlo, hhi⟩ i
    exact ⟨hlo.trans (lowest_le m i), (le_highest m i).trans hhi⟩

end Exact

end QuadXMixer

namespace RateController
variable [FloatEnv K]

/-- What `update` gives to the mixer: throttle, roll, pitch and yaw. -/
def mixerInput (rate : RateController K) (imu : ImuSample K) (sp : RateSp K) :
    Flt K × Flt K × Flt K × Flt K :=
  (sp.throttle, (rate.stepOf 0 sp.roll (imu.gyroRps 0)).2, (rate.stepOf 1 sp.pitch (-imu.gyroRps 1)).2,
    (rate.stepOf 2 sp.yaw (imu.gyroRps 2)).2)

/-- `sat_pos`, as the next update reads it off the last shift. -/
def satPos (rate : RateController K) : Bool := decide (rate.lastShift < 0)

/-- `sat_neg`, as the next update reads it off the last shift. -/
def satNeg (rate : RateController K) : Bool := decide (0 < rate.lastShift)

/-- The conditional integration is active in the next update: every unit holds its integral against
errors to the side that is saturated. -/
def HoldsIntegrals (rate : RateController K) : Prop :=
  (∀ (i : Fin 3) (sp meas : Flt K), 0 < sp - meas → (rate.stepOf i sp meas).1.i = (rate.pids i).i) ∨
    ∀ (i : Fin 3) (sp meas : Flt K), sp - meas < 0 → (rate.stepOf i sp meas).1.i = (rate.pids i).i

/-- A unit keeps its integral where the anti-windup holds it. -/
theorem stepOf_i_of_blocks {rate : RateController K} {i : Fin 3} {sp meas : Flt K}
    (h : Pid.blocks rate.lastShift (sp - meas) = true) :
    (rate.stepOf i sp meas).1.i = (rate.pids i).i := by
  unfold stepOf
  cases hr : Pid.rejects sp meas kControlDtS with
  | true =>
      unfold Pid.step
      rw [if_pos hr]
  | false =>
      rw [Pid.step_of_accepts _ _ hr]
      exact if_pos h

/-- A saturation that the shift tells of makes the conditional integration active. -/
theorem holdsIntegrals_of_sat {rate : RateController K} (h : rate.satPos ∨ rate.satNeg) :
    rate.HoldsIntegrals := by
  have hblocks (e : Flt K) : Pid.blocks rate.lastShift e = true ↔
      rate.lastShift < 0 ∧ 0 < e ∨ 0 < rate.lastShift ∧ e < 0 := by
    simp only [Pid.blocks, Bool.or_eq_true, Bool.and_eq_true, decide_eq_true_eq]
  rcases h with h | h
  · exact .inl fun i sp meas he =>
      stepOf_i_of_blocks ((hblocks _).mpr (.inl ⟨of_decide_eq_true h, he⟩))
  · exact .inr fun i sp meas he =>
      stepOf_i_of_blocks ((hblocks _).mpr (.inr ⟨of_decide_eq_true h, he⟩))

end RateController

namespace QuadXMixer
variable [FloatEnv K]

/-- The shift reports the saturation of a command: it is zero only if the raw mix fits, and an update
that gives the command to the mixer and sees a channel changed is followed by conditional
integration. -/
def ReportsSaturation (thr roll pitch yaw : Flt K) : Prop :=
  ((write thr roll pitch yaw).2 = 0 →
    ∀ i, 0 ≤ rawMix thr roll pitch yaw i ∧ rawMix thr roll pitch yaw i ≤ 1) ∧
  ∀ (rate : RateController K) (imu : ImuSample K) (sp : RateSp K),
    rate.mixerInput imu sp = (thr, roll, pitch, yaw) →
    (∃ i, (rate.update imu sp).2.1.mot i ≠ .fin (rawMix thr roll pitch yaw i)) →
    ((rate.update imu sp).1.satPos ∨ (rate.update imu sp).1.satNeg) ∧
      (rate.update imu sp).1.HoldsIntegrals

section Exact
variable [IsStrictOrderedRing K] [ExactArith K]

/-- **The shift reports every saturation but one.** It says nothing when the lowest channel is at zero
and the highest above one: then there is nothing to push up, and what is cut at one is not in the
shift. -/
theorem reportsSaturation_iff (thr roll pitch yaw : Flt K) :
    ReportsSaturation thr roll pitch yaw ↔
      ¬ (lowest (rawMix thr roll pitch yaw) = 0 ∧ 1 < highest (rawMix thr roll pitch yaw)) := by
  have hzero : (write thr roll pitch yaw).2 = 0 ↔ shiftNum (rawMix thr roll pitch yaw) = 0 := by
    rw [write_shift, Flt.zero_def, Flt.fin.injEq]
  constructor
  · rintro ⟨hreport, -⟩ ⟨hlo, hhi⟩
    have hfit := (forall_unit_iff _).mp
      (hreport (hzero.mpr ((shiftNum_eq_zero_iff _).mpr ⟨hlo.ge, .inr hlo⟩)))
    exact hfit.2.not_gt hhi
  · intro hcond
    have hreport (hshift : shiftNum (rawMix thr roll pitch yaw) = 0) :
        ∀ i, 0 ≤ rawMix thr roll pitch yaw i ∧ rawMix thr roll pitch yaw i ≤ 1 := by
      obtain ⟨hlo, hhi | hlo'⟩ := (shiftNum_eq_zero_iff _).mp hshift
      · exact (forall_unit_iff _).mpr ⟨hlo, hhi⟩
      · exact (forall_unit_iff _).mpr ⟨hlo, not_lt.mp fun h => hcond ⟨hlo', h⟩⟩
    refine ⟨fun h => hreport (hzero.mp h), fun rate imu sp hinput ⟨i, hi⟩ => ?_⟩
    obtain ⟨hthr, hroll, hpitch, hyaw⟩ : _ ∧ _ ∧ _ ∧ _ := by simpa [RateController.mixerInput] using hinput
    have hout : (rate.update imu sp).2.1 = (write thr roll pitch yaw).1 := by
      rw [RateController.update_eq, hthr, hroll, hpitch, hyaw]
    have hlast : (rate.update imu sp).1.lastShift = .fin (shiftNum (rawMix thr roll pitch yaw)) := by
      rw [RateController.update_eq, hthr, hroll, hpitch, hyaw]
      exact write_shift thr roll pitch yaw
    have hne : shiftNum (rawMix thr roll pitch yaw) ≠ 0 := by
      intro hshift
      rw [hout, write_mot, hshift, add_zero, min_eq_right (hreport hshift i).2] at hi
      exact hi rfl
    have hsat : (rate.update imu sp).1.satPos ∨ (rate.update imu sp).1.satNeg := by
      unfold RateController.satPos RateController.satNeg
      rw [hlast, decide_eq_true_eq, decide_eq_true_eq]
      exact (lt_or_gt_of_ne hne).imp Flt.fin_lt_fin.mpr Flt.fin_lt_fin.mpr
    exact ⟨hsat, RateController.holdsIntegrals_of_sat hsat⟩

/-- A high throttle with a roll command saturates the command, and the shift that is returned says so. -/
theorem reportsSaturation_high : ReportsSaturation (.fin 0.9) (.fin 0.3) 0 (0 : Flt ℚ) := by
  have hlow : ¬ (lowest (rawMix (.fin 0.9) (.fin 0.3) 0 (0 : Flt ℚ)) = 0 ∧
      1 < highest (rawMix (.fin 0.9) (.fin 0.3) 0 (0 : Flt ℚ))) := by decide +kernel
  exact (reportsSaturation_iff (.fin 0.9) (.fin 0.3) 0 0).mpr hlow

/-- Roll and pitch alike, with the throttle that puts the lowest channel at zero: the highest is cut from
1.2 to 1, and the shift is zero. -/
theorem not_reportsSaturation :
    ¬ ∀ thr roll pitch yaw : Flt ℚ, ReportsSaturation thr roll pitch yaw := by
  intro h
  have hfit := (h (.fin 0.6) (.fin 0.3) (.fin 0.3) 0).1 (by decide +kernel) 2
  have hover : ¬ rawMix (.fin 0.6) (.fin 0.3) (.fin 0.3) (0 : Flt ℚ) 2 ≤ 1 := by decide +kernel
  exact hover hfit.2

end Exact

end QuadXMixer

end DroneMini
