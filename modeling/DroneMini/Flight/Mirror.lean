import DroneMini.Flight.Pid
import DroneMini.Lib.FltExact
import DroneMini.Lib.Run
import Mathlib.Data.Fintype.Basic
import Mathlib.Tactic.FinCases
import Mathlib.Tactic.NormNum

/-!
# The rate loop and its mirror image

A demand and the demand with roll and pitch negated, in exact arithmetic. The mixer and the clamps of a
PID unit treat both alike (`QuadXMixer.write_mirror`, `Pid.clampSym_neg`). The anti-windup does not: the
sign of the shift stands for the side a motor saturates on, not for the side of the axis, and one of the
two runs may integrate where the other holds. The runs mirror each other as long as no step lets it
choose (`rate_loop_mirror`).
-/

namespace DroneMini

variable {K : Type} [Field K] [LinearOrder K] [FloatEnv K]

/-! ## The unit -/

namespace Pid

/-- The value of the derivative filter after a step that is not rejected. -/
def dNext (pid : Pid K) (meas dt : Flt K) : Flt K :=
  pid.dFilt + (if 0 < pid.dTau then dt / (pid.dTau + dt) else 1) *
    ((if pid.hasPrev then (meas - pid.measPrev) / dt else 0) - pid.dFilt)

/-- The anti-windup holds the integral: the last shift was down and the error is positive, or it was up and
the error is negative. -/
def blocks (shift e : Flt K) : Bool :=
  (decide (shift < 0) && decide (0 < e)) || (decide (0 < shift) && decide (e < 0))

/-- The integral after a step that does not hold it. -/
def iMoved (pid : Pid K) (e dt : Flt K) : Flt K := clampSym (pid.i + pid.ki * e * dt) pid.iLimit

/-- The integral after a step: held by the anti-windup, or moved and clamped. -/
def iNext (pid : Pid K) (shift e dt : Flt K) : Flt K :=
  if blocks shift e then pid.i else pid.iMoved e dt

/-- The output of a step, made of the error, the integral and the filtered derivative, and zero when that is
not finite. -/
def outOf (pid : Pid K) (e i d : Flt K) : Flt K :=
  let out := clampSym (pid.kp * e + i + -pid.kd * d) pid.outLimit
  if out.isFinite then out else 0

/-- A step on inputs that are not rejected moves the integral, the filter and the last measurement, and
returns the output. -/
theorem step_of_accepts (pid : Pid K) (shift : Flt K) {sp meas dt : Flt K}
    (h : rejects sp meas dt = false) :
    pid.step sp meas dt (decide (shift < 0)) (decide (0 < shift)) =
      ({ pid with
          i := pid.iNext shift (sp - meas) dt
          dFilt := pid.dNext meas dt
          measPrev := meas
          hasPrev := true },
        pid.outOf (sp - meas) (pid.iNext shift (sp - meas) dt) (pid.dNext meas dt)) := by
  unfold step
  rw [if_neg (by simp [h])]
  rfl

/-- A step keeps the gains and the limits, which a reset shows alone. -/
theorem step_reset (pid : Pid K) (sp meas dt : Flt K) (satPos satNeg : Bool) :
    (pid.step sp meas dt satPos satNeg).1.reset = pid.reset := by
  unfold step
  split_ifs <;> rfl

/-- The unit of the mirror image, with integral, filter and last measurement negated. -/
def mirror (pid : Pid K) : Pid K :=
  { pid with i := -pid.i, dFilt := -pid.dFilt, measPrev := -pid.measPrev }

omit [LinearOrder K] [FloatEnv K] in
/-- A unit after a reset is its own mirror image. -/
theorem mirror_reset (pid : Pid K) : pid.reset.mirror = pid.reset := by
  unfold mirror reset
  simp only [Flt.neg_zero]

/-- The integral stands at its limit on the side of the error. -/
def AtLimit (pid : Pid K) (e : Flt K) : Prop :=
  0 < e ∧ pid.i = pid.iLimit ∨ e < 0 ∧ pid.i = -pid.iLimit

/-- The anti-windup acts alike on a demand and on its mirror image: nothing is saturated, there is no
error, or the integral can move neither way. -/
def EvenHanded (pid : Pid K) (shift sp meas : Flt K) : Prop :=
  shift = 0 ∨ sp = meas ∨ pid.AtLimit (sp - meas)

/-- What the limits and the integral gain of a unit of the rate controller have in common. -/
structure NonNeg (pid : Pid K) : Prop where
  ki : ∃ x : K, 0 ≤ x ∧ pid.ki = .fin x
  iLimit : ∃ x : K, 0 ≤ x ∧ pid.iLimit = .fin x
  outLimit : ∃ x : K, 0 ≤ x ∧ pid.outLimit = .fin x

section Exact
variable [IsStrictOrderedRing K]

omit [FloatEnv K] [IsStrictOrderedRing K] in
/-- On numbers the clamp is the minimum with the limit and the maximum with its negation. -/
theorem clampSym_fin (x l : K) : clampSym (.fin x) (.fin l) = .fin (max (min l x) (-l)) := by
  unfold clampSym
  rw [Flt.ite_lt_min]
  exact Flt.ite_lt_max (min l x) (-l)

omit [FloatEnv K] in
theorem clampSym_posInf {l : K} (hl : 0 ≤ l) : clampSym .posInf (.fin l) = .fin l := by
  have hle : ¬ l < -l := not_lt.mpr ((neg_nonpos.mpr hl).trans hl)
  have habove : (.fin l : Flt K) < .posInf := rfl
  unfold clampSym
  rw [if_pos habove, Flt.neg_fin, if_neg (Flt.fin_lt_fin.not.mpr hle)]

omit [FloatEnv K] [IsStrictOrderedRing K] in
theorem clampSym_negInf (l : K) : clampSym .negInf (.fin l) = .fin (-l) := rfl

omit [FloatEnv K] in
/-- The clamp is odd, so it commutes with the mirror image. -/
theorem clampSym_neg (v : Flt K) {l : K} (hl : 0 ≤ l) :
    clampSym (-v) (.fin l) = -clampSym v (.fin l) := by
  have hle : -l ≤ l := (neg_nonpos.mpr hl).trans hl
  cases v with
  | fin x =>
      rw [Flt.neg_fin, clampSym_fin, clampSym_fin, Flt.neg_fin, ← min_neg_neg, ← max_neg_neg, neg_neg,
        max_min_distrib_right, max_eq_left hle, min_comm, max_comm]
  | posInf => rw [Flt.neg_posInf, clampSym_negInf, clampSym_posInf hl, Flt.neg_fin]
  | negInf => rw [Flt.neg_negInf, clampSym_posInf hl, clampSym_negInf, Flt.neg_fin, neg_neg]
  | nan => rfl

omit [FloatEnv K] in
/-- A number outside the clamp on the side of the limit. -/
theorem clampSym_of_le {x l : K} (hl : 0 ≤ l) (hx : l ≤ x) : clampSym (.fin x) (.fin l) = .fin l := by
  rw [clampSym_fin, min_eq_left hx, max_eq_left ((neg_nonpos.mpr hl).trans hl)]

variable [ExactArith K]

/-- An integral that the error drives against the limit at which it is stays where it is. -/
theorem iMoved_of_atLimit {pid : Pid K} (hp : pid.NonNeg) {e dt : K} (hdt : 0 < dt)
    (h : pid.AtLimit (.fin e)) : pid.iMoved (.fin e) (.fin dt) = pid.i := by
  obtain ⟨k, hk, hki⟩ := hp.ki
  obtain ⟨l, hl, hlimit⟩ := hp.iLimit
  unfold iMoved
  rcases h with ⟨he, hi⟩ | ⟨he, hi⟩
  · have he : 0 < e := Flt.fin_lt_fin.mp he
    have hmove : l ≤ l + k * e * dt :=
      le_add_of_nonneg_right (mul_nonneg (mul_nonneg hk he.le) hdt.le)
    rw [hi, hlimit, hki, Flt.fin_mul_fin, Flt.fin_mul_fin, Flt.fin_add_fin, clampSym_of_le hl hmove]
  · have he : 0 < -e := neg_pos.mpr (Flt.fin_lt_fin.mp he)
    have hmove : l ≤ l + k * -e * dt :=
      le_add_of_nonneg_right (mul_nonneg (mul_nonneg hk he.le) hdt.le)
    have hflip : -l + k * e * dt = -(l + k * -e * dt) := by
      rw [mul_neg, neg_mul, neg_add, neg_neg]
    rw [hi, hlimit, hki, Flt.fin_mul_fin, Flt.fin_mul_fin, Flt.neg_fin, Flt.fin_add_fin, hflip,
      ← Flt.neg_fin, clampSym_neg _ hl, clampSym_of_le hl hmove, Flt.neg_fin]

/-- The integral that moves is mirrored with the error. -/
theorem iMoved_mirror {pid : Pid K} (hp : pid.NonNeg) (e dt : Flt K) :
    pid.mirror.iMoved (-e) dt = -pid.iMoved e dt := by
  obtain ⟨l, hl, hlimit⟩ := hp.iLimit
  show clampSym (-pid.i + pid.ki * -e * dt) pid.iLimit = -clampSym (pid.i + pid.ki * e * dt) pid.iLimit
  rw [Flt.mul_neg, Flt.neg_mul, ← Flt.neg_add, hlimit, clampSym_neg _ hl]

/-- The derivative filter is mirrored with the measurement. -/
theorem dNext_mirror (pid : Pid K) (meas dt : Flt K) :
    pid.mirror.dNext (-meas) dt = -pid.dNext meas dt := by
  have hd : (if pid.hasPrev then (-meas - -pid.measPrev) / dt else 0 : Flt K) =
      -(if pid.hasPrev then (meas - pid.measPrev) / dt else 0) := by
    split_ifs
    · rw [← Flt.neg_sub, Flt.neg_div]
    · rw [Flt.neg_zero]
  unfold dNext
  show -pid.dFilt + _ * ((if pid.hasPrev then (-meas - -pid.measPrev) / dt else 0) - -pid.dFilt) = _
  rw [hd, ← Flt.neg_sub, Flt.mul_neg, Flt.neg_add]
  rfl

/-- The output is mirrored with the error, the integral and the filter. -/
theorem outOf_mirror {pid : Pid K} (hp : pid.NonNeg) (e i d : Flt K) :
    pid.mirror.outOf (-e) (-i) (-d) = -pid.outOf e i d := by
  obtain ⟨l, hl, hlimit⟩ := hp.outLimit
  have hclamp : clampSym (pid.kp * -e + -i + -pid.kd * -d) pid.outLimit =
      -clampSym (pid.kp * e + i + -pid.kd * d) pid.outLimit := by
    rw [Flt.mul_neg, Flt.mul_neg, ← Flt.neg_add, ← Flt.neg_add, hlimit, clampSym_neg _ hl]
  show (if (clampSym (pid.kp * -e + -i + -pid.kd * -d) pid.outLimit).isFinite then
    clampSym (pid.kp * -e + -i + -pid.kd * -d) pid.outLimit else 0 : Flt K) = _
  rw [hclamp, Flt.isFinite_neg]
  unfold outOf
  dsimp only
  split_ifs
  · rfl
  · rw [Flt.neg_zero]

omit [FloatEnv K] [IsStrictOrderedRing K] [ExactArith K] in
/-- Without saturation or without an error the integral is not held. -/
theorem blocks_eq_false {shift e : Flt K} (h : shift = 0 ∨ e = 0) : blocks shift e = false := by
  rcases h with rfl | rfl <;> simp [blocks]

omit [FloatEnv K] [ExactArith K] in
/-- Of an error and its mirror image one is held, if there is saturation and an error. -/
theorem blocks_neg {shift e : K} (hshift : shift ≠ 0) (he : e ≠ 0) :
    blocks (.fin shift) (-.fin e : Flt K) = !blocks (.fin shift) (.fin e : Flt K) := by
  rcases lt_or_gt_of_ne hshift with hs | hs <;> rcases lt_or_gt_of_ne he with he | he <;>
    simp [blocks, hs, hs.not_gt, he, he.not_gt]

/-- Where the anti-windup treats the two directions alike the integral is mirrored. -/
theorem iNext_mirror {pid : Pid K} (hp : pid.NonNeg) {shift : Flt K} {sp meas dt : K} (hdt : 0 < dt)
    (h : pid.EvenHanded shift (.fin sp) (.fin meas)) :
    pid.mirror.iNext shift (-(.fin sp - .fin meas)) (.fin dt) =
      -pid.iNext shift (.fin sp - .fin meas) (.fin dt) := by
  unfold iNext
  rw [iMoved_mirror hp]
  have hfree (hsame : shift = 0 ∨ sp = meas) : blocks shift (.fin sp - .fin meas : Flt K) = false ∧
      blocks shift (-(.fin sp - .fin meas) : Flt K) = false := by
    rcases hsame with rfl | rfl
    · exact ⟨blocks_eq_false (.inl rfl), blocks_eq_false (.inl rfl)⟩
    · rw [Flt.fin_sub_fin, sub_self]
      exact ⟨blocks_eq_false (.inr rfl), blocks_eq_false (.inr Flt.neg_zero)⟩
  rcases h with h | h | h
  · rw [(hfree (.inl h)).1, (hfree (.inl h)).2]
    rfl
  · have h : sp = meas := Flt.fin.inj h
    rw [(hfree (.inr h)).1, (hfree (.inr h)).2]
    rfl
  · rw [Flt.fin_sub_fin] at h ⊢
    rw [iMoved_of_atLimit hp hdt h]
    show (if _ then -pid.i else -pid.i) = -(if _ then pid.i else pid.i)
    rw [ite_self, ite_self]

/-- An integral that stays where it is, although there is an error, is at its limit. -/
theorem atLimit_of_iMoved {pid : Pid K} {k x l e dt : K} (hk : 0 < k) (hki : pid.ki = .fin k)
    (hx : pid.i = .fin x) (hl : pid.iLimit = .fin l) (hrange : -l ≤ x ∧ x ≤ l) (hdt : 0 < dt)
    (he : e ≠ 0) (h : pid.iMoved (.fin e) (.fin dt) = pid.i) : pid.AtLimit (.fin e) := by
  unfold iMoved at h
  rw [hx, hl, hki, Flt.fin_mul_fin, Flt.fin_mul_fin, Flt.fin_add_fin, clampSym_fin] at h
  have h : max (min l (x + k * e * dt)) (-l) = x := Flt.fin.inj h
  unfold AtLimit
  rw [hx, hl, Flt.neg_fin]
  rcases lt_or_gt_of_ne he with he | he
  · have hdown : x + k * e * dt < x :=
      add_lt_of_neg_right x (mul_neg_of_neg_of_pos (mul_neg_of_pos_of_neg hk he) hdt)
    have hend : ¬ -l < x := fun hlt => ((max_lt (min_lt_of_right_lt hdown) hlt).trans_eq h.symm).false
    exact .inr ⟨Flt.fin_lt_fin.mpr he, congrArg _ (le_antisymm (not_lt.mp hend) hrange.1)⟩
  · have hup : x < x + k * e * dt := lt_add_of_pos_right x (mul_pos (mul_pos hk he) hdt)
    have hend : ¬ x < l := fun hlt =>
      (h.trans_lt ((lt_min hlt hup).trans_le (le_max_left _ _))).false
    exact .inl ⟨Flt.fin_lt_fin.mpr he, congrArg _ (le_antisymm hrange.2 (not_lt.mp hend))⟩

/-- Only there: on a side the anti-windup can choose, one of the two integrals moves and the other does
not. -/
theorem evenHanded_of_iNext_mirror {pid : Pid K} (hp : pid.NonNeg) {k x l shift sp meas dt : K}
    (hk : 0 < k) (hki : pid.ki = .fin k) (hx : pid.i = .fin x) (hl : pid.iLimit = .fin l)
    (hrange : -l ≤ x ∧ x ≤ l) (hdt : 0 < dt)
    (h : pid.mirror.iNext (.fin shift) (-(.fin sp - .fin meas)) (.fin dt) =
      -pid.iNext (.fin shift) (.fin sp - .fin meas) (.fin dt)) :
    pid.EvenHanded (.fin shift) (.fin sp) (.fin meas) := by
  rcases eq_or_ne shift 0 with rfl | hshift
  · exact .inl rfl
  rcases eq_or_ne sp meas with rfl | hne
  · exact .inr (.inl rfl)
  have he : sp - meas ≠ 0 := sub_ne_zero.mpr hne
  rw [Flt.fin_sub_fin] at h
  unfold iNext at h
  rw [blocks_neg hshift he, iMoved_mirror hp] at h
  have hstay : pid.iMoved (.fin (sp - meas)) (.fin dt) = pid.i := by
    cases hb : blocks (.fin shift) (.fin (sp - meas) : Flt K) with
    | true =>
        rw [hb] at h
        exact Flt.neg_inj.mp h
    | false =>
        rw [hb] at h
        exact (Flt.neg_inj.mp h).symm
  refine .inr (.inr ?_)
  rw [Flt.fin_sub_fin]
  exact atLimit_of_iMoved hk hki hx hl hrange hdt he hstay

/-- Where the anti-windup is even-handed a step of the mirror image is the mirror image of the step. -/
theorem step_mirror {pid : Pid K} (hp : pid.NonNeg) {shift sp meas : Flt K} {dt : K} (hdt : 0 < dt)
    (h : pid.EvenHanded shift sp meas) :
    pid.mirror.step (-sp) (-meas) (.fin dt) (decide (shift < 0)) (decide (0 < shift)) =
      ((pid.step sp meas (.fin dt) (decide (shift < 0)) (decide (0 < shift))).1.mirror,
        -(pid.step sp meas (.fin dt) (decide (shift < 0)) (decide (0 < shift))).2) := by
  have hsame : rejects (-sp) (-meas) (.fin dt) = rejects sp meas (.fin dt) := by
    unfold rejects
    rw [Flt.isFinite_neg, Flt.isFinite_neg]
  cases hr : rejects sp meas (.fin dt) with
  | true =>
      unfold step
      rw [if_pos (hsame.trans hr), if_pos hr, Flt.neg_zero]
  | false =>
      have hfin := hr
      simp only [rejects, Bool.or_eq_false_iff, Bool.not_eq_false'] at hfin
      obtain ⟨s, rfl⟩ := Flt.eq_fin_of_isFinite hfin.1.1
      obtain ⟨m, rfl⟩ := Flt.eq_fin_of_isFinite hfin.1.2
      rw [step_of_accepts pid _ hr, step_of_accepts pid.mirror _ (hsame.trans hr), ← Flt.neg_sub,
        iNext_mirror hp hdt h, dNext_mirror, outOf_mirror hp]
      rfl

end Exact

end Pid

/-! ## The mixer -/

namespace QuadXMixer

/-- The four channels that `write` mixes from the throttle and the three commands, before the desaturation. -/
def mix (t r p y : Flt K) : Fin 4 → Flt K :=
  ![t - r + p - y, t - r - p + y, t + r + p + y, t + r - p - y]

/-- What `write` does, with its clamped inputs and its channels named. -/
theorem write_eq (thr roll pitch yaw : Flt K) :
    write thr roll pitch yaw =
      let m := desaturate
        (mix (clampf thr 0 1) (clampf roll (-1) 1) (clampf pitch (-1) 1) (clampf yaw (-1) 1))
      (⟨fun i => clampf (m.1 i) 0 1⟩, m.2) := rfl

omit [LinearOrder K] in
/-- Negating the roll and the pitch command turns the four channels round. -/
theorem mix_neg (t r p y : Flt K) : mix t (-r) (-p) y = fun i => mix t r p y i.rev := by
  funext i
  fin_cases i
  · show t - -r + -p - y = t + r - p - y
    rw [Flt.sub_neg]
    rfl
  · show t - -r - -p + y = t + r + p + y
    rw [Flt.sub_neg, Flt.sub_neg]
  · rfl
  · show t + -r - -p - y = t - r + p - y
    rw [Flt.sub_neg]
    rfl

/-- The shift of `desaturate` for the highest and the lowest channel. -/
def shiftOf (hi lo : Flt K) : Flt K :=
  let shift : Flt K := if 1 < hi then 0 - (hi - 1) else 0
  if lo + shift < 0 then shift - (lo + shift) else shift

/-- The shift is that of the largest and the smallest of the four channels. -/
theorem desaturate_fin (x : Fin 4 → K) :
    desaturate (fun i => .fin (x i)) =
      let shift := shiftOf (.fin (max (max (max (x 0) (x 1)) (x 2)) (x 3)))
        (.fin (min (x 3) (min (x 2) (min (x 1) (x 0)))))
      (fun i => .fin (x i) + shift, shift) := by
  unfold desaturate
  simp only [List.foldl_cons, List.foldl_nil, decide_eq_true_eq, Flt.ite_lt_max, Flt.ite_lt_min]
  rfl

/-- Turning the four channels round turns the desaturated channels round and keeps the shift. -/
theorem desaturate_rev (x : Fin 4 → K) :
    desaturate (fun i => .fin (x i.rev)) =
      (fun i => (desaturate fun i => .fin (x i)).1 i.rev, (desaturate fun i => .fin (x i)).2) := by
  have hhi : max (max (max (x (Fin.rev 0)) (x (Fin.rev 1))) (x (Fin.rev 2))) (x (Fin.rev 3)) =
      max (max (max (x 0) (x 1)) (x 2)) (x 3) := by
    show max (max (max (x 3) (x 2)) (x 1)) (x 0) = _
    ac_rfl
  have hlo : min (x (Fin.rev 3)) (min (x (Fin.rev 2)) (min (x (Fin.rev 1)) (x (Fin.rev 0)))) =
      min (x 3) (min (x 2) (min (x 1) (x 0))) := by
    show min (x 0) (min (x 1) (min (x 2) (x 3))) = _
    ac_rfl
  rw [desaturate_fin, desaturate_fin, hhi, hlo]

omit [FloatEnv K] in
/-- What a clamp with two numbers as bounds returns is a number. -/
theorem clampf_eq_fin (v : Flt K) (lo hi : K) : ∃ x, clampf v (.fin lo) (.fin hi) = .fin x := by
  unfold clampf
  split_ifs with hv hlo hhi
  · exact ⟨0, rfl⟩
  · exact ⟨lo, rfl⟩
  · exact ⟨hi, rfl⟩
  · exact Flt.eq_fin_of_isFinite (Bool.not_eq_false _ ▸ hv)

section Exact
variable [IsStrictOrderedRing K]

omit [FloatEnv K] in
/-- On a number the clamp to one is the symmetric clamp of the unit. -/
theorem clampf_fin (x : K) : clampf (.fin x) (-1) 1 = Pid.clampSym (.fin x) 1 := by
  have hone : (-1 : K) ≤ 1 := (neg_nonpos.mpr zero_le_one).trans zero_le_one
  rw [Flt.one_def, Flt.neg_fin, Pid.clampSym_fin]
  unfold clampf
  rw [if_neg (by simp)]
  rcases lt_or_ge x (-1) with h | h
  · rw [if_pos (Flt.fin_lt_fin.mpr h), min_eq_right (h.le.trans hone), max_eq_right h.le]
  · rw [if_neg (Flt.fin_lt_fin.not.mpr h.not_gt), Flt.ite_lt_min, max_eq_left (le_min hone h)]

omit [FloatEnv K] in
/-- The clamp of a command to one is odd, also on values that are not finite. -/
theorem clampf_neg (v : Flt K) : clampf (-v) (-1) 1 = -clampf v (-1) 1 := by
  cases v with
  | fin x =>
      rw [Flt.neg_fin, clampf_fin, clampf_fin, ← Flt.neg_fin, Flt.one_def,
        Pid.clampSym_neg _ zero_le_one]
  | posInf | negInf | nan =>
      exact Flt.neg_zero.symm

variable [ExactArith K]

omit [LinearOrder K] [IsStrictOrderedRing K] in
/-- On commands that are numbers the channels are numbers. -/
theorem mix_fin (t r p y : K) :
    ∃ x : Fin 4 → K, mix (.fin t) (.fin r) (.fin p) (.fin y) = fun i => .fin (x i) := by
  refine ⟨![t - r + p - y, t - r - p + y, t + r + p + y, t + r - p - y], ?_⟩
  funext i
  fin_cases i <;> simp [mix]

/-- The mixer on a mirrored demand: the same shift, and the motors turned round. -/
theorem write_mirror (thr roll pitch yaw : Flt K) :
    write thr (-roll) (-pitch) yaw =
      (⟨fun i => (write thr roll pitch yaw).1.mot i.rev⟩, (write thr roll pitch yaw).2) := by
  obtain ⟨t, ht⟩ := clampf_eq_fin thr 0 1
  obtain ⟨r, hr⟩ := clampf_eq_fin roll (-1) 1
  obtain ⟨p, hp⟩ := clampf_eq_fin pitch (-1) 1
  obtain ⟨y, hy⟩ := clampf_eq_fin yaw (-1) 1
  obtain ⟨x, hx⟩ := mix_fin t r p y
  have hmix : mix (clampf thr 0 1) (clampf roll (-1) 1) (clampf pitch (-1) 1) (clampf yaw (-1) 1) =
      fun i => .fin (x i) := by
    rw [← hx, ← ht, ← hr, ← hp, ← hy]
    rfl
  rw [write_eq, write_eq, clampf_neg, clampf_neg, mix_neg, hmix, desaturate_rev]

end Exact

end QuadXMixer

/-! ## The controller -/

/-- The sample of the mirror image, with the roll and the pitch rate negated. -/
def ImuSample.mirror (imu : ImuSample K) : ImuSample K :=
  { imu with gyroRps := ![-imu.gyroRps 0, -imu.gyroRps 1, imu.gyroRps 2] }

/-- The demand of the mirror image, with the roll and the pitch rate negated. -/
def RateSp.mirror (sp : RateSp K) : RateSp K := { sp with roll := -sp.roll, pitch := -sp.pitch }

namespace RateController

/-- The rate controller of the mirror image: roll and pitch unit mirrored, the yaw unit and the last shift as
they are. -/
def mirror (rate : RateController K) : RateController K :=
  ⟨![(rate.pids 0).mirror, (rate.pids 1).mirror, rate.pids 2], rate.lastShift⟩

/-- The anti-windup acts alike on a demand and on its mirror image, on both axes. -/
structure EvenHanded (rate : RateController K) (imu : ImuSample K) (sp : RateSp K) : Prop where
  roll : (rate.pids 0).EvenHanded rate.lastShift sp.roll (imu.gyroRps 0)
  pitch : (rate.pids 1).EvenHanded rate.lastShift sp.pitch (-imu.gyroRps 1)

/-- The step that `update` takes with one of its units, under the shift of the last command. -/
def stepOf (rate : RateController K) (i : Fin 3) (sp meas : Flt K) : Pid K × Flt K :=
  (rate.pids i).step sp meas kControlDtS (decide (rate.lastShift < 0)) (decide (0 < rate.lastShift))

/-- What `update` does, with the steps of the three units named. -/
theorem update_eq (rate : RateController K) (imu : ImuSample K) (sp : RateSp K) :
    rate.update imu sp =
      (⟨![(rate.stepOf 0 sp.roll (imu.gyroRps 0)).1, (rate.stepOf 1 sp.pitch (-imu.gyroRps 1)).1,
          (rate.stepOf 2 sp.yaw (imu.gyroRps 2)).1],
        (QuadXMixer.write sp.throttle (rate.stepOf 0 sp.roll (imu.gyroRps 0)).2
          (rate.stepOf 1 sp.pitch (-imu.gyroRps 1)).2 (rate.stepOf 2 sp.yaw (imu.gyroRps 2)).2).2⟩,
        QuadXMixer.write sp.throttle (rate.stepOf 0 sp.roll (imu.gyroRps 0)).2
          (rate.stepOf 1 sp.pitch (-imu.gyroRps 1)).2 (rate.stepOf 2 sp.yaw (imu.gyroRps 2)).2) := rfl

/-- An update keeps the gains and the limits of the units. -/
theorem update_reset (rate : RateController K) (imu : ImuSample K) (sp : RateSp K) :
    (rate.update imu sp).1.reset = rate.reset := by
  unfold update reset
  simp only [mk.injEq, and_true]
  funext i
  fin_cases i
  · exact Pid.step_reset ..
  · exact Pid.step_reset ..
  · exact Pid.step_reset ..

omit [LinearOrder K] [FloatEnv K] in
/-- A controller after a reset is its own mirror image. -/
theorem mirror_reset (rate : RateController K) : rate.reset.mirror = rate.reset := by
  unfold mirror reset
  simp only [Pid.mirror_reset, mk.injEq, and_true]
  funext i
  fin_cases i <;> rfl

/-- `update` as the step of a transition system, whose inputs are a sample and a demand and whose output is
the command with its shift. -/
def updateStep (rate : RateController K) (i : ImuSample K × RateSp K) (rate' : RateController K)
    (o : PwmCmd K × Flt K) : Prop :=
  rate.update i.1 i.2 = (rate', o)

/-- One update of a run, as an event. -/
abbrev Update (K : Type) := Event (RateController K) (ImuSample K × RateSp K) (PwmCmd K × Flt K)

/-- The same shift, and the motors turned round: 0 and 3 change places, 1 and 2 do. -/
def Turned (out out' : PwmCmd K × Flt K) : Prop :=
  out'.2 = out.2 ∧ ∀ i : Fin 4, out'.1.mot i = out.1.mot i.rev

section Exact
variable [IsStrictOrderedRing K] [ExactArith K]

/-- The gains and limits of a new controller are not negative. -/
theorem nonNeg_new (i : Fin 3) : ((new : RateController K).pids i).NonNeg where
  ki := by
    fin_cases i
    · exact Flt.lit_nonneg (by norm_num)
    · exact Flt.lit_nonneg (by norm_num)
    · exact Flt.lit_nonneg (by norm_num)
  iLimit := Flt.lit_nonneg (by norm_num)
  outLimit := Flt.lit_nonneg (by norm_num)

/-- The units of a controller with the gains of a new one. -/
theorem nonNeg_of_reset {rate : RateController K} (h : rate.reset = new) (i : Fin 3) :
    (rate.pids i).NonNeg := by
  have hi : (rate.pids i).reset = (new : RateController K).pids i := congrFun (congrArg pids h) i
  have hnew := nonNeg_new (K := K) i
  rw [← hi] at hnew
  exact ⟨hnew.ki, hnew.iLimit, hnew.outLimit⟩

/-- Where the anti-windup is even-handed a step of a mirrored unit is the mirror image of the step. -/
theorem stepOf_mirror {rate : RateController K} (hrate : rate.reset = new) {i : Fin 3}
    (hi : rate.mirror.pids i = (rate.pids i).mirror) {sp meas : Flt K}
    (h : (rate.pids i).EvenHanded rate.lastShift sp meas) :
    rate.mirror.stepOf i (-sp) (-meas) =
      ((rate.stepOf i sp meas).1.mirror, -(rate.stepOf i sp meas).2) := by
  have hdt : (kControlDtS : Flt K) = .fin ((0.001 : ℚ) : K) := Flt.lit_eq _
  have hpos : 0 < ((0.001 : ℚ) : K) := Rat.cast_pos.mpr (by norm_num)
  unfold stepOf
  rw [hi, hdt]
  exact Pid.step_mirror (nonNeg_of_reset hrate i) hpos h

/-- Where the anti-windup is even-handed the controller on a mirrored demand does the mirror image of
what it does on the demand. -/
theorem update_mirror {rate : RateController K} (hrate : rate.reset = new) {imu : ImuSample K}
    {sp : RateSp K} (h : rate.EvenHanded imu sp) :
    rate.mirror.update imu.mirror sp.mirror =
      ((rate.update imu sp).1.mirror, ⟨fun i => (rate.update imu sp).2.1.mot i.rev⟩,
        (rate.update imu sp).2.2) := by
  have hroll : rate.mirror.stepOf 0 sp.mirror.roll (imu.mirror.gyroRps 0) = _ :=
    stepOf_mirror hrate rfl h.roll
  have hpitch : rate.mirror.stepOf 1 sp.mirror.pitch (-imu.mirror.gyroRps 1) = _ :=
    stepOf_mirror hrate rfl h.pitch
  have hyaw : rate.mirror.stepOf 2 sp.mirror.yaw (imu.mirror.gyroRps 2) =
      rate.stepOf 2 sp.yaw (imu.gyroRps 2) := rfl
  have hthrottle : sp.mirror.throttle = sp.throttle := rfl
  rw [update_eq, update_eq, hroll, hpitch, hyaw, hthrottle, QuadXMixer.write_mirror]
  rfl

/-- A pair of steps from a controller and its mirror image, where the anti-windup is even-handed. -/
theorem updateStep_mirror {rate a b : RateController K} {i : ImuSample K × RateSp K}
    {o o' : PwmCmd K × Flt K} (hrate : rate.reset = new) (h : rate.EvenHanded i.1 i.2)
    (hs : updateStep rate i a o) (hs' : updateStep rate.mirror (i.1.mirror, i.2.mirror) b o') :
    a.reset = new ∧ b = a.mirror ∧ Turned o o' := by
  have hkept := update_reset rate i.1 i.2
  unfold updateStep at hs hs'
  rw [update_mirror hrate h, hs] at hs'
  rw [hs] at hkept
  obtain ⟨hpost, hout⟩ := Prod.mk.inj hs'
  refine ⟨hkept.trans hrate, hpost.symm, ?_⟩
  rw [← hout]
  exact ⟨rfl, fun _ => rfl⟩

/-- Two runs from reset, the second on the mirror image of the inputs of the first: the shifts are the
same and the motors are turned round, at every step, as long as the anti-windup of the first run has no
side to choose. -/
theorem rate_loop_mirror {ps : List (Update K × Update K)} {t t' : RateController K}
    (h : Run updateStep new (ps.map Prod.fst) t) (h' : Run updateStep new (ps.map Prod.snd) t')
    (hinp : ∀ p ∈ ps, p.2.inp = (p.1.inp.1.mirror, p.1.inp.2.mirror))
    (heven : ∀ p ∈ ps, p.1.pre.EvenHanded p.1.inp.1 p.1.inp.2) :
    ∀ p ∈ ps, Turned p.1.out p.2.out := by
  have hstart : (new : RateController K).reset = new ∧ (new : RateController K) = mirror new :=
    ⟨rfl, (mirror_reset new).symm⟩
  have hpair := h.pair h' (P := fun a b => a.reset = new ∧ b = a.mirror) hstart
    fun p hp ⟨hgains, hpre⟩ hs hs' => by
      rw [hinp p hp, hpre] at hs'
      obtain ⟨hkept, hpost, -⟩ := updateStep_mirror hgains (heven p hp) hs hs'
      exact ⟨hkept, hpost⟩
  intro p hp
  obtain ⟨hgains, hpre⟩ := (hpair.2 p hp).1
  have hs := h.step_of_mem (List.mem_map_of_mem hp)
  have hs' := h'.step_of_mem (List.mem_map_of_mem hp)
  rw [hinp p hp, hpre] at hs'
  exact (updateStep_mirror hgains (heven p hp) hs hs').2.2

end Exact

/-- A sample of a craft that turns about its roll axis. -/
def rolling (rate : ℚ) : ImuSample ℚ where
  gyroRps := ![.fin rate, 0, 0]
  accelMps2 := ![0, 0, .fin (-9.81)]
  magUT := ![0, 0, 0]
  tempC := 0
  tUs := 0
  valid := true

/-- A demand for a roll rate, without throttle. -/
def rollDemand (rate : ℚ) : RateSp ℚ := ⟨.fin rate, 0, 0, 0⟩

/-- One update of a controller on some input, as an event. -/
def updateEvent (rate : RateController ℚ) (i : ImuSample ℚ × RateSp ℚ) : Update ℚ :=
  ⟨rate, i, (rate.update i.1 i.2).1, (rate.update i.1 i.2).2⟩

/-- A roll demand that is met at the second step: both controllers have answered the first demand, and their
commands mirror each other. -/
theorem rate_loop_mirror_met :
    let e := updateEvent new (rolling 0, rollDemand 1)
    let e' := updateEvent new ((rolling 0).mirror, (rollDemand 1).mirror)
    Turned (updateEvent e.post (rolling 1, rollDemand 1)).out
      (updateEvent e'.post ((rolling 1).mirror, (rollDemand 1).mirror)).out := by
  intro e e'
  let f := updateEvent e.post (rolling 1, rollDemand 1)
  let f' := updateEvent e'.post ((rolling 1).mirror, (rollDemand 1).mirror)
  have hrun : Run updateStep new ([(e, e'), (f, f')].map Prod.fst) f.post :=
    .snoc (.snoc (.nil _) rfl) rfl
  have hrun' : Run updateStep new ([(e, e'), (f, f')].map Prod.snd) f'.post :=
    .snoc (.snoc (.nil _) rfl) rfl
  refine rate_loop_mirror hrun hrun' ?_ ?_ (f, f') (by simp)
  · simp only [List.forall_mem_cons]
    exact ⟨rfl, rfl, by simp⟩
  · simp only [List.forall_mem_cons]
    exact ⟨⟨.inl rfl, .inl rfl⟩, ⟨.inr (.inl rfl), .inr (.inl rfl)⟩, by simp⟩

/-- The rates that are measured and demanded are numbers. -/
structure FiniteInput (i : ImuSample K × RateSp K) : Prop where
  gyro : ∀ k, (i.1.gyroRps k).isFinite
  roll : i.2.roll.isFinite
  pitch : i.2.pitch.isFinite
  yaw : i.2.yaw.isFinite
  throttle : i.2.throttle.isFinite

/-- Two steps of a roll demand on the ground: the shift pushes the motors up, which holds the integral of
the negative demand only. -/
theorem rate_loop_lopsided :
    ¬ ∀ (ps : List (Update ℚ × Update ℚ)) (t t' : RateController ℚ),
      Run updateStep new (ps.map Prod.fst) t → Run updateStep new (ps.map Prod.snd) t' →
      (∀ p ∈ ps, FiniteInput p.1.inp) →
      (∀ p ∈ ps, p.2.inp = (p.1.inp.1.mirror, p.1.inp.2.mirror)) →
      ∀ p ∈ ps, Turned p.1.out p.2.out := by
  intro h
  let e := updateEvent new (rolling 0, rollDemand 1)
  let e' := updateEvent new ((rolling 0).mirror, (rollDemand 1).mirror)
  let f := updateEvent e.post (rolling 0, rollDemand 1)
  let f' := updateEvent e'.post ((rolling 0).mirror, (rollDemand 1).mirror)
  have hrun : Run updateStep new ([(e, e'), (f, f')].map Prod.fst) f.post :=
    .snoc (.snoc (.nil _) rfl) rfl
  have hrun' : Run updateStep new ([(e, e'), (f, f')].map Prod.snd) f'.post :=
    .snoc (.snoc (.nil _) rfl) rfl
  have hfin : FiniteInput (rolling 0, rollDemand 1) := by
    refine ⟨fun k => ?_, rfl, rfl, rfl, rfl⟩
    fin_cases k <;> rfl
  have hturned := h _ _ _ hrun hrun' ?_ ?_ (f, f') (by simp)
  · have hshift : f'.out.2 ≠ f.out.2 := by decide +kernel
    exact hshift hturned.1
  · simp only [List.forall_mem_cons]
    exact ⟨hfin, hfin, by simp⟩
  · simp only [List.forall_mem_cons]
    exact ⟨rfl, rfl, by simp⟩

end RateController

end DroneMini
