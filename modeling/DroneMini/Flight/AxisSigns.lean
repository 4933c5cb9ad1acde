import DroneMini.Flight.Desaturate
import Mathlib.Data.Sign.Basic
import Mathlib.Tactic.Ring

/-!
# The signs of the axes

Whether the differential that the mixer makes of the command of an axis has the sign of the command. A
common shift keeps the differentials, the clip at one does not: with three commands at once it can turn
the weakest axis round (`axes_kept_iff`). Seen from the lowest channel all four corners look alike, so
the question is settled once (`corner_kept_iff`).
-/

namespace DroneMini

variable {K : Type} [Field K] [LinearOrder K]

namespace QuadXMixer

/-- The sign table of the header: roll, pitch and yaw over the four motors. -/
def signTable : Fin 3 → Fin 4 → K
  | 0 => ![-1, -1, 1, 1]
  | 1 => ![1, -1, 1, -1]
  | 2 => ![-1, 1, 1, -1]

omit [LinearOrder K] in
/-- Every entry of the sign table is one or minus one. -/
theorem signTable_eq_or (axis : Fin 3) (i : Fin 4) :
    signTable axis i = (1 : K) ∨ signTable axis i = (-1 : K) := by
  match axis, i with
  | 0, 2 | 0, 3 | 1, 0 | 1, 2 | 2, 1 | 2, 2 => exact .inl rfl
  | 0, 0 | 0, 1 | 1, 1 | 1, 3 | 2, 0 | 2, 3 => exact .inr rfl

omit [LinearOrder K] in
/-- Turned round, the three signs of a motor multiply to minus one. -/
theorem signTable_column (i : Fin 4) :
    -signTable (K := K) 0 i * -signTable 1 i * -signTable 2 i = -1 := by
  match i with
  | 0 | 1 | 2 | 3 => simp [signTable]

/-- The duty differential of an axis, with the signs of the table. -/
def differential (axis : Fin 3) (out : PwmCmd K) : K :=
  signTable axis 0 * (out.mot 0).num + signTable axis 1 * (out.mot 1).num +
    signTable axis 2 * (out.mot 2).num + signTable axis 3 * (out.mot 3).num

omit [LinearOrder K] in
theorem differential_roll (out : PwmCmd K) :
    differential 0 out = -(out.mot 0).num - (out.mot 1).num + (out.mot 2).num + (out.mot 3).num := by
  show -1 * _ + -1 * _ + 1 * _ + 1 * _ = _
  ring

omit [LinearOrder K] in
theorem differential_pitch (out : PwmCmd K) :
    differential 1 out = (out.mot 0).num - (out.mot 1).num + (out.mot 2).num - (out.mot 3).num := by
  show 1 * _ + -1 * _ + 1 * _ + -1 * _ = _
  ring

omit [LinearOrder K] in
theorem differential_yaw (out : PwmCmd K) :
    differential 2 out = -(out.mot 0).num + (out.mot 1).num + (out.mot 2).num - (out.mot 3).num := by
  show -1 * _ + 1 * _ + 1 * _ + -1 * _ = _
  ring

/-- A differential is zero or has the sign of the command. -/
def Agrees (d x : K) : Prop := d = 0 ∨ SignType.sign d = SignType.sign x

instance (d x : K) : Decidable (Agrees d x) :=
  inferInstanceAs (Decidable (d = 0 ∨ SignType.sign d = SignType.sign x))

/-- A differential agrees with a positive command when it is not negative. -/
theorem agrees_of_pos {d x : K} (hx : 0 < x) : Agrees d x ↔ 0 ≤ d := by
  unfold Agrees
  rw [sign_pos hx, sign_eq_one_iff, le_iff_eq_or_lt, eq_comm]

/-- A differential agrees with a negative command when it is not positive. -/
theorem agrees_of_neg {d x : K} (hx : x < 0) : Agrees d x ↔ d ≤ 0 := by
  unfold Agrees
  rw [sign_neg hx, sign_eq_neg_one_iff, le_iff_eq_or_lt]

/-- A differential agrees with an axis that is not commanded only when it is zero. -/
theorem agrees_zero {d : K} : Agrees d 0 ↔ d = 0 := by
  unfold Agrees
  rw [sign_zero, sign_eq_zero_iff, or_self]

section Ordered
variable [IsStrictOrderedRing K]

theorem agrees_neg {d x : K} : Agrees (-d) (-x) ↔ Agrees d x := by
  unfold Agrees
  rw [neg_eq_zero, Left.sign_neg, Left.sign_neg, neg_inj]

/-! ## One corner -/

/-- The differential of an axis, seen from the lowest channel: of the other three channels two are
raised by the command `a` and one is not. -/
def seen (a b c : K) : K := min 1 (2 * (a + b)) + min 1 (2 * (a + c)) - min 1 (2 * (b + c))

/-- The differential of an axis is never turned round by a command that is positive and raises the other
channels above the lowest. -/
theorem seen_nonneg {a b c : K} (ha : 0 ≤ a) (hab : 0 ≤ a + b) (hac : 0 ≤ a + c) : 0 ≤ seen a b c := by
  unfold seen
  rcases le_total 1 (2 * (a + b)) with h | h
  · have hother : 0 ≤ min 1 (2 * (a + c)) := le_min zero_le_one (by linarith)
    have hmiss : min 1 (2 * (b + c)) ≤ 1 := min_le_left _ _
    rw [min_eq_left h]
    linarith
  · rw [min_eq_right h]
    rcases le_total 1 (2 * (a + c)) with h' | h'
    · have hmiss : min 1 (2 * (b + c)) ≤ 1 := min_le_left _ _
      rw [min_eq_left h']
      linarith
    · have hmiss : min 1 (2 * (b + c)) ≤ 2 * (b + c) := min_le_right _ _
      rw [min_eq_right h']
      linarith

/-- With a command that is not positive, the two channels that share it are not cut, and only the third one
can be. -/
theorem seen_of_nonpos {a b c : K} (ha : a ≤ 0) (hb : b ≤ 2 / 5) (hc : c ≤ 2 / 5) :
    seen a b c = 4 * a + max (2 * (b + c) - 1) 0 := by
  unfold seen
  rw [min_eq_right (by linarith : 2 * (a + b) ≤ 1), min_eq_right (by linarith : 2 * (a + c) ≤ 1)]
  rcases le_total 1 (2 * (b + c)) with h | h
  · rw [min_eq_left h, max_eq_left (sub_nonneg.mpr h)]
    linarith
  · rw [min_eq_right h, max_eq_right (sub_nonpos.mpr h)]
    linarith

/-- The sign of one axis, seen from the lowest channel. -/
theorem agrees_seen_iff {a b c : K} (hab : 0 ≤ a + b) (hac : 0 ≤ a + c) (hb : b ≤ 2 / 5)
    (hc : c ≤ 2 / 5) : Agrees (seen a b c) a ↔ 0 < a ∨ 4 * a + 2 * (b + c) ≤ 1 := by
  rcases lt_trichotomy a 0 with ha | rfl | ha
  · rw [agrees_of_neg ha, seen_of_nonpos ha.le hb hc, or_iff_right ha.not_gt]
    constructor
    · intro h
      have hcut := le_max_left (2 * (b + c) - 1) 0
      linarith
    · intro h
      have hcut : max (2 * (b + c) - 1) 0 ≤ -(4 * a) := max_le (by linarith) (by linarith)
      linarith
  · rw [agrees_zero, seen_of_nonpos le_rfl hb hc, or_iff_right (lt_irrefl 0), mul_zero, zero_add,
      max_eq_right_iff, zero_add, sub_nonpos]
  · rw [agrees_of_pos ha]
    exact iff_of_true (seen_nonneg ha.le hab hac) (.inl ha)

/-- The weakest command is not outweighed by what is cut. -/
def Balanced (x y z : K) : Prop := 2 * (|x| + |y| + |z|) ≤ 1 + 6 * min (min |x| |y|) |z|

/-- The conditions of the three axes together, when the third command is the weakest of them. -/
theorem axes_seen_iff {a b c : K} (hac : 0 ≤ a + c) (hbc : 0 ≤ b + c) (ha : a ≤ 2 / 5) (hb : b ≤ 2 / 5)
    (hca : c ≤ a) (hcb : c ≤ b) :
    ((0 < a ∨ 4 * a + 2 * (b + c) ≤ 1) ∧ (0 < b ∨ 4 * b + 2 * (c + a) ≤ 1) ∧
      (0 < c ∨ 4 * c + 2 * (a + b) ≤ 1)) ↔ 0 < a * b * c ∨ Balanced a b c := by
  rcases lt_or_ge 0 c with hc | hc
  · have ha' : 0 < a := hc.trans_le hca
    have hb' : 0 < b := hc.trans_le hcb
    exact iff_of_true ⟨.inl ha', .inl hb', .inl hc⟩ (.inl (mul_pos (mul_pos ha' hb') hc))
  · have ha0 : 0 ≤ a := by linarith
    have hb0 : 0 ≤ b := by linarith
    have hprod : ¬ 0 < a * b * c := (mul_nonpos_of_nonneg_of_nonpos (mul_nonneg ha0 hb0) hc).not_gt
    -- an axis that is not the weakest and not commanded leaves two axes, and one of them is weakest
    have hfirst : 0 < a ∨ 4 * a + 2 * (b + c) ≤ 1 := by
      rcases ha0.lt_or_eq with h | h
      · exact .inl h
      · exact .inr (by linarith)
    have hsecond : 0 < b ∨ 4 * b + 2 * (c + a) ≤ 1 := by
      rcases hb0.lt_or_eq with h | h
      · exact .inl h
      · exact .inr (by linarith)
    have hmin : min (min |a| |b|) |c| = -c := by
      rw [abs_of_nonneg ha0, abs_of_nonneg hb0, abs_of_nonpos hc]
      exact min_eq_right (le_min (by linarith) (by linarith))
    unfold Balanced
    rw [or_iff_right hprod, hmin, abs_of_nonneg ha0, abs_of_nonneg hb0, abs_of_nonpos hc]
    constructor
    · rintro ⟨-, -, h | h⟩
      · exact absurd h hc.not_gt
      · linarith
    · intro h
      exact ⟨hfirst, hsecond, .inr (by linarith)⟩

omit [IsStrictOrderedRing K] in
/-- The condition on three commands does not depend on which of them is named first. -/
theorem balanced_rotate {x y z : K} : Balanced y z x ↔ Balanced x y z := by
  unfold Balanced
  rw [min_comm (min |y| |z|), min_assoc, add_comm (|y| + |z|), add_assoc]

/-- **One corner.** Seen from the lowest channel all axes keep their signs exactly when the three
commands all raise the other channels or are balanced. -/
theorem corner_kept_iff {a b c : K} (hab : 0 ≤ a + b) (hac : 0 ≤ a + c) (hbc : 0 ≤ b + c)
    (ha : a ≤ 2 / 5) (hb : b ≤ 2 / 5) (hc : c ≤ 2 / 5) :
    (Agrees (seen a b c) a ∧ Agrees (seen b c a) b ∧ Agrees (seen c a b) c) ↔
      0 < a * b * c ∨ Balanced a b c := by
  have hba : 0 ≤ b + a := by rwa [add_comm]
  have hca : 0 ≤ c + a := by rwa [add_comm]
  have hcb : 0 ≤ c + b := by rwa [add_comm]
  rw [agrees_seen_iff hab hac hb hc, agrees_seen_iff hbc hba hc ha, agrees_seen_iff hca hcb ha hb]
  have hweakest : (c ≤ a ∧ c ≤ b) ∨ (a ≤ b ∧ a ≤ c) ∨ (b ≤ c ∧ b ≤ a) := by
    rcases le_total a b with h | h
    · exact (le_total a c).elim (fun h' => .inr (.inl ⟨h, h'⟩)) fun h' => .inl ⟨h', h'.trans h⟩
    · exact (le_total b c).elim (fun h' => .inr (.inr ⟨h', h⟩)) fun h' => .inl ⟨h'.trans h, h'⟩
  rcases hweakest with ⟨h, h'⟩ | ⟨h, h'⟩ | ⟨h, h'⟩
  · exact axes_seen_iff hac hbc ha hb h h'
  · rw [and_rotate, mul_rotate, ← balanced_rotate]
    exact axes_seen_iff hba hca hb hc h h'
  · rw [← and_rotate, ← mul_rotate, balanced_rotate]
    exact axes_seen_iff hcb hab hc ha h h'

/-- The same corner with the signs that the lowest channel gives to the commands. -/
theorem kept_iff_of_signs {x d σ : Fin 3 → K} (hσ : ∀ a, σ a = 1 ∨ σ a = -1)
    (hprod : σ 0 * σ 1 * σ 2 = -1) (hx : ∀ a, |x a| ≤ 2 / 5) (h01 : 0 ≤ σ 0 * x 0 + σ 1 * x 1)
    (h02 : 0 ≤ σ 0 * x 0 + σ 2 * x 2) (h12 : 0 ≤ σ 1 * x 1 + σ 2 * x 2)
    (hd0 : d 0 = σ 0 * seen (σ 0 * x 0) (σ 1 * x 1) (σ 2 * x 2))
    (hd1 : d 1 = σ 1 * seen (σ 1 * x 1) (σ 2 * x 2) (σ 0 * x 0))
    (hd2 : d 2 = σ 2 * seen (σ 2 * x 2) (σ 0 * x 0) (σ 1 * x 1)) :
    (∀ a, Agrees (d a) (x a)) ↔ x 0 * x 1 * x 2 < 0 ∨ Balanced (x 0) (x 1) (x 2) := by
  have habs (a : Fin 3) : |σ a * x a| = |x a| := by
    rcases hσ a with h | h <;> simp [h]
  have hle (a : Fin 3) : σ a * x a ≤ 2 / 5 := (le_abs_self _).trans ((habs a).trans_le (hx a))
  have hagree (a : Fin 3) (s : K) : Agrees (σ a * s) (x a) ↔ Agrees s (σ a * x a) := by
    rcases hσ a with h | h
    · simp [h]
    · rw [h, neg_one_mul, neg_one_mul, ← agrees_neg, neg_neg]
  have hcorner := corner_kept_iff h01 h02 h12 (hle 0) (hle 1) (hle 2)
  have hsign : 0 < σ 0 * x 0 * (σ 1 * x 1) * (σ 2 * x 2) ↔ x 0 * x 1 * x 2 < 0 := by
    rw [show σ 0 * x 0 * (σ 1 * x 1) * (σ 2 * x 2) = σ 0 * σ 1 * σ 2 * (x 0 * x 1 * x 2) by ring,
      hprod, neg_one_mul, neg_pos]
  have hbal : Balanced (σ 0 * x 0) (σ 1 * x 1) (σ 2 * x 2) ↔ Balanced (x 0) (x 1) (x 2) := by
    unfold Balanced
    rw [habs, habs, habs]
  rw [hsign, hbal] at hcorner
  rw [← hcorner, ← hagree 0, ← hagree 1, ← hagree 2, ← hd0, ← hd1, ← hd2, Fin.forall_fin_succ,
    Fin.forall_fin_succ, Fin.forall_fin_one]
  rfl

end Ordered

/-! ## The mixer -/

section Exact
variable [IsStrictOrderedRing K] [FloatEnv K] [ExactArith K]

/-- Up to a common term every channel is its height over the lowest, cut at one. -/
theorem mot_over_lowest (thr roll pitch yaw : Flt K) :
    ∃ base : K, ∀ i, ((write thr roll pitch yaw).1.mot i).num =
      base + min 1 (rawMix thr roll pitch yaw i - lowest (rawMix thr roll pitch yaw)) := by
  have hmot (i : Fin 4) : ((write thr roll pitch yaw).1.mot i).num =
      min 1 (rawMix thr roll pitch yaw i + shiftNum (rawMix thr roll pitch yaw)) :=
    congrArg Flt.num (write_mot thr roll pitch yaw i)
  revert hmot
  generalize rawMix thr roll pitch yaw = m
  intro hmot
  rcases le_or_gt (highest m - lowest m) 1 with h | h
  · have hleast : IsLeastShift m 0 1 (shiftNum m) :=
      isLeastShift (isGreatest_highest m) (isLeast_lowest m) (by rwa [sub_zero])
    refine ⟨shiftNum m + lowest m, fun i => ?_⟩
    have hi : m i - lowest m ≤ 1 := (sub_le_sub_right (le_highest m i) _).trans h
    rw [hmot, min_eq_right (hleast.fits i).2, min_eq_right hi]
    ring
  · refine ⟨0, fun i => ?_⟩
    rw [hmot, shiftNum_of_wide h, zero_add, sub_eq_add_neg]

/-- The raw mix of a throttle and three commands that are in their ranges. -/
def mixed (t : K) (x : Fin 3 → K) : Fin 4 → K :=
  ![t - x 0 + x 1 - x 2, t - x 0 - x 1 + x 2, t + x 0 + x 1 + x 2, t + x 0 - x 1 - x 2]

omit [FloatEnv K] [ExactArith K] in
/-- Inputs in their ranges pass the clamps unchanged, so the raw mix is the one of the inputs. -/
theorem rawMix_fin {t : K} {x : Fin 3 → K} (ht : 0 ≤ t ∧ t ≤ 1) (hx : ∀ a, |x a| ≤ 1) :
    rawMix (.fin t) (.fin (x 0)) (.fin (x 1)) (.fin (x 2)) = mixed t x := by
  have hunit : clampf (.fin t) 0 1 = .fin t := by
    rw [Flt.zero_def, Flt.one_def, clampf_num _ zero_le_one, min_eq_right ht.2, max_eq_right ht.1]
  have hsym {x : K} (hx : |x| ≤ 1) : clampf (.fin x) (-1) 1 = .fin x := by
    obtain ⟨hlo, hhi⟩ := abs_le.mp hx
    rw [Flt.one_def, Flt.neg_fin, clampf_num _ (hlo.trans hhi), min_eq_right hhi, max_eq_right hlo]
  unfold rawMix
  rw [hunit, hsym (hx 0), hsym (hx 1), hsym (hx 2)]
  rfl

omit [FloatEnv K] [ExactArith K] in
/-- No other channel is below the lowest: two commands at a time do not pull together below it. -/
theorem pairs_of_lowest {t : K} {x : Fin 3 → K} {k : Fin 4}
    (hlow : ∀ i, mixed t x k ≤ mixed t x i) :
    0 ≤ -signTable 0 k * x 0 + -signTable 1 k * x 1 ∧ 0 ≤ -signTable 0 k * x 0 + -signTable 2 k * x 2 ∧
      0 ≤ -signTable 1 k * x 1 + -signTable 2 k * x 2 := by
  have h0 := hlow 0
  have h1 := hlow 1
  have h2 := hlow 2
  have h3 := hlow 3
  match k with
  | 0 | 1 | 2 | 3 =>
    dsimp only [mixed, signTable, Matrix.cons_val] at h0 h1 h2 h3 ⊢
    exact ⟨by linarith, by linarith, by linarith⟩

omit [FloatEnv K] [ExactArith K] in
/-- The differentials of channels that are cut at one over the lowest. -/
theorem differentials_over_lowest {t base : K} {x : Fin 3 → K} {k : Fin 4} {out : PwmCmd K}
    (hmot : ∀ i, (out.mot i).num = base + min 1 (mixed t x i - mixed t x k)) :
    differential 0 out
        = -signTable 0 k * seen (-signTable 0 k * x 0) (-signTable 1 k * x 1) (-signTable 2 k * x 2) ∧
      differential 1 out
        = -signTable 1 k * seen (-signTable 1 k * x 1) (-signTable 2 k * x 2) (-signTable 0 k * x 0) ∧
      differential 2 out
        = -signTable 2 k * seen (-signTable 2 k * x 2) (-signTable 0 k * x 0) (-signTable 1 k * x 1) := by
  rw [differential_roll, differential_pitch, differential_yaw, hmot 0, hmot 1, hmot 2, hmot 3, seen, seen,
    seen]
  match k with
  | 0 | 1 | 2 | 3 =>
    dsimp only [mixed, signTable, Matrix.cons_val]
    refine ⟨?_, ?_, ?_⟩
    all_goals
      ring_nf
      simp

/-- **The mixer keeps the sign of every axis exactly when the commands are balanced or of one kind.** The
commands are those of the rate PIDs; the product of the three is negative when they all pull the same
motor down. -/
theorem axes_kept_iff {t : K} {x : Fin 3 → K} (ht : 0 ≤ t ∧ t ≤ 1) (hx : ∀ a, |x a| ≤ 2 / 5) :
    (∀ a, Agrees (differential a (write (.fin t) (.fin (x 0)) (.fin (x 1)) (.fin (x 2))).1) (x a)) ↔
      x 0 * x 1 * x 2 < 0 ∨ 2 * (|x 0| + |x 1| + |x 2|) ≤ 1 + 6 * min (min |x 0| |x 1|) |x 2| := by
  have hone (a : Fin 3) : |x a| ≤ 1 := (hx a).trans (by linarith)
  have hmix := rawMix_fin ht hone
  obtain ⟨base, hmot⟩ := mot_over_lowest (.fin t) (.fin (x 0)) (.fin (x 1)) (.fin (x 2))
  obtain ⟨⟨k, hk⟩, hlow⟩ := isLeast_lowest (rawMix (.fin t) (.fin (x 0)) (.fin (x 1)) (.fin (x 2)))
  rw [hmix] at hmot hk hlow
  rw [← hk] at hmot hlow
  -- the signs that the lowest channel gives to the commands are those of its column, turned round
  have hσ (a : Fin 3) : -signTable a k = (1 : K) ∨ -signTable a k = (-1 : K) := by
    rcases signTable_eq_or (K := K) a k with h | h
    · exact .inr (congrArg _ h)
    · exact .inl (by rw [h, neg_neg])
  obtain ⟨h01, h02, h12⟩ := pairs_of_lowest fun i => hlow ⟨i, rfl⟩
  obtain ⟨hd0, hd1, hd2⟩ := differentials_over_lowest hmot
  exact kept_iff_of_signs (σ := fun a => -signTable a k) hσ (signTable_column k) hx h01 h02 h12 hd0 hd1 hd2

/-- A roll command alone keeps its sign in the motors, at a throttle of nine tenths. -/
theorem axes_kept_roll :
    Agrees (differential 0 (write (.fin 0.9) (.fin 0.3) 0 0 : PwmCmd ℚ × Flt ℚ).1) 0.3 := by
  have hkept := axes_kept_iff (K := ℚ) (t := 0.9) (x := ![0.3, 0, 0]) (by norm_num)
    (by intro a; fin_cases a <;> norm_num)
  exact hkept.mpr (.inr (by decide +kernel)) 0

/-- Full pitch and yaw and a little roll the same way: the motor that all three raise is cut by 0.8, and
the roll differential is -0.2. -/
theorem not_axes_kept :
    ¬ ∀ (t : ℚ) (x : Fin 3 → ℚ), (0 ≤ t ∧ t ≤ 1) → (∀ a, |x a| ≤ 2 / 5) →
      ∀ a, Agrees (differential a (write (.fin t) (.fin (x 0)) (.fin (x 1)) (.fin (x 2))).1) (x a) := by
  intro h
  have hroll := h 0.5 ![0.1, 0.4, 0.4] (by norm_num) (by intro a; fin_cases a <;> norm_num) 0
  revert hroll
  decide +kernel

end Exact

end QuadXMixer

end DroneMini
