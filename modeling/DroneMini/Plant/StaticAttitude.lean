import DroneMini.Flight.Fusion
import DroneMini.Plant.Vehicle
import Mathlib.Tactic.LinearCombination

/-!
# The accelerometer as a reference for the attitude

A craft that stands still with roll `φ` and nose-down pitch `θ`: what the plant reports (`sense_atRest`)
and which angles the estimator reads off it. The roll reference is `φ`. The pitch reference leaves the
component along the lateral axis out, so its tangent is `tan θ / cos φ`: it is the pitch exactly on the two
axes (`referenceTrue_iff`).
-/

namespace DroneMini

open Params

/-- The specific force at rest under the two tilts, in the axes of the sensors. -/
noncomputable def specificForce (φ θ : ℝ) : Fin 3 → ℝ :=
  ![gravity * -Real.sin θ, gravity * -(Real.sin φ * Real.cos θ), gravity * -(Real.cos φ * Real.cos θ)]

namespace Rk4Plant

/-- The plant on the ground, pitched about the lateral axis and rolled about the long one. -/
noncomputable def atRest (φ θ : ℝ) : PlantState ℝ where
  pos := fun _ => 0
  vel := fun _ => 0
  quat := quatMul ![Real.cos (θ / 2.0), 0, Real.sin (θ / 2.0), 0]
    ![Real.cos (φ / 2.0), Real.sin (φ / 2.0), 0, 0]
  omega := fun _ => 0
  motors := fun _ => 0

/-- The quaternion of the attitude with two tilts, pitch and then roll, and no heading. -/
theorem quat_atRest (φ θ : ℝ) : (atRest φ θ).quat =
    ![Real.cos (θ / 2) * Real.cos (φ / 2), Real.cos (θ / 2) * Real.sin (φ / 2),
      Real.sin (θ / 2) * Real.cos (φ / 2), -(Real.sin (θ / 2) * Real.sin (φ / 2))] := by
  have htwo : (2.0 : ℝ) = 2 := by norm_num
  funext i
  match i with
  | 0 | 1 | 2 | 3 =>
    dsimp only [atRest, quatMul, Matrix.cons_val]
    rw [htwo]
    ring

/-- The direction down the world, seen from the body, for a quaternion of length one. -/
theorem quatToR_row {q : Fin 4 → ℝ} (hq : q 0 * q 0 + q 1 * q 1 + q 2 * q 2 + q 3 * q 3 = 1) :
    quatToR q 2 = ![2 * (q 1 * q 3 - q 0 * q 2), 2 * (q 2 * q 3 + q 0 * q 1),
      1 - 2 * (q 1 * q 1 + q 2 * q 2)] := by
  unfold quatToR
  dsimp only
  rw [hq, if_neg (by norm_num)]
  have hs : (2.0 / 1 : ℝ) = 2 := by norm_num
  rw [hs]
  funext i
  match i with
  | 0 | 1 | 2 => rfl

/-- The specific force that a craft on the ground senses, which is that of its attitude alone. -/
theorem sense_ground {x : PlantState ℝ} (hpos : x.pos 2 ≤ 1e-9) (hvel : x.vel 2 ≤ 1e-9) :
    sense x = (toFrd x.omega, toFrd fun j => quatToR x.quat 2 j * gravity) := by
  unfold sense
  dsimp only
  rw [if_pos ⟨hpos, hvel⟩]
  congr 2
  funext j
  rw [Matrix.mulVec, dotProduct, Fin.sum_univ_three]
  dsimp only [Matrix.transpose_apply, Matrix.cons_val]
  norm_num

/-- **What the plant reports at rest.** No rates, and the specific force of the attitude. -/
theorem sense_atRest (φ θ : ℝ) : sense (atRest φ θ) = (fun _ => 0, specificForce φ θ) := by
  have hθ := Real.sin_sq_add_cos_sq (θ / 2)
  have hφ := Real.sin_sq_add_cos_sq (φ / 2)
  have hsinθ : Real.sin θ = 2 * Real.sin (θ / 2) * Real.cos (θ / 2) := by
    rw [← Real.sin_two_mul, mul_div_cancel₀ _ two_ne_zero]
  have hcosθ : Real.cos θ = Real.cos (θ / 2) ^ 2 - Real.sin (θ / 2) ^ 2 := by
    rw [← Real.cos_two_mul', mul_div_cancel₀ _ two_ne_zero]
  have hsinφ : Real.sin φ = 2 * Real.sin (φ / 2) * Real.cos (φ / 2) := by
    rw [← Real.sin_two_mul, mul_div_cancel₀ _ two_ne_zero]
  have hcosφ : Real.cos φ = Real.cos (φ / 2) ^ 2 - Real.sin (φ / 2) ^ 2 := by
    rw [← Real.cos_two_mul', mul_div_cancel₀ _ two_ne_zero]
  have hunit : (atRest φ θ).quat 0 * (atRest φ θ).quat 0 + (atRest φ θ).quat 1 * (atRest φ θ).quat 1 +
      (atRest φ θ).quat 2 * (atRest φ θ).quat 2 + (atRest φ θ).quat 3 * (atRest φ θ).quat 3 = 1 := by
    rw [quat_atRest]
    dsimp only [Matrix.cons_val]
    linear_combination (Real.sin (θ / 2) ^ 2 + Real.cos (θ / 2) ^ 2) * hφ + hθ
  rw [sense_ground (by norm_num [atRest]) (by norm_num [atRest]), quatToR_row hunit, quat_atRest]
  refine Prod.ext (funext fun i => ?_) (funext fun i => ?_)
  · match i with
    | 0 => rfl
    | 1 | 2 => exact neg_zero
  · match i with
    | 0 =>
      dsimp only [toFrd, specificForce, Matrix.cons_val]
      rw [hsinθ]
      linear_combination (-2 * gravity * Real.sin (θ / 2) * Real.cos (θ / 2)) * hφ
    | 1 =>
      dsimp only [toFrd, specificForce, Matrix.cons_val]
      rw [hsinφ, hcosθ]
      ring
    | 2 =>
      show -((1 - 2 * (_ * _ + _ * _)) * gravity) = gravity * -(Real.cos φ * Real.cos θ)
      rw [hcosφ, hcosθ]
      dsimp only [Matrix.cons_val]
      linear_combination gravity * (Real.sin (θ / 2) ^ 2 + Real.cos (θ / 2) ^ 2) * hφ + gravity * hθ

end Rk4Plant

namespace ComplementaryEstimator

/-! ## What the estimator reads off it -/

/-- A fusing call on what the plant reports at rest. -/
structure StaticCall (φ θ : ℝ) (est : ComplementaryEstimator ℝ) (imu : ImuSample ℝ) (dt : Flt ℝ)
    (roll pitch : ℝ) : Prop where
  fuses : est.Fuses imu dt
  dt : ∃ t, dt = .fin t
  gyro : ∀ i, imu.gyroRps i = 0
  accel : ∀ i, imu.accelMps2 i = .fin (specificForce φ θ i)
  alpha : est.alpha = .lit 0.998
  roll : est.roll = .fin roll ∧ |roll| ≤ Real.pi
  pitch : est.pitch = .fin pitch ∧ |pitch| ≤ Real.pi
  yaw : ∃ y, est.yaw = .fin y

/-- The angles of the accelerometer are the attitude, as far as their tangents tell, and the attitude is
the fixed point of the fusion. -/
def ReferenceTrue (φ θ : ℝ) : Prop :=
  ∀ est imu dt roll pitch, StaticCall φ θ est imu dt roll pitch →
    ∃ rollRef pitchRef, est.rollA imu = .fin rollRef ∧ est.pitchA imu = .fin pitchRef ∧
      Real.tan rollRef = Real.tan φ ∧ Real.tan pitchRef = Real.tan θ ∧
      ((∃ fuel est', est.update fuel imu dt = some est' ∧ est'.roll = est.roll ∧ est'.pitch = est.pitch) ↔
        roll = φ ∧ pitch = θ)

/-- The pitch angle that the accelerometer gives at rest, with the roll left out of it as in the source. -/
noncomputable def pitchRefOf (φ θ : ℝ) : ℝ :=
  Complex.arg ⟨gravity * (Real.cos φ * Real.cos θ), gravity * Real.sin θ⟩

theorem gravity_pos : (0 : ℝ) < gravity := by norm_num [gravity]

/-- At rest the accelerometer is used, since the specific force is 1 g at every attitude. -/
theorem lt_norm3_specificForce (φ θ : ℝ) :
    (.lit 1e-3 : Flt ℝ) < norm3 fun i => .fin (specificForce φ θ i) := by
  have hθ := Real.sin_sq_add_cos_sq θ
  have hφ := Real.sin_sq_add_cos_sq φ
  have hsquare : gravity * -Real.sin θ * (gravity * -Real.sin θ) +
      gravity * -(Real.sin φ * Real.cos θ) * (gravity * -(Real.sin φ * Real.cos θ)) +
      gravity * -(Real.cos φ * Real.cos θ) * (gravity * -(Real.cos φ * Real.cos θ)) =
      gravity * gravity := by
    linear_combination gravity * gravity * Real.cos θ ^ 2 * hφ + gravity * gravity * hθ
  have hnorm : (norm3 fun i => .fin (specificForce φ θ i)) = (.fin gravity : Flt ℝ) := by
    show Flt.fin (Real.sqrt (gravity * -Real.sin θ * (gravity * -Real.sin θ) +
      gravity * -(Real.sin φ * Real.cos θ) * (gravity * -(Real.sin φ * Real.cos θ)) +
      gravity * -(Real.cos φ * Real.cos θ) * (gravity * -(Real.cos φ * Real.cos θ)))) = _
    rw [hsquare, Real.sqrt_mul_self gravity_pos.le]
  rw [hnorm, Flt.lit_eq, Flt.fin_lt_fin]
  norm_num [gravity]

/-- The cosine of an angle of less than a right angle. -/
theorem cos_pos_of_abs_lt {x : ℝ} (h : |x| < Real.pi / 2) : 0 < Real.cos x :=
  Real.cos_pos_of_mem_Ioo (abs_lt.mp h)

/-- The argument of a point given by its length and its angle. -/
theorem arg_polar {r x : ℝ} (hr : 0 < r) (hx : |x| < Real.pi / 2) :
    Complex.arg ⟨r * Real.cos x, r * Real.sin x⟩ = x := by
  obtain ⟨hlow, hhigh⟩ := abs_lt.mp hx
  have hpi := Real.pi_pos
  have hpoint : (⟨r * Real.cos x, r * Real.sin x⟩ : ℂ) =
      (r : ℂ) * (Complex.cos (x : ℂ) + Complex.sin (x : ℂ) * Complex.I) := by
    rw [Complex.mk_eq_add_mul_I, Complex.ofReal_mul, Complex.ofReal_mul, Complex.ofReal_cos,
      Complex.ofReal_sin]
    ring
  rw [hpoint, Complex.arg_mul_cos_add_sin_mul_I hr ⟨by linarith, by linarith⟩]

/-- **The angles of the accelerometer at rest.** The roll angle is the roll; the pitch angle is the one of
`pitchRefOf`. -/
theorem StaticCall.angles {φ θ : ℝ} (hφ : |φ| < Real.pi / 2) (hθ : |θ| < Real.pi / 2)
    {est : ComplementaryEstimator ℝ} {imu : ImuSample ℝ} {dt : Flt ℝ} {roll pitch : ℝ}
    (h : StaticCall φ θ est imu dt roll pitch) :
    est.rollA imu = .fin φ ∧ est.pitchA imu = .fin (pitchRefOf φ θ) := by
  have haccel : imu.accelMps2 = fun i => .fin (specificForce φ θ i) := funext h.accel
  have hused := decide_eq_true (lt_norm3_specificForce φ θ)
  have hlevel : -(gravity * -(Real.cos φ * Real.cos θ)) = gravity * Real.cos θ * Real.cos φ := by ring
  constructor
  · rw [rollA, haccel, if_pos hused]
    show Flt.fin (Complex.arg ⟨-(gravity * -(Real.cos φ * Real.cos θ)),
      -(gravity * -(Real.sin φ * Real.cos θ))⟩) = _
    have hside : -(gravity * -(Real.sin φ * Real.cos θ)) = gravity * Real.cos θ * Real.sin φ := by ring
    rw [hlevel, hside, arg_polar (mul_pos gravity_pos (cos_pos_of_abs_lt hθ)) hφ]
  · rw [pitchA, haccel, if_pos hused]
    show Flt.fin (Complex.arg ⟨-(gravity * -(Real.cos φ * Real.cos θ)), -(gravity * -Real.sin θ)⟩) = _
    have hahead : -(gravity * -Real.sin θ) = gravity * Real.sin θ := by ring
    have hlevel' : -(gravity * -(Real.cos φ * Real.cos θ)) = gravity * (Real.cos φ * Real.cos θ) := by ring
    rw [hlevel', hahead, pitchRefOf]

/-- The tangent of the pitch reference is that of the pitch divided by the cosine of the roll. -/
theorem tan_pitchRefOf (φ θ : ℝ) : Real.tan (pitchRefOf φ θ) = Real.tan θ / Real.cos φ := by
  rw [pitchRefOf, Complex.tan_arg, Real.tan_eq_sin_div_cos, div_div, mul_comm (Real.cos θ)]
  exact mul_div_mul_left _ _ gravity_pos.ne'

/-- When one of the two tilts is zero the pitch reference is the pitch. -/
theorem pitchRefOf_eq {φ θ : ℝ} (hφ : |φ| < Real.pi / 2) (hθ : |θ| < Real.pi / 2) (haxis : φ = 0 ∨ θ = 0) :
    pitchRefOf φ θ = θ := by
  rcases haxis with rfl | rfl
  · rw [pitchRefOf, Real.cos_zero, one_mul]
    exact arg_polar gravity_pos hθ
  · rw [pitchRefOf, Real.cos_zero, Real.sin_zero, mul_one, mul_zero]
    exact Complex.arg_ofReal_of_nonneg (mul_pos gravity_pos (cos_pos_of_abs_lt hφ)).le

/-- When neither tilt is zero the pitch reference is not the pitch, because the tangents differ. -/
theorem tan_pitchRefOf_eq_iff {φ θ : ℝ} (hφ : |φ| < Real.pi / 2) (hθ : |θ| < Real.pi / 2) :
    Real.tan (pitchRefOf φ θ) = Real.tan θ ↔ φ = 0 ∨ θ = 0 := by
  have hcosφ := cos_pos_of_abs_lt hφ
  constructor
  · intro htan
    rw [tan_pitchRefOf, div_eq_iff hcosφ.ne'] at htan
    have hproduct : Real.tan θ * (Real.cos φ - 1) = 0 := by
      rw [mul_sub, mul_one, ← htan, sub_self]
    have hpi := Real.pi_pos
    rcases mul_eq_zero.mp hproduct with htan | hcos
    · right
      exact Real.injOn_tan (abs_lt.mp hθ) ⟨by linarith, by linarith⟩ (htan.trans Real.tan_zero.symm)
    · left
      obtain ⟨hlow, hhigh⟩ := abs_lt.mp hφ
      exact (Real.cos_eq_one_iff_of_lt_of_lt (by linarith) (by linarith)).mp (sub_eq_zero.mp hcos)
  · intro haxis
    rw [pitchRefOf_eq hφ hθ haxis]

/-- The fusing call at rest is a call without rates, with the angles of the accelerometer as its
references. -/
theorem StaticCall.still {φ θ : ℝ} (hφ : |φ| < Real.pi / 2) (hθ : |θ| < Real.pi / 2)
    {est : ComplementaryEstimator ℝ} {imu : ImuSample ℝ} {dt : Flt ℝ} {roll pitch : ℝ}
    (h : StaticCall φ θ est imu dt roll pitch) :
    StillCall Real.pi est imu dt roll pitch φ (pitchRefOf φ θ) where
  fuses := h.fuses
  dt := h.dt
  gyro := h.gyro
  alpha := h.alpha
  roll := h.roll
  pitch := h.pitch
  yaw := h.yaw
  rollRef := ⟨(h.angles hφ hθ).1, (hφ.trans (half_lt_self Real.pi_pos)).le⟩
  pitchRef := ⟨(h.angles hφ hθ).2, Complex.abs_arg_le_pi _⟩

/-- A blend stays where it is at its reference only. -/
theorem blend_eq_iff {x r : ℝ} : r + ((0.998 : ℚ) : ℝ) * (x - r) = x ↔ x = r := by
  have hrest : (1 : ℝ) - ((0.998 : ℚ) : ℝ) ≠ 0 := sub_ne_zero.mpr alpha_lt_one.ne'
  constructor
  · intro h
    have hzero : (1 - ((0.998 : ℚ) : ℝ)) * (x - r) = 0 := by linear_combination -h
    exact sub_eq_zero.mp ((mul_eq_zero.mp hzero).resolve_left hrest)
  · rintro rfl
    rw [sub_self, mul_zero, add_zero]

/-- The fixed point of the fusion is where the angles of the accelerometer are. -/
theorem StillCall.fixed_iff {est : ComplementaryEstimator ℝ} {imu : ImuSample ℝ} {dt : Flt ℝ}
    {roll pitch rollRef pitchRef : ℝ} (h : StillCall Real.pi est imu dt roll pitch rollRef pitchRef) :
    (∃ fuel est', est.update fuel imu dt = some est' ∧ est'.roll = est.roll ∧ est'.pitch = est.pitch) ↔
      roll = rollRef ∧ pitch = pitchRef := by
  constructor
  · rintro ⟨fuel, est', hupdate, hroll, hpitch⟩
    obtain ⟨hr, hq⟩ := h.result pi_le_literal hupdate
    rw [hr, h.roll.1, Flt.fin.injEq] at hroll
    rw [hq, h.pitch.1, Flt.fin.injEq] at hpitch
    exact ⟨blend_eq_iff.mp hroll, blend_eq_iff.mp hpitch⟩
  · rintro ⟨rfl, rfl⟩
    obtain ⟨fuel, est', hupdate⟩ := h.returns pi_le_literal
    obtain ⟨hr, hq⟩ := h.result pi_le_literal hupdate
    rw [blend_eq_iff.mpr rfl] at hr hq
    exact ⟨fuel, est', hupdate, hr.trans h.roll.1.symm, hq.trans h.pitch.1.symm⟩

/-- A level estimator, at whose turn it is to fuse. -/
noncomputable def levelled : ComplementaryEstimator ℝ := { new with decim := 1 }

/-- The sample that a craft at rest gives under two tilts. -/
noncomputable def restSample (φ θ : ℝ) : ImuSample ℝ :=
  ⟨fun _ => 0, fun i => .fin (specificForce φ θ i), fun _ => 0, 0, 0, true⟩

/-- Fusing the sample of a craft at rest is a call at rest, on an estimator that holds the level attitude. -/
theorem staticCall_levelled (φ θ : ℝ) : StaticCall φ θ levelled (restSample φ θ) (.fin 0.001) 0 0 where
  fuses := by
    refine ⟨?_, le_rfl⟩
    have hdt : (0 : Flt ℝ) < .fin 0.001 := Flt.fin_lt_fin.mpr (by norm_num)
    rw [rejects, decide_eq_true hdt]
    rfl
  dt := ⟨_, rfl⟩
  gyro _ := rfl
  accel _ := rfl
  alpha := rfl
  roll := ⟨rfl, by rw [abs_zero]; exact Real.pi_pos.le⟩
  pitch := ⟨rfl, by rw [abs_zero]; exact Real.pi_pos.le⟩
  yaw := ⟨0, rfl⟩

/-- A reference that is true is on one of the axes. -/
theorem ReferenceTrue.on_axis {φ θ : ℝ} (h : ReferenceTrue φ θ) (hφ : |φ| < Real.pi / 2)
    (hθ : |θ| < Real.pi / 2) : φ = 0 ∨ θ = 0 := by
  have hcall := staticCall_levelled φ θ
  obtain ⟨rollRef, pitchRef, -, hpitch, -, htan, -⟩ := h _ _ _ _ _ hcall
  rw [(hcall.angles hφ hθ).2, Flt.fin.injEq] at hpitch
  rw [← hpitch] at htan
  exact (tan_pitchRefOf_eq_iff hφ hθ).mp htan

/-- **The accelerometer is a true reference exactly on the two axes.** Where a craft that stands still is
both rolled and pitched, the pitch reference is not the pitch, and the fusion comes to rest elsewhere. -/
theorem referenceTrue_iff {φ θ : ℝ} (hφ : |φ| < Real.pi / 2) (hθ : |θ| < Real.pi / 2) :
    Rk4Plant.sense (Rk4Plant.atRest φ θ) = (fun _ => 0, specificForce φ θ) ∧
      (ReferenceTrue φ θ ↔ φ = 0 ∨ θ = 0) := by
  refine ⟨Rk4Plant.sense_atRest φ θ, fun h => h.on_axis hφ hθ, fun haxis => ?_⟩
  intro est imu dt roll pitch hcall
  obtain ⟨hroll, hpitch⟩ := hcall.angles hφ hθ
  have hstill := hcall.still hφ hθ
  rw [pitchRefOf_eq hφ hθ haxis] at hpitch hstill
  exact ⟨φ, θ, hroll, hpitch, rfl, rfl, hstill.fixed_iff⟩

/-- Half a radian is less than a quarter turn, so it is a tilt that the results are about. -/
theorem half_lt : |(1 / 2 : ℝ)| < Real.pi / 2 := by
  rw [abs_of_pos one_half_pos]
  linarith [Real.pi_gt_three]

/-- A craft rolled by half a radian and not pitched is seen as it is, and so is one pitched by half a radian and not
rolled. -/
theorem referenceTrue_tilted : ReferenceTrue (1 / 2) 0 ∧ ReferenceTrue 0 (1 / 2) :=
  have hlevel : |(0 : ℝ)| < Real.pi / 2 := by rw [abs_zero]; exact half_pos Real.pi_pos
  ⟨(referenceTrue_iff half_lt hlevel).2.mpr (.inr rfl), (referenceTrue_iff hlevel half_lt).2.mpr (.inl rfl)⟩

/-- A craft both rolled and pitched by half a radian is seen at another pitch. -/
theorem not_referenceTrue :
    ¬ ∀ φ θ : ℝ, |φ| < Real.pi / 2 → |θ| < Real.pi / 2 → ReferenceTrue φ θ := by
  intro h
  rcases (h _ _ half_lt half_lt).on_axis half_lt half_lt with hzero | hzero
  · exact one_half_pos.ne' hzero
  · exact one_half_pos.ne' hzero

end ComplementaryEstimator

end DroneMini
