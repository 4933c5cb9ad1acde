import DroneMini.Flight.Estimator
import DroneMini.Lib.Arc
import DroneMini.Lib.Descent
import DroneMini.Lib.FltReal
import Mathlib.Analysis.Real.Pi.Bounds

/-!
# What a fusing call computes

`update` apart from the loops of `wrapPi`: the angles of the accelerometer, the three angles that are
wrapped, and the calls that wrap them (`updateBy`, with the wrapping as a parameter). For a sample without
rotation `fusesShort_iff` says when the correction takes the shortest way: the blend is linear, so it goes
the direct way also where the way round is the shorter one.
-/

namespace DroneMini

namespace ComplementaryEstimator

variable {K : Type} [Field K] [LinearOrder K] [FloatEnv K]

/-- `update`, `roll_a`: the roll angle of the accelerometer, or the present one when the sample is too
small. -/
def rollA (est : ComplementaryEstimator K) (imu : ImuSample K) : Flt K :=
  if decide (.lit 1e-3 < norm3 imu.accelMps2) then
    FloatEnv.atan2 (-imu.accelMps2 1) (-imu.accelMps2 2)
  else est.roll

/-- `update`, `pitch_a`: the pitch angle of the accelerometer, or the present one when the sample is too
small. -/
def pitchA (est : ComplementaryEstimator K) (imu : ImuSample K) : Flt K :=
  if decide (.lit 1e-3 < norm3 imu.accelMps2) then
    FloatEnv.atan2 (-imu.accelMps2 0) (-imu.accelMps2 2)
  else est.pitch

/-- `update`, the blend of an angle that the gyro has moved with its reference. -/
def blend (alpha angle rate dte reference : Flt K) : Flt K :=
  alpha * (angle + rate * dte) + (1 - alpha) * reference

/-- `update`, `dte`: the time between two samples that are fused. -/
def dte (dt : Flt K) : Flt K := dt * .ofInt kEstDecim

/-- `update`, the roll angle before it is wrapped: blended with that of the accelerometer. -/
def rollBlend (est : ComplementaryEstimator K) (imu : ImuSample K) (dt : Flt K) : Flt K :=
  blend est.alpha est.roll (imu.gyroRps 0) (dte dt) (est.rollA imu)

/-- `update`, the pitch angle before it is wrapped: blended with that of the accelerometer. -/
def pitchBlend (est : ComplementaryEstimator K) (imu : ImuSample K) (dt : Flt K) : Flt K :=
  blend est.alpha est.pitch (-imu.gyroRps 1) (dte dt) (est.pitchA imu)

/-- `update`, the yaw angle before it is wrapped, which has no reference. -/
def yawTurned (est : ComplementaryEstimator K) (imu : ImuSample K) (dt : Flt K) : Flt K :=
  est.yaw + imu.gyroRps 2 * dte dt

/-- The fusing part of `update`, with the loops of `wrapPi` as a parameter. -/
def fuseBy (wrap : Flt K → Option (Flt K)) (est : ComplementaryEstimator K) (imu : ImuSample K)
    (dt : Flt K) : Option (ComplementaryEstimator K) := do
  let roll ← wrap (est.rollBlend imu dt)
  let pitch ← wrap (est.pitchBlend imu dt)
  let yaw ← wrap (est.yawTurned imu dt)
  return { est with roll := roll, pitch := pitch, yaw := yaw }

/-- `update`, with the loops of `wrapPi` as a parameter, so that other arithmetic can wrap. -/
def updateBy (wrap : Flt K → Option (Flt K)) (est : ComplementaryEstimator K) (imu : ImuSample K)
    (dt : Flt K) : Option (ComplementaryEstimator K) :=
  if rejects imu dt then
    let count :=
      if est.invalidCount < kImuInvalidDebounce then est.invalidCount + 1 else est.invalidCount
    some { est with invalidCount := count, imuValid := decide (count < kImuInvalidDebounce) }
  else
    let est := { est with invalidCount := 0, imuValid := true, decim := est.decim + 1 }
    if est.decim < kEstDecim then some est
    else fuseBy wrap { est with decim := 0 } imu dt

/-- `update` is the call that wraps with `wrapPi`, which its other readings are compared with. -/
theorem update_eq (est : ComplementaryEstimator K) (fuel : Nat) (imu : ImuSample K) (dt : Flt K) :
    est.update fuel imu dt = est.updateBy (wrapPi fuel) imu dt := rfl

/-- The call fuses: the sample is good, and it is the turn of the fusion. -/
def Fuses (est : ComplementaryEstimator K) (imu : ImuSample K) (dt : Flt K) : Prop :=
  rejects imu dt = false ∧ kEstDecim ≤ est.decim + 1

/-- The estimator that a fusing call starts from, with its counters already moved. -/
def counted (est : ComplementaryEstimator K) : ComplementaryEstimator K :=
  { est with invalidCount := 0, imuValid := true, decim := 0 }

/-- A call that fuses wraps the three angles and stores them. -/
theorem updateBy_of_fuses {est : ComplementaryEstimator K} {imu : ImuSample K} {dt : Flt K}
    (h : est.Fuses imu dt) (wrap : Flt K → Option (Flt K)) :
    est.updateBy wrap imu dt = fuseBy wrap est.counted imu dt := by
  rw [updateBy, if_neg (by rw [h.1]; exact Bool.false_ne_true)]
  exact if_neg (not_lt.mpr h.2)

/-- A call that does not fuse returns without running a loop. -/
theorem updateBy_of_not_fuses {est : ComplementaryEstimator K} {imu : ImuSample K} {dt : Flt K}
    (h : ¬ est.Fuses imu dt) (wrap : Flt K → Option (Flt K)) : (est.updateBy wrap imu dt).isSome := by
  unfold updateBy
  by_cases hrejects : rejects imu dt = true
  · rw [if_pos hrejects]
    rfl
  · rw [if_neg hrejects]
    dsimp only
    rw [if_pos (not_le.mp fun hturn => h ⟨Bool.eq_false_of_not_eq_true hrejects, hturn⟩)]
    rfl

/-- The fusion returns the three angles that its loops return, when all of them end. -/
theorem fuseBy_eq_some {wrap : Flt K → Option (Flt K)} {est : ComplementaryEstimator K}
    {imu : ImuSample K} {dt r p y : Flt K} (hr : wrap (est.rollBlend imu dt) = some r)
    (hp : wrap (est.pitchBlend imu dt) = some p) (hy : wrap (est.yawTurned imu dt) = some y) :
    fuseBy wrap est imu dt = some { est with roll := r, pitch := p, yaw := y } := by
  show (wrap _).bind _ = _
  rw [hr]
  show (wrap _).bind _ = _
  rw [hp]
  show (wrap _).bind _ = _
  rw [hy]
  rfl

section Exact
variable [ExactArith K]

omit [LinearOrder K] in
/-- The value of the literal for π in the source, as a number of the field. -/
theorem kPi_eq : (kPi : Flt K) = .fin ((3.14159265359 : ℚ) : K) := Flt.lit_eq _

variable [IsStrictOrderedRing K]

/-- An angle within the literal for π is left as it is. -/
theorem wrapPi_of_abs_le {x : K} (h : |x| ≤ ((3.14159265359 : ℚ) : K)) (fuel : Nat) :
    wrapPi fuel (.fin x) = some (.fin x) := by
  obtain ⟨hlow, hhigh⟩ := abs_le.mp h
  have hdown : decide (kPi < (.fin x : Flt K)) = false := by
    rw [kPi_eq, decide_eq_false_iff_not, Flt.fin_lt_fin]
    exact not_lt.mpr hhigh
  have hup : decide ((.fin x : Flt K) < -kPi) = false := by
    rw [kPi_eq, Flt.neg_fin, decide_eq_false_iff_not, Flt.fin_lt_fin]
    exact not_lt.mpr hlow
  have hfirst : whileLoop (fun a : Flt K => decide (kPi < a)) (fun a => some (a - .lit 2 * kPi)) fuel
      (.fin x) = some (.fin x) := whileLoop_of_not hdown
  show (whileLoop _ _ fuel _).bind _ = _
  rw [hfirst]
  exact whileLoop_of_not hup

omit [IsStrictOrderedRing K] in
/-- The value of the turn that the loops add and subtract. -/
theorem turn_eq : (.lit 2 * kPi : Flt K) = .fin (((2 : ℚ) : K) * ((3.14159265359 : ℚ) : K)) := by
  rw [kPi_eq, Flt.lit_eq, Flt.fin_mul_fin]

/-- **Every angle can be wrapped**: the turns are taken off one by one. -/
theorem wrapPi_returns [FloorRing K] (x : K) : ∃ fuel y, wrapPi fuel (.fin x) = some (.fin y) := by
  have hpos : (0 : K) < ((2 : ℚ) : K) * ((3.14159265359 : ℚ) : K) :=
    mul_pos (Rat.cast_pos.mpr (by norm_num)) (Rat.cast_pos.mpr (by norm_num))
  have hdown : ∃ fuel b, whileLoop (fun a : Flt K => decide (kPi < a)) (fun a => some (a - .lit 2 * kPi))
      fuel (.fin x) = some b ∧ (∃ y, b = .fin y) ∧ decide (kPi < b) = false := by
    refine whileLoop_descends (fun a => ∃ y, a = .fin y) Flt.num ((3.14159265359 : ℚ) : K) hpos
      (fun a ha hc => ?_) ⟨x, rfl⟩
    obtain ⟨y, rfl⟩ := ha
    rw [kPi_eq, decide_eq_true_iff, Flt.fin_lt_fin] at hc
    refine ⟨hc, _, rfl, ⟨_, by rw [turn_eq, Flt.fin_sub_fin]⟩, ?_⟩
    rw [turn_eq, Flt.fin_sub_fin]
    exact le_rfl
  obtain ⟨fuel, b, hfirst, ⟨y, rfl⟩, -⟩ := hdown
  have hup : ∃ fuel b, whileLoop (fun a : Flt K => decide (a < -kPi)) (fun a => some (a + .lit 2 * kPi))
      fuel (.fin y) = some b ∧ (∃ z, b = .fin z) ∧ decide (b < -kPi) = false := by
    refine whileLoop_descends (fun a : Flt K => ∃ z, a = .fin z) (fun a => -a.num)
      ((3.14159265359 : ℚ) : K) hpos (fun a ha hc => ?_) ⟨y, rfl⟩
    obtain ⟨z, rfl⟩ := ha
    rw [kPi_eq, Flt.neg_fin, decide_eq_true_iff, Flt.fin_lt_fin] at hc
    refine ⟨lt_neg_of_lt_neg hc, _, rfl, ⟨_, by rw [turn_eq, Flt.fin_add_fin]⟩, ?_⟩
    rw [turn_eq, Flt.fin_add_fin]
    exact (neg_add' _ _).le
  obtain ⟨fuel', b, hsecond, ⟨z, rfl⟩, -⟩ := hup
  refine ⟨max fuel fuel', z, ?_⟩
  show (whileLoop _ _ _ _).bind _ = _
  rw [whileLoop_mono (Nat.le_max_left fuel fuel') hfirst]
  exact whileLoop_mono (Nat.le_max_right fuel fuel') hsecond

/-- **A blend without rotation** goes from the angle to its reference, by the share of the reference. -/
theorem blend_fin (x r t : K) : blend (.lit 0.998) (.fin x) 0 (.fin t) (.fin r) =
    (.fin (r + ((0.998 : ℚ) : K) * (x - r)) : Flt K) := by
  rw [blend, Flt.lit_eq, Flt.zero_def, Flt.one_def, Flt.fin_mul_fin, Flt.fin_add_fin, Flt.fin_mul_fin,
    Flt.fin_sub_fin, Flt.fin_mul_fin, Flt.fin_add_fin]
  congr 1
  ring

/-- A fusing call on a sample without rotation, with the angles before it and those of the
accelerometer, all within half a turn `p`. -/
structure StillCall (p : K) (est : ComplementaryEstimator K) (imu : ImuSample K) (dt : Flt K)
    (roll pitch rollRef pitchRef : K) : Prop where
  fuses : est.Fuses imu dt
  dt : ∃ t, dt = .fin t
  gyro : ∀ i, imu.gyroRps i = 0
  alpha : est.alpha = .lit 0.998
  roll : est.roll = .fin roll ∧ |roll| ≤ p
  pitch : est.pitch = .fin pitch ∧ |pitch| ≤ p
  yaw : ∃ y, est.yaw = .fin y
  rollRef : est.rollA imu = .fin rollRef ∧ |rollRef| ≤ p
  pitchRef : est.pitchA imu = .fin pitchRef ∧ |pitchRef| ≤ p

/-- The call returns, keeps both angles within half a turn, and takes neither farther away on the circle
from its reference. -/
def FusesShort (p : K) (est : ComplementaryEstimator K) (imu : ImuSample K) (dt : Flt K)
    (roll pitch rollRef pitchRef : K) : Prop :=
  ∃ fuel est' roll' pitch', est.update fuel imu dt = some est' ∧ est'.roll = .fin roll' ∧
    est'.pitch = .fin pitch' ∧ |roll'| ≤ p ∧ |pitch'| ≤ p ∧ NotFarther p roll roll' rollRef ∧
    NotFarther p pitch pitch' pitchRef

omit [FloatEnv K] [ExactArith K] in
/-- The filter constant is below one, so the reference has a share in the blend. -/
theorem alpha_lt_one : ((0.998 : ℚ) : K) < 1 := (Rat.cast_lt.mpr (by norm_num)).trans_eq Rat.cast_one

omit [FloatEnv K] [ExactArith K] in
/-- A blend of two angles within half a turn is within half a turn. -/
theorem abs_blend_le {p x r : K} (hx : |x| ≤ p) (hr : |r| ≤ p) : |r + ((0.998 : ℚ) : K) * (x - r)| ≤ p := by
  have hshare : (0 : K) ≤ ((0.998 : ℚ) : K) := Rat.cast_nonneg.mpr (by norm_num)
  have hrest : (0 : K) ≤ 1 - ((0.998 : ℚ) : K) := sub_nonneg.mpr alpha_lt_one.le
  have hsplit : r + ((0.998 : ℚ) : K) * (x - r) =
      ((0.998 : ℚ) : K) * x + (1 - ((0.998 : ℚ) : K)) * r := by ring
  calc |r + ((0.998 : ℚ) : K) * (x - r)|
      ≤ |((0.998 : ℚ) : K) * x| + |(1 - ((0.998 : ℚ) : K)) * r| := hsplit ▸ abs_add_le _ _
    _ = ((0.998 : ℚ) : K) * |x| + (1 - ((0.998 : ℚ) : K)) * |r| := by
      rw [abs_mul, abs_mul, abs_of_nonneg hshare, abs_of_nonneg hrest]
    _ ≤ ((0.998 : ℚ) : K) * p + (1 - ((0.998 : ℚ) : K)) * p :=
      add_le_add (mul_le_mul_of_nonneg_left hx hshare) (mul_le_mul_of_nonneg_left hr hrest)
    _ = p := by ring

/-- The two angles that the fusion wraps are left as they are. -/
theorem StillCall.wraps {p : K} {est : ComplementaryEstimator K} {imu : ImuSample K} {dt : Flt K}
    {roll pitch rollRef pitchRef : K} (h : StillCall p est imu dt roll pitch rollRef pitchRef)
    (hp : p ≤ ((3.14159265359 : ℚ) : K)) (fuel : Nat) :
    wrapPi fuel (est.counted.rollBlend imu dt) =
        some (.fin (rollRef + ((0.998 : ℚ) : K) * (roll - rollRef))) ∧
      wrapPi fuel (est.counted.pitchBlend imu dt) =
        some (.fin (pitchRef + ((0.998 : ℚ) : K) * (pitch - pitchRef))) := by
  obtain ⟨t, ht⟩ := h.dt
  have hdte : dte dt = .fin (t * ((kEstDecim : ℤ) : K)) := by
    rw [dte, ht, Flt.ofInt_exact, Flt.fin_mul_fin]
  have hroll : est.counted.rollBlend imu dt =
      blend est.alpha est.roll (imu.gyroRps 0) (dte dt) (est.rollA imu) := rfl
  have hpitch : est.counted.pitchBlend imu dt =
      blend est.alpha est.pitch (-imu.gyroRps 1) (dte dt) (est.pitchA imu) := rfl
  rw [hroll, hpitch, h.alpha, h.gyro, h.gyro, Flt.neg_zero, hdte, h.roll.1, h.rollRef.1, h.pitch.1,
    h.pitchRef.1, blend_fin, blend_fin]
  exact ⟨wrapPi_of_abs_le ((abs_blend_le h.roll.2 h.rollRef.2).trans hp) fuel,
    wrapPi_of_abs_le ((abs_blend_le h.pitch.2 h.pitchRef.2).trans hp) fuel⟩

/-- The call returns: its three loops end on the angles that it wraps. -/
theorem StillCall.returns [FloorRing K] {p : K} {est : ComplementaryEstimator K} {imu : ImuSample K}
    {dt : Flt K} {roll pitch rollRef pitchRef : K} (h : StillCall p est imu dt roll pitch rollRef pitchRef)
    (hp : p ≤ ((3.14159265359 : ℚ) : K)) : ∃ fuel est', est.update fuel imu dt = some est' := by
  obtain ⟨t, ht⟩ := h.dt
  obtain ⟨y, hy⟩ := h.yaw
  have hyaw : est.counted.yawTurned imu dt = .fin (y + 0 * (t * ((kEstDecim : ℤ) : K))) := by
    rw [yawTurned, h.gyro, dte, ht, Flt.ofInt_exact, Flt.fin_mul_fin, Flt.zero_def,
      Flt.fin_mul_fin, show est.counted.yaw = .fin y from hy, Flt.fin_add_fin]
  obtain ⟨fuel, z, hz⟩ := wrapPi_returns (y + 0 * (t * ((kEstDecim : ℤ) : K)))
  obtain ⟨hroll, hpitch⟩ := h.wraps hp fuel
  have hfuse := fuseBy_eq_some hroll hpitch (hyaw ▸ hz)
  exact ⟨fuel, _, (updateBy_of_fuses h.fuses _).trans hfuse⟩

/-- What the call returns: the two blended angles, which need no wrapping. -/
theorem StillCall.result {p : K} {est est' : ComplementaryEstimator K} {imu : ImuSample K} {dt : Flt K}
    {roll pitch rollRef pitchRef : K} (h : StillCall p est imu dt roll pitch rollRef pitchRef)
    (hp : p ≤ ((3.14159265359 : ℚ) : K)) {fuel : Nat} (hupdate : est.update fuel imu dt = some est') :
    est'.roll = .fin (rollRef + ((0.998 : ℚ) : K) * (roll - rollRef)) ∧
      est'.pitch = .fin (pitchRef + ((0.998 : ℚ) : K) * (pitch - pitchRef)) := by
  obtain ⟨hroll, hpitch⟩ := h.wraps hp fuel
  rw [update_eq, updateBy_of_fuses h.fuses] at hupdate
  obtain ⟨r, hr, hupdate⟩ := Option.bind_eq_some_iff.mp hupdate
  obtain ⟨q, hq, hupdate⟩ := Option.bind_eq_some_iff.mp hupdate
  obtain ⟨y, -, hupdate⟩ := Option.bind_eq_some_iff.mp hupdate
  cases hupdate
  exact ⟨Option.some.inj (hr.symm.trans hroll), Option.some.inj (hq.symm.trans hpitch)⟩

omit [FloatEnv K] [ExactArith K] in
/-- When a blend does not lead away from the reference. -/
theorem notFarther_blend_iff {p x r : K} (hx : |x| ≤ p) (hr : |r| ≤ p) :
    NotFarther p x (r + ((0.998 : ℚ) : K) * (x - r)) r ↔ (1 + ((0.998 : ℚ) : K)) * |x - r| ≤ 2 * p := by
  have hshare : (0 : K) ≤ ((0.998 : ℚ) : K) := Rat.cast_nonneg.mpr (by norm_num)
  refine notFarther_iff ?_ hshare alpha_lt_one (add_sub_cancel_left _ _)
  rw [two_mul]
  exact (abs_sub _ _).trans (add_le_add hx hr)

/-- A correction that takes the shortest way starts near enough to the references. -/
theorem FusesShort.near {p : K} {est : ComplementaryEstimator K} {imu : ImuSample K} {dt : Flt K}
    {roll pitch rollRef pitchRef : K} (hshort : FusesShort p est imu dt roll pitch rollRef pitchRef)
    (h : StillCall p est imu dt roll pitch rollRef pitchRef) (hp : p ≤ ((3.14159265359 : ℚ) : K)) :
    (1 + ((0.998 : ℚ) : K)) * |roll - rollRef| ≤ 2 * p ∧
      (1 + ((0.998 : ℚ) : K)) * |pitch - pitchRef| ≤ 2 * p := by
  obtain ⟨fuel, est', roll', pitch', hupdate, hroll', hpitch', -, -, hroll, hpitch⟩ := hshort
  obtain ⟨hr, hq⟩ := h.result hp hupdate
  rw [hr] at hroll'
  rw [hq] at hpitch'
  cases hroll'
  cases hpitch'
  exact ⟨(notFarther_blend_iff h.roll.2 h.rollRef.2).mp hroll,
    (notFarther_blend_iff h.pitch.2 h.pitchRef.2).mp hpitch⟩

/-- **The correction takes the shortest way exactly when neither angle is too far from its reference**:
`1 + 0.998` times their direct distance is at most a full turn. -/
theorem fusesShort_iff [FloorRing K] {p : K} {est : ComplementaryEstimator K} {imu : ImuSample K}
    {dt : Flt K} {roll pitch rollRef pitchRef : K} (hp : p ≤ ((3.14159265359 : ℚ) : K))
    (h : StillCall p est imu dt roll pitch rollRef pitchRef) :
    FusesShort p est imu dt roll pitch rollRef pitchRef ↔
      (1 + ((0.998 : ℚ) : K)) * |roll - rollRef| ≤ 2 * p ∧
        (1 + ((0.998 : ℚ) : K)) * |pitch - pitchRef| ≤ 2 * p := by
  refine ⟨fun hshort => hshort.near h hp, ?_⟩
  rintro ⟨hroll, hpitch⟩
  obtain ⟨fuel, est', hupdate⟩ := h.returns hp
  obtain ⟨hr, hq⟩ := h.result hp hupdate
  exact ⟨fuel, est', _, _, hupdate, hr, hq, abs_blend_le h.roll.2 h.rollRef.2,
    abs_blend_le h.pitch.2 h.pitchRef.2, (notFarther_blend_iff h.roll.2 h.rollRef.2).mpr hroll,
    (notFarther_blend_iff h.pitch.2 h.pitchRef.2).mpr hpitch⟩

end Exact

/-! ## Across the cut -/

/-- An estimator with a given roll angle and otherwise level, at whose turn it is to fuse. -/
noncomputable def banked (roll : ℝ) : ComplementaryEstimator ℝ := { new with roll := .fin roll, decim := 1 }

/-- A sample at rest whose roll angle is -3, just across the cut from 3. -/
noncomputable def bankedBack : ImuSample ℝ :=
  ⟨fun _ => 0, ![.fin 0, .fin (Real.sin 3), .fin (-Real.cos 3)], fun _ => 0, 0, 0, true⟩

/-- Half a turn is at most the literal of the source, which is a little too large. -/
theorem pi_le_literal : Real.pi ≤ ((3.14159265359 : ℚ) : ℝ) :=
  Real.pi_lt_d20.le.trans (by norm_num)

/-- The accelerometer of the sample `bankedBack` is long enough to be used as a reference. -/
theorem lt_norm3_bankedBack : (.lit 1e-3 : Flt ℝ) < norm3 bankedBack.accelMps2 := by
  have hone : (0 * 0 + Real.sin 3 * Real.sin 3 + -Real.cos 3 * -Real.cos 3 : ℝ) = 1 := by
    rw [← Real.sin_sq_add_cos_sq 3]
    ring
  have hnorm : norm3 bankedBack.accelMps2 = .fin 1 := by
    show Flt.fin (Real.sqrt (0 * 0 + Real.sin 3 * Real.sin 3 + -Real.cos 3 * -Real.cos 3)) = _
    rw [hone, Real.sqrt_one]
  rw [hnorm, Flt.lit_eq, Flt.fin_lt_fin]
  norm_num

/-- The reference angles in the sample `bankedBack`: a roll of -3, and a pitch at the cut. -/
theorem angles_bankedBack (est : ComplementaryEstimator ℝ) :
    est.rollA bankedBack = .fin (-3) ∧ est.pitchA bankedBack = .fin Real.pi := by
  have hlow := Real.pi_gt_three
  have hhigh := Real.pi_lt_four
  have hcos : Real.cos 3 < 0 := Real.cos_neg_of_pi_div_two_lt_of_lt (by linarith) (by linarith)
  constructor
  · rw [rollA, if_pos (decide_eq_true lt_norm3_bankedBack)]
    have hpoint : (⟨- -Real.cos 3, -Real.sin 3⟩ : ℂ) =
        Complex.cos ((-3 : ℝ) : ℂ) + Complex.sin ((-3 : ℝ) : ℂ) * Complex.I := by
      rw [Complex.mk_eq_add_mul_I, neg_neg, ← Real.cos_neg, ← Real.sin_neg, Complex.ofReal_cos,
        Complex.ofReal_sin]
    show Flt.fin (Complex.arg ⟨- -Real.cos 3, -Real.sin 3⟩) = _
    rw [hpoint, Complex.arg_cos_add_sin_mul_I ⟨by linarith, by linarith⟩]
  · rw [pitchA, if_pos (decide_eq_true lt_norm3_bankedBack)]
    have hpoint : (⟨- -Real.cos 3, -0⟩ : ℂ) = (Real.cos 3 : ℂ) := by
      rw [Complex.mk_eq_add_mul_I, neg_neg, neg_zero, Complex.ofReal_zero, zero_mul, add_zero]
    show Flt.fin (Complex.arg ⟨- -Real.cos 3, -0⟩) = _
    rw [hpoint, Complex.arg_ofReal_of_neg hcos]

/-- A call with the sample `bankedBack` is one at rest, for any roll angle that the estimator may hold. -/
theorem stillCall_banked {roll : ℝ} (hroll : |roll| ≤ Real.pi) :
    StillCall Real.pi (banked roll) bankedBack (.fin 0.001) roll 0 (-3) Real.pi where
  fuses := by
    refine ⟨?_, le_rfl⟩
    have hdt : (0 : Flt ℝ) < .fin 0.001 := Flt.fin_lt_fin.mpr (by norm_num)
    rw [rejects, decide_eq_true hdt]
    rfl
  dt := ⟨_, rfl⟩
  gyro _ := rfl
  alpha := rfl
  roll := ⟨rfl, hroll⟩
  pitch := ⟨rfl, by rw [abs_zero]; exact Real.pi_pos.le⟩
  yaw := ⟨0, rfl⟩
  rollRef := ⟨(angles_bankedBack _).1, by rw [abs_neg, abs_of_pos three_pos]; exact Real.pi_gt_three.le⟩
  pitchRef := ⟨(angles_bankedBack _).2, (abs_of_pos Real.pi_pos).le⟩

/-- A roll angle of 3 is brought to -3 through 0, the long way. -/
theorem not_fusesShort : ¬ ∀ (est : ComplementaryEstimator ℝ) (imu : ImuSample ℝ) (dt : Flt ℝ)
    (roll pitch rollRef pitchRef : ℝ), StillCall Real.pi est imu dt roll pitch rollRef pitchRef →
      FusesShort Real.pi est imu dt roll pitch rollRef pitchRef := by
  intro h
  have hcall := stillCall_banked ((abs_of_pos three_pos).trans_le Real.pi_gt_three.le)
  have hnear := ((h _ _ _ _ _ _ _ hcall).near hcall pi_le_literal).1
  rw [sub_neg_eq_add, abs_of_pos (by norm_num)] at hnear
  have hpi := Real.pi_lt_four
  norm_num at hnear
  linarith

/-- A roll angle of -2 is brought nearer to -3. -/
theorem fusesShort_banked : FusesShort Real.pi (banked (-2)) bankedBack (.fin 0.001) (-2) 0 (-3) Real.pi := by
  have hpi := Real.pi_gt_three
  have hcall : StillCall Real.pi (banked (-2)) bankedBack (.fin 0.001) (-2) 0 (-3) Real.pi :=
    stillCall_banked (by rw [abs_neg, abs_of_pos two_pos]; linarith)
  refine (fusesShort_iff pi_le_literal hcall).mpr ⟨?_, ?_⟩
  · rw [abs_of_pos (by norm_num)]
    norm_num
    linarith
  · rw [zero_sub, abs_neg, abs_of_pos Real.pi_pos]
    norm_num
    linarith

end ComplementaryEstimator

end DroneMini
