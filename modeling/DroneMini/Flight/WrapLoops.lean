import DroneMini.Flight.Fusion
import DroneMini.Lib.RoundHalfEven
import DroneMini.Lib.Run
import Mathlib.Data.Rat.Floor

/-!
# The wrapping loops in binary32

`wrapPi` with sums that are rounded to the last place of the operand. A turn is less than half of the
last place of an angle of 2^27 or more, so taking it off changes nothing and the loop goes on for ever;
below, each turn lowers the angle. `wrapPiF32_returns_iff` says that the loops end exactly on angles below
2^27 and on the not-a-number token, and `returns_iff` what this means for a call of `update`, in every
state that a sequence of calls leads to.
-/

namespace DroneMini

namespace ComplementaryEstimator

variable {K : Type} [Field K] [LinearOrder K] [FloorRing K]

/-- The binary32 number that is nearest to the literal for π in the source. -/
def piF32 : K := roundAt (ulp ((3.14159265359 : ℚ) : K)) ((3.14159265359 : ℚ) : K)

/-- `2.0f * kPi`, the turn that the loops add and subtract. -/
def turnF32 : K := 2.0 * piF32

/-- A turn less, rounded to the last place of the operand. -/
def turnDown : Flt K → Flt K
  | .fin x => .fin (roundAt (ulp x) (x - turnF32))
  | v => v

/-- A turn more, rounded to the last place of the operand. -/
def turnUp : Flt K → Flt K
  | .fin x => .fin (roundAt (ulp x) (x + turnF32))
  | v => v

/-- `wrapPi` with every operation rounded to binary32. -/
def wrapPiF32 (fuel : Nat) (a : Flt K) : Option (Flt K) := do
  let a ← whileLoop (fun a : Flt K => decide (.fin piF32 < a)) (fun a => some (turnDown a)) fuel a
  whileLoop (fun a : Flt K => decide (a < .fin (-piF32))) (fun a => some (turnUp a)) fuel a

/-- The magnitude of the angle is below 2^27, where a turn still changes it enough. -/
def Small (a : Flt K) : Prop := ∃ x, a = .fin x ∧ |x| < ((2 ^ 27 : ℕ) : K)

/-- The angle is 2^27 or more, or plus infinity, where the first loop does not end. -/
def FarUp (a : Flt K) : Prop := a = .posInf ∨ ∃ x, a = .fin x ∧ ((2 ^ 27 : ℕ) : K) ≤ x

/-- The angle is -2^27 or less, or minus infinity, where the second loop does not end. -/
def FarDown (a : Flt K) : Prop := a = .negInf ∨ ∃ x, a = .fin x ∧ x ≤ -((2 ^ 27 : ℕ) : K)

/-- The angle is below 2^27 in magnitude, or not a number, so both loops end on it. -/
def Wrappable (a : Flt K) : Prop := Small a ∨ a = .nan

omit [FloorRing K] in
/-- The bound of a small angle, with the power of two as a field numeral. -/
theorem small_iff (a : Flt K) : Small a ↔ ∃ x, a = .fin x ∧ |x| < 2 ^ 27 := by
  rw [Small, Nat.cast_pow, Nat.cast_ofNat]

omit [FloorRing K] in
/-- The bound of a far angle above, with the power of two as a field numeral. -/
theorem farUp_iff (a : Flt K) : FarUp a ↔ a = .posInf ∨ ∃ x, a = .fin x ∧ 2 ^ 27 ≤ x := by
  rw [FarUp, Nat.cast_pow, Nat.cast_ofNat]

omit [FloorRing K] in
/-- The bound of a far angle below, with the power of two as a field numeral. -/
theorem farDown_iff (a : Flt K) : FarDown a ↔ a = .negInf ∨ ∃ x, a = .fin x ∧ x ≤ -2 ^ 27 := by
  rw [FarDown, Nat.cast_pow, Nat.cast_ofNat]

/-- The value of a turn is twice that of half a turn, exactly. -/
theorem turnF32_eq : (turnF32 : K) = 2 * piF32 := by
  norm_num [turnF32]

variable [IsStrictOrderedRing K]

/-- Half a turn is between five halves and four, which is all that the loops need of it. -/
theorem piF32_bounds : (5 / 2 : K) < piF32 ∧ (piF32 : K) < 4 := by
  have hq : ((3.14159265359 : ℚ) : K) ≠ 0 := Rat.cast_ne_zero.mpr (by norm_num)
  have hlow : (3 : K) < ((3.14159265359 : ℚ) : K) := by norm_num
  have hhigh : ((3.14159265359 : ℚ) : K) < 7 / 2 := by norm_num
  have hulp : ulp ((3.14159265359 : ℚ) : K) ≤ 2 ^ (2 - 24 : ℤ) := by
    refine ulp_le hq ?_
    rw [abs_of_pos (by linarith)]
    norm_num
  have hsmall : (2 : K) ^ (2 - 24 : ℤ) ≤ 1 := zpow_le_one_of_nonpos₀ one_le_two (by norm_num)
  have hnear := abs_le.mp (abs_roundAt_sub_le (ulp_pos ((3.14159265359 : ℚ) : K)) ((3.14159265359 : ℚ) : K))
  unfold piF32
  constructor
  · linarith [hnear.1]
  · linarith [hnear.2]

/-- Below 2^27 a rounded sum is off by 4 at most. -/
theorem near_of_lt {x : K} (hx : x ≠ 0) (h : |x| < 2 ^ 27) (y : K) : |roundAt (ulp x) y - y| ≤ 4 := by
  have hulp : ulp x ≤ 2 ^ (27 - 24 : ℤ) := ulp_le hx (by exact_mod_cast h)
  calc |roundAt (ulp x) y - y| ≤ ulp x / 2 := abs_roundAt_sub_le (ulp_pos x) y
    _ ≤ 2 ^ (27 - 24 : ℤ) / 2 := div_le_div_of_nonneg_right hulp zero_le_two
    _ = 4 := by norm_num

/-- Taking a turn off an angle below 2^27 lowers it by at least one, and it stays below 2^27 in magnitude. -/
theorem turnDown_lt {x : K} (hx : piF32 < x) (h : |x| < 2 ^ 27) :
    roundAt (ulp x) (x - turnF32) ≤ x - 1 ∧ |roundAt (ulp x) (x - turnF32)| < 2 ^ 27 := by
  obtain ⟨hpi, hpi'⟩ := piF32_bounds (K := K)
  obtain ⟨hlow, hhigh⟩ := abs_le.mp (near_of_lt (by linarith : x ≠ 0) h (x - turnF32))
  obtain ⟨-, hx'⟩ := abs_lt.mp h
  rw [turnF32_eq] at hlow hhigh ⊢
  refine ⟨by linarith, abs_lt.mpr ⟨by linarith, by linarith⟩⟩

/-- Adding a turn to an angle above -2^27 raises it by at least one, and it stays below 2^27 in magnitude. -/
theorem lt_turnUp {x : K} (hx : x < -piF32) (h : |x| < 2 ^ 27) :
    x + 1 ≤ roundAt (ulp x) (x + turnF32) ∧ |roundAt (ulp x) (x + turnF32)| < 2 ^ 27 := by
  obtain ⟨hpi, hpi'⟩ := piF32_bounds (K := K)
  obtain ⟨hlow, hhigh⟩ := abs_le.mp (near_of_lt (by linarith : x ≠ 0) h (x + turnF32))
  obtain ⟨hx', -⟩ := abs_lt.mp h
  rw [turnF32_eq] at hlow hhigh ⊢
  refine ⟨by linarith, abs_lt.mpr ⟨by linarith, by linarith⟩⟩

/-- **On an angle below 2^27 both loops end.** Each turn moves the angle by at least one. -/
theorem wrapPiF32_of_small {a : Flt K} (h : Small a) : ∃ fuel, (wrapPiF32 fuel a).isSome := by
  have hdown : ∃ fuel b, whileLoop (fun a : Flt K => decide (.fin piF32 < a)) (fun a => some (turnDown a))
      fuel a = some b ∧ Small b ∧ decide (.fin piF32 < b) = false := by
    refine whileLoop_descends Small Flt.num piF32 one_pos (fun a ha hc => ?_) h
    obtain ⟨x, rfl, hx⟩ := (small_iff a).mp ha
    rw [decide_eq_true_iff, Flt.fin_lt_fin] at hc
    obtain ⟨hless, hsmall⟩ := turnDown_lt hc hx
    exact ⟨hc, _, rfl, (small_iff _).mpr ⟨_, rfl, hsmall⟩, hless⟩
  obtain ⟨fuel, b, hfirst, hb, -⟩ := hdown
  have hup : ∃ fuel c, whileLoop (fun a : Flt K => decide (a < .fin (-piF32))) (fun a => some (turnUp a))
      fuel b = some c ∧ Small c ∧ decide (c < .fin (-piF32)) = false := by
    refine whileLoop_descends Small (fun a => -a.num) piF32 one_pos (fun a ha hc => ?_) hb
    obtain ⟨x, rfl, hx⟩ := (small_iff a).mp ha
    rw [decide_eq_true_iff, Flt.fin_lt_fin] at hc
    obtain ⟨hmore, hsmall⟩ := lt_turnUp hc hx
    refine ⟨lt_neg_of_lt_neg hc, _, rfl, (small_iff _).mpr ⟨_, rfl, hsmall⟩, ?_⟩
    exact (neg_le_neg hmore).trans_eq (neg_add' _ _)
  obtain ⟨fuel', c, hsecond, -, -⟩ := hup
  refine ⟨max fuel fuel', ?_⟩
  have hrun : wrapPiF32 (max fuel fuel') a = some c := by
    show (whileLoop _ _ _ _).bind _ = _
    rw [whileLoop_mono (Nat.le_max_left fuel fuel') hfirst]
    exact whileLoop_mono (Nat.le_max_right fuel fuel') hsecond
  rw [hrun]
  rfl

/-- From 2^27 on a turn is less than half of the last place. -/
theorem turnF32_lt_half_ulp {x : K} (h : 2 ^ 27 ≤ |x|) : turnF32 < ulp x / 2 ∧ 2 ^ 27 ≤ 2 ^ 23 * ulp x := by
  obtain ⟨-, hpi⟩ := piF32_bounds (K := K)
  have hulp : (2 : K) ^ (27 - 23 : ℤ) ≤ ulp x := le_ulp (by exact_mod_cast h)
  have hvalue : (2 : K) ^ (27 - 23 : ℤ) = 16 := by norm_num
  rw [hvalue] at hulp
  rw [turnF32_eq]
  constructor
  · linarith
  · linarith

/-- A turn off an angle of 2^27 or more leaves 2^27 or more. -/
theorem turnDown_stuck {x : K} (h : 2 ^ 27 ≤ x) : 2 ^ 27 ≤ roundAt (ulp x) (x - turnF32) := by
  have hpos : 0 < x := (by positivity : (0 : K) < 2 ^ 27).trans_le h
  have hu := ulp_pos x
  obtain ⟨hturn, hbound⟩ := turnF32_lt_half_ulp (h.trans (le_abs_self x))
  have hplaces := mul_ulp_le hpos.ne'
  rw [abs_of_pos hpos] at hplaces
  have hnear : ((2 ^ 23 : ℤ) : K) - 1 / 2 < (x - turnF32) / ulp x := by
    rw [lt_div_iff₀ hu, Int.cast_pow, Int.cast_ofNat, sub_mul]
    linarith
  have hround : ((2 ^ 23 : ℤ) : K) ≤ roundHalfEven ((x - turnF32) / ulp x) :=
    Int.cast_le.mpr (le_roundHalfEven_of_near hnear)
  rw [Int.cast_pow, Int.cast_ofNat] at hround
  exact hbound.trans (mul_le_mul_of_nonneg_right hround hu.le)

/-- A turn on top of an angle of -2^27 or less leaves -2^27 or less. -/
theorem turnUp_stuck {x : K} (h : x ≤ -2 ^ 27) : roundAt (ulp x) (x + turnF32) ≤ -2 ^ 27 := by
  have hneg : x < 0 := h.trans_lt (neg_lt_zero.mpr (by positivity))
  have hu := ulp_pos x
  obtain ⟨hturn, hbound⟩ := turnF32_lt_half_ulp ((le_neg_of_le_neg h).trans (neg_le_abs x))
  have hplaces := mul_ulp_le hneg.ne
  rw [abs_of_neg hneg] at hplaces
  have hnear : (x + turnF32) / ulp x < ((-2 ^ 23 : ℤ) : K) + 1 / 2 := by
    rw [div_lt_iff₀ hu, Int.cast_neg, Int.cast_pow, Int.cast_ofNat, add_mul]
    linarith
  have hround : (roundHalfEven ((x + turnF32) / ulp x) : K) ≤ ((-2 ^ 23 : ℤ) : K) :=
    Int.cast_le.mpr (roundHalfEven_le_of_near hnear)
  rw [Int.cast_neg, Int.cast_pow, Int.cast_ofNat] at hround
  exact (mul_le_mul_of_nonneg_right hround hu.le).trans (by linarith)

/-- From 2^27 on the first loop goes on for ever. -/
theorem turnDown_never {a : Flt K} (h : FarUp a) (fuel : Nat) : wrapPiF32 fuel a = none := by
  obtain ⟨-, hpi⟩ := piF32_bounds (K := K)
  have hloop : whileLoop (fun a : Flt K => decide (.fin piF32 < a)) (fun a => some (turnDown a)) fuel a =
      none := by
    refine whileLoop_never (P := FarUp) (fun a ha => ?_) (fun a b ha hrun => ?_) fuel h
    · rcases (farUp_iff a).mp ha with rfl | ⟨x, rfl, hx⟩
      · rfl
      · exact decide_eq_true (Flt.fin_lt_fin.mpr (by linarith))
    · rw [farUp_iff] at ha ⊢
      cases hrun
      rcases ha with rfl | ⟨x, rfl, hx⟩
      · exact .inl rfl
      · exact .inr ⟨_, rfl, turnDown_stuck hx⟩
  show (whileLoop _ _ _ _).bind _ = _
  rw [hloop]
  rfl

/-- From -2^27 down the second loop goes on for ever. -/
theorem turnUp_never {a : Flt K} (h : FarDown a) (fuel : Nat) : wrapPiF32 fuel a = none := by
  obtain ⟨hpi, hpi'⟩ := piF32_bounds (K := K)
  have hfirst : whileLoop (fun a : Flt K => decide (.fin piF32 < a)) (fun a => some (turnDown a)) fuel a =
      some a := by
    refine whileLoop_of_not ?_
    rcases (farDown_iff a).mp h with rfl | ⟨x, rfl, hx⟩
    · rfl
    · exact decide_eq_false (Flt.fin_lt_fin.not.mpr (by linarith))
  have hloop : whileLoop (fun a : Flt K => decide (a < .fin (-piF32))) (fun a => some (turnUp a)) fuel a =
      none := by
    refine whileLoop_never (P := FarDown) (fun a ha => ?_) (fun a b ha hrun => ?_) fuel h
    · rcases (farDown_iff a).mp ha with rfl | ⟨x, rfl, hx⟩
      · rfl
      · exact decide_eq_true (Flt.fin_lt_fin.mpr (by linarith))
    · rw [farDown_iff] at ha ⊢
      cases hrun
      rcases ha with rfl | ⟨x, rfl, hx⟩
      · exact .inl rfl
      · exact .inr ⟨_, rfl, turnUp_stuck hx⟩
  show (whileLoop _ _ _ _).bind _ = _
  rw [hfirst]
  exact hloop

omit [FloorRing K] in
/-- Every angle is small, not a number, or far on one of the two sides. -/
theorem small_or_far (a : Flt K) : Wrappable a ∨ FarUp a ∨ FarDown a := by
  rw [Wrappable, small_iff, farUp_iff, farDown_iff]
  cases a with
  | fin x =>
    rcases lt_or_ge |x| (2 ^ 27) with hsmall | hfar
    · exact .inl (.inl ⟨x, rfl, hsmall⟩)
    · rcases le_abs.mp hfar with hup | hdown
      · exact .inr (.inl (.inr ⟨x, rfl, hup⟩))
      · exact .inr (.inr (.inr ⟨x, rfl, le_neg_of_le_neg hdown⟩))
  | posInf => exact .inr (.inl (.inl rfl))
  | negInf => exact .inr (.inr (.inl rfl))
  | nan => exact .inl (.inr rfl)

/-- **The loops end on an angle below 2^27 and on the not-a-number token, and on no other.** -/
theorem wrapPiF32_returns_iff (a : Flt K) : (∃ fuel, (wrapPiF32 fuel a).isSome) ↔ Wrappable a := by
  constructor
  · rintro ⟨fuel, hsome⟩
    rcases small_or_far a with hwrap | hup | hdown
    · exact hwrap
    · rw [turnDown_never hup fuel] at hsome
      cases hsome
    · rw [turnUp_never hdown fuel] at hsome
      cases hsome
  · rintro (hsmall | rfl)
    · exact wrapPiF32_of_small hsmall
    · exact ⟨0, rfl⟩

/-! ## Calls of `update` -/

variable [FloatEnv K]

omit [FloorRing K] [IsStrictOrderedRing K] in
/-- A call improves when its wrapping does: more loops end. -/
theorem updateBy_improves {wrap wrap' : Flt K → Option (Flt K)} (h : ∀ a, Improves (wrap a) (wrap' a))
    (est : ComplementaryEstimator K) (imu : ImuSample K) (dt : Flt K) :
    Improves (est.updateBy wrap imu dt) (est.updateBy wrap' imu dt) := by
  unfold updateBy
  refine .ite (.refl _) (.ite (.refl _) ?_)
  exact .bind (h _) fun roll => .bind (h _) fun pitch => .bind (h _) fun yaw => .refl _

omit [IsStrictOrderedRing K] [FloatEnv K] in
/-- The wrapping improves with its budget. -/
theorem wrapPiF32_improves {fuel fuel' : Nat} (hle : fuel ≤ fuel') (a : Flt K) :
    Improves (wrapPiF32 fuel a) (wrapPiF32 fuel' a) :=
  .bind (.whileLoop hle a) fun b => .whileLoop hle b

/-- The call can be made: the angles it wraps, if it wraps any, are below 2^27 or not a number. -/
def Admits (est : ComplementaryEstimator K) (imu : ImuSample K) (dt : Flt K) : Prop :=
  est.Fuses imu dt → Wrappable (est.rollBlend imu dt) ∧ Wrappable (est.pitchBlend imu dt) ∧
    Wrappable (est.yawTurned imu dt)

/-- Every loop that the call runs ends within some budget. -/
def Returns (est : ComplementaryEstimator K) (imu : ImuSample K) (dt : Flt K) : Prop :=
  ∃ fuel, (est.updateBy (wrapPiF32 fuel) imu dt).isSome

/-- A call that returns has wrapped its angles, so all of them meet the condition under which wrapping
ends. -/
theorem Returns.admits {est : ComplementaryEstimator K} {imu : ImuSample K} {dt : Flt K}
    (h : est.Returns imu dt) : est.Admits imu dt := by
  intro hfuses
  obtain ⟨fuel, hsome⟩ := h
  rw [updateBy_of_fuses hfuses] at hsome
  obtain ⟨est', hsome⟩ := Option.isSome_iff_exists.mp hsome
  obtain ⟨r, hr, hsome⟩ := Option.bind_eq_some_iff.mp hsome
  obtain ⟨p, hp, hsome⟩ := Option.bind_eq_some_iff.mp hsome
  obtain ⟨y, hy, -⟩ := Option.bind_eq_some_iff.mp hsome
  have hwrapped {a b : Flt K} (hrun : wrapPiF32 fuel a = some b) : Wrappable a :=
    (wrapPiF32_returns_iff a).mp ⟨fuel, hrun ▸ rfl⟩
  exact ⟨hwrapped hr, hwrapped hp, hwrapped hy⟩

/-- **A call of `update` returns exactly when its angles can be wrapped.** -/
theorem returns_iff (est : ComplementaryEstimator K) (imu : ImuSample K) (dt : Flt K) :
    est.Returns imu dt ↔ est.Admits imu dt := by
  refine ⟨Returns.admits, fun h => ?_⟩
  by_cases hfuses : est.Fuses imu dt
  · obtain ⟨hroll, hpitch, hyaw⟩ := h hfuses
    have hends {a : Flt K} (ha : Wrappable a) : ∃ fuel b, wrapPiF32 fuel a = some b := by
      obtain ⟨fuel, hsome⟩ := (wrapPiF32_returns_iff a).mpr ha
      exact ⟨fuel, Option.isSome_iff_exists.mp hsome⟩
    obtain ⟨m, r, hr⟩ := hends hroll
    obtain ⟨n, p, hp⟩ := hends hpitch
    obtain ⟨k, y, hy⟩ := hends hyaw
    have hfuse : fuseBy (wrapPiF32 (max m (max n k))) est.counted imu dt = some _ := fuseBy_eq_some
      (wrapPiF32_improves (Nat.le_max_left m _) _ r hr)
      (wrapPiF32_improves ((Nat.le_max_left n k).trans (Nat.le_max_right m _)) _ p hp)
      (wrapPiF32_improves ((Nat.le_max_right n k).trans (Nat.le_max_right m _)) _ y hy)
    refine ⟨max m (max n k), ?_⟩
    rw [updateBy_of_fuses hfuses, hfuse]
    rfl
  · exact ⟨0, updateBy_of_not_fuses hfuses _⟩

/-! ## Sequences of calls -/

/-- A call to the estimator: a reset, a sample of the calibration or an update. -/
inductive Call (K : Type) where
  | reset
  | calibrateUpdate (imu : ImuSample K)
  | update (imu : ImuSample K) (dt : Flt K)

/-- The estimator after a call that returns, as the step of a transition system. -/
def callStep (est : ComplementaryEstimator K) (call : Call K) (est' : ComplementaryEstimator K)
    (_ : Unit) : Prop :=
  match call with
  | .reset => est' = est.reset
  | .calibrateUpdate imu => est' = est.calibrateUpdate imu
  | .update imu dt => ∃ fuel, est.updateBy (wrapPiF32 fuel) imu dt = some est'

/-- The call can be made without hanging in one of its loops. -/
def AdmitsCall (est : ComplementaryEstimator K) : Call K → Prop
  | .update imu dt => est.Admits imu dt
  | _ => True

omit [IsStrictOrderedRing K] in
/-- A call has one result only, whatever its budget. -/
theorem callStep_det (a : ComplementaryEstimator K) (call : Call K) (b : ComplementaryEstimator K) (o : Unit)
    (b' : ComplementaryEstimator K) (o' : Unit) (h : callStep a call b o) (h' : callStep a call b' o') :
    b = b' ∧ o = o' := by
  refine ⟨?_, rfl⟩
  cases call with
  | reset => exact Eq.trans h (Eq.symm h')
  | calibrateUpdate imu => exact Eq.trans h (Eq.symm h')
  | update imu dt =>
    obtain ⟨m, hm⟩ := h
    obtain ⟨n, hn⟩ := h'
    have hm' := updateBy_improves (wrapPiF32_improves (Nat.le_max_left m n)) a imu dt b hm
    have hn' := updateBy_improves (wrapPiF32_improves (Nat.le_max_right m n)) a imu dt b' hn
    exact Option.some.inj (hm'.symm.trans hn')

/-- A call returns exactly when it can be made, on any estimator. -/
theorem callStep_iff (est : ComplementaryEstimator K) (call : Call K) :
    (∃ est' o, callStep est call est' o) ↔ est.AdmitsCall call := by
  cases call with
  | reset => exact iff_of_true ⟨_, (), rfl⟩ trivial
  | calibrateUpdate imu => exact iff_of_true ⟨_, (), rfl⟩ trivial
  | update imu dt =>
    rw [AdmitsCall, ← returns_iff]
    constructor
    · rintro ⟨est', -, fuel, hrun⟩
      exact ⟨fuel, hrun ▸ rfl⟩
    · rintro ⟨fuel, hsome⟩
      obtain ⟨est', hrun⟩ := Option.isSome_iff_exists.mp hsome
      exact ⟨est', (), fuel, hrun⟩

/-- **When the wrapping loops end.** In every state, the reachable ones among them, a call returns exactly
when the angles it wraps are below 2^27 or not a number; and a sequence of calls from a reset returns
exactly when every call of it meets that condition where the calls before it lead to. -/
theorem wraps_iff :
    (∀ (est : ComplementaryEstimator K) (imu : ImuSample K) (dt : Flt K),
      est.Returns imu dt ↔ est.Admits imu dt) ∧
    ∀ calls : List (Call K), (∃ es est, Run callStep new es est ∧ es.map Event.inp = calls) ↔
      ∀ before call after, calls = before ++ call :: after →
        ∀ es est, Run callStep new es est → es.map Event.inp = before → est.AdmitsCall call := by
  refine ⟨returns_iff, fun calls => ?_⟩
  rw [Run.exists_iff_enabled callStep_det]
  simp only [callStep_iff]

/-! ## A spin that hangs -/

/-- A sample at rest, with this bit pattern for the roll rate. -/
def spinning (roll : UInt32) : ImuSample ℚ :=
  ⟨fun i => .ofBits (![roll, 0, 0] i), fun i => .ofBits (![0, 0, 0xC11CF5C3] i), fun _ => 0, 0, 0, true⟩

/-- The estimator at whose turn it is to fuse: the next accepted sample is fused. -/
def turning : ComplementaryEstimator ℚ := { new with decim := 1 }

/-- On a sample at rest, the fusing call of the estimator `turning` returns. -/
theorem wraps_iff_rest : turning.Returns (spinning 0) (.fin (1 / 1000)) :=
  ((wraps_iff (K := ℚ)).1 _ _ _).mpr fun _ =>
    ⟨.inl ⟨0, by decide +kernel, by norm_num⟩, .inl ⟨0, by decide +kernel, by norm_num⟩,
      .inl ⟨0, by decide +kernel, by norm_num⟩⟩

/-- A roll rate of 2^100 rad/s, which is a finite binary32 number, hangs the first fusing call. -/
theorem not_wraps : ¬ ∀ (est : ComplementaryEstimator ℚ) (imu : ImuSample ℚ), Reach callStep new est →
    rejects imu (.fin (1 / 1000)) = false →
    (∀ i, ∃ b : UInt32, imu.gyroRps i = .ofBits b) → (∀ i, ∃ b : UInt32, imu.accelMps2 i = .ofBits b) →
    est.Returns imu (.fin (1 / 1000)) := by
  intro h
  have hfirst : new.updateBy (wrapPiF32 0) (spinning 0) (.fin (1 / 1000)) = some turning := by
    rw [updateBy, if_neg (by decide +kernel)]
    exact if_pos (by decide)
  have hreach : Reach callStep new turning :=
    .single (i := .update (spinning 0) (.fin (1 / 1000))) (o := ()) ⟨0, hfirst⟩
  have hgood : rejects (spinning 0x71800000) (.fin (1 / 1000)) = false := by decide +kernel
  have hroll : turning.rollBlend (spinning 0x71800000) (.fin (1 / 1000)) =
      .fin (0.998 * (2 ^ 100 * (1 / 1000 * 2))) := by decide +kernel
  have hreturns := h turning _ hreach hgood (fun i => ⟨_, rfl⟩) fun i => ⟨_, rfl⟩
  rcases (hreturns.admits ⟨hgood, le_rfl⟩).1 with ⟨x, hx, hsmall⟩ | hnan
  · rw [hroll] at hx
    cases hx
    norm_num at hsmall
  · rw [hroll] at hnan
    cases hnan

end ComplementaryEstimator

end DroneMini
