import DroneMini.Flight.Mirror
import Mathlib.Data.Set.Finite.Lemmas
import Mathlib.Data.Set.Finite.List
import Mathlib.Tactic.Linarith

/-!
# What a PID unit keeps over a run of steps

Any sequence of steps of a unit with non-negative integral gain and limits, in exact arithmetic: inputs
may be non-finite, time steps of either sign, the saturation flags anything. `Tracks` is the invariant:
the integral is within its limit, and the derivative filter within the hull of zero and the slopes of the
measurements that were accepted. `pid_state` sums up what every step does, and that the filter does not
see the setpoints.
-/

namespace DroneMini

variable {K : Type} [Field K] [LinearOrder K]

/-- The arguments of `Pid::setGains`, with an integral gain and limits that are numbers and not negative. -/
structure Gains (K : Type) [Field K] [LinearOrder K] where
  kp : Flt K
  ki : K
  kd : Flt K
  iLimit : K
  outLimit : K
  dLpfHz : Flt K
  ki_nonneg : 0 ≤ ki
  iLimit_nonneg : 0 ≤ iLimit
  outLimit_nonneg : 0 ≤ outLimit

/-- The arguments of one call of `Pid::step`, whose time step is a number. -/
structure PidInput (K : Type) where
  sp : Flt K
  meas : Flt K
  dt : K
  satPos : Bool
  satNeg : Bool

/-- The step is not rejected: both inputs are finite and the time step is positive. -/
def PidInput.Accepted (inp : PidInput K) : Prop :=
  inp.sp.isFinite = true ∧ inp.meas.isFinite = true ∧ 0 < inp.dt

instance (inp : PidInput K) : Decidable inp.Accepted := inferInstanceAs (Decidable (_ ∧ _ ∧ _))

/-- The slopes between neighbouring measurements, each with the time step of the later one. -/
def slopes : List (K × K) → List K
  | a :: b :: rest => (b.1 - a.1) / b.2 :: slopes (b :: rest)
  | _ => []

omit [LinearOrder K] in
/-- One more measurement gives one more slope, unless it is the first. -/
theorem slopes_concat (l : List (K × K)) (b : K × K) :
    slopes (l ++ [b]) = slopes l ++ (l.getLast?.map fun a => (b.1 - a.1) / b.2).toList := by
  induction l with
  | nil => rfl
  | cons a l ih =>
    cases l with
    | nil => rfl
    | cons c l =>
      rw [List.cons_append, List.cons_append, slopes, ← List.cons_append, ih, slopes, List.cons_append,
        List.getLast?_cons_cons]

variable [FloatEnv K]

namespace Pid

/-- The unit with given gains and limits, as it stands after a reset. -/
def ofArgs (g : Gains K) : Pid K :=
  (ofGains g.kp (.fin g.ki) g.kd (.fin g.iLimit) (.fin g.outLimit) g.dLpfHz).reset

/-- One call of `Pid::step`, as the step of a transition system. -/
def stepRel (pid : Pid K) (inp : PidInput K) (pid' : Pid K) (out : Flt K) : Prop :=
  pid.step inp.sp inp.meas (.fin inp.dt) inp.satPos inp.satNeg = (pid', out)

/-- One call of `Pid::step`, as an event of a run. -/
abbrev Step (K : Type) := Event (Pid K) (PidInput K) (Flt K)

/-- The measurements of the steps that were not rejected, with their time steps. -/
def measured (es : List (Step K)) : List (K × K) :=
  es.filterMap fun e => if e.inp.Accepted then some (e.inp.meas.num, e.inp.dt) else none

/-- Zero and the slopes between successive measurements so far, among which the filter moves. -/
def slopeSet (es : List (Step K)) : Set K := { s | s ∈ 0 :: slopes (measured es) }

omit [FloatEnv K] in
/-- A step adds one measurement to the history, unless it is rejected. -/
theorem measured_concat (es : List (Step K)) (e : Step K) : measured (es ++ [e]) =
    measured es ++ if e.inp.Accepted then [(e.inp.meas.num, e.inp.dt)] else [] := by
  unfold measured
  rw [List.filterMap_append]
  congr 1
  split_ifs with h
  · exact List.filterMap_cons_some (if_pos h)
  · exact List.filterMap_cons_none (if_neg h)

omit [FloatEnv K] in
/-- The checks at the head of `step` reject exactly the calls that are not accepted. -/
theorem rejects_eq_false_iff (inp : PidInput K) :
    rejects inp.sp inp.meas (.fin inp.dt) = false ↔ inp.Accepted := by
  simp [rejects, PidInput.Accepted, and_assoc]

/-- A rejected step returns zero and leaves the unit as it is. -/
theorem step_of_rejected {pid : Pid K} {inp : PidInput K} (h : ¬ inp.Accepted) :
    pid.step inp.sp inp.meas (.fin inp.dt) inp.satPos inp.satNeg = (pid, 0) := by
  have hrejects : rejects inp.sp inp.meas (.fin inp.dt) = true := by
    rw [← Bool.not_eq_false, rejects_eq_false_iff]
    exact h
  rw [step, if_pos hrejects]

/-- The integral after a step that is not rejected: held, or moved by the error and clamped. -/
def integrated (pid : Pid K) (e dt : Flt K) (satPos satNeg : Bool) : Flt K :=
  if (satPos && decide (0 < e)) || (satNeg && decide (e < 0)) then pid.i else pid.iMoved e dt

/-- What a step that is not rejected leaves in the unit, and what it returns. -/
theorem step_of_accepted {pid : Pid K} {inp : PidInput K} (h : inp.Accepted) :
    pid.step inp.sp inp.meas (.fin inp.dt) inp.satPos inp.satNeg =
      ({ pid with
          i := pid.integrated (inp.sp - inp.meas) (.fin inp.dt) inp.satPos inp.satNeg
          dFilt := pid.dNext inp.meas (.fin inp.dt)
          measPrev := inp.meas
          hasPrev := true },
        pid.outOf (inp.sp - inp.meas)
          (pid.integrated (inp.sp - inp.meas) (.fin inp.dt) inp.satPos inp.satNeg)
          (pid.dNext inp.meas (.fin inp.dt))) := by
  have hrejects := (rejects_eq_false_iff inp).mpr h
  rw [step, if_neg (by rw [hrejects]; decide)]
  rfl

/-! ## The invariant -/

/-- What a unit is after a run: it has its gains, the integral is within its limit, the last measurement
is remembered, and the filter is between two of zero and the slopes so far. -/
structure Tracks (g : Gains K) (hist : List (Step K)) (pid : Pid K) : Prop where
  gains : pid.reset = ofArgs g
  integral : ∃ x, pid.i = .fin x ∧ |x| ≤ g.iLimit
  prev : match (measured hist).getLast? with
    | none => pid.hasPrev = false
    | some a => pid.hasPrev = true ∧ pid.measPrev = .fin a.1
  filter : ∃ d, pid.dFilt = .fin d ∧ (∃ lo ∈ slopeSet hist, lo ≤ d) ∧ ∃ hi ∈ slopeSet hist, d ≤ hi

section Exact
variable [IsStrictOrderedRing K] [ExactArith K]

omit [ExactArith K] in
/-- A unit after a reset has the invariant with an empty history. -/
theorem tracks_nil (g : Gains K) : Tracks g [] (ofArgs g) where
  gains := rfl
  integral := ⟨0, rfl, by rw [abs_zero]; exact g.iLimit_nonneg⟩
  prev := rfl
  filter := ⟨0, rfl, ⟨0, List.mem_cons_self, le_rfl⟩, 0, List.mem_cons_self, le_rfl⟩

/-- **The integral of a step**: within its limit, and not pushed to a side that is saturated. -/
theorem integrated_fin {pid : Pid K} {x k l e dt : K} (hi : pid.i = .fin x) (hki : pid.ki = .fin k)
    (hlimit : pid.iLimit = .fin l) (hk : 0 ≤ k) (hl : 0 ≤ l) (hx : |x| ≤ l) (hdt : 0 < dt)
    (satPos satNeg : Bool) : ∃ y, pid.integrated (.fin e) (.fin dt) satPos satNeg = .fin y ∧ |y| ≤ l ∧
      (satPos = true → y ≤ x) ∧ (satNeg = true → x ≤ y) := by
  obtain ⟨hlow, hhigh⟩ := abs_le.mp hx
  unfold integrated
  split_ifs with hblock
  · exact ⟨x, hi, hx, fun _ => le_rfl, fun _ => le_rfl⟩
  · have hmoved : pid.iMoved (.fin e) (.fin dt) = .fin (max (min l (x + k * e * dt)) (-l)) := by
      rw [iMoved, hi, hki, hlimit, Flt.fin_mul_fin, Flt.fin_mul_fin, Flt.fin_add_fin, clampSym_fin]
    refine ⟨_, hmoved, abs_le.mpr ⟨le_max_right _ _, max_le (min_le_left _ _) (neg_le_self hl)⟩,
      fun hsat => ?_, fun hsat => ?_⟩
    · -- nothing is held, so the error does not point to the saturated side
      have he : e ≤ 0 := by
        by_contra hpos
        exact hblock (by simp [hsat, not_le.mp hpos])
      have hstep : k * e * dt ≤ 0 :=
        mul_nonpos_of_nonpos_of_nonneg (mul_nonpos_of_nonneg_of_nonpos hk he) hdt.le
      exact max_le ((min_le_right _ _).trans (add_le_of_nonpos_right hstep)) hlow
    · have he : 0 ≤ e := by
        by_contra hneg
        exact hblock (by simp [hsat, not_le.mp hneg])
      have hstep : 0 ≤ k * e * dt := mul_nonneg (mul_nonneg hk he) hdt.le
      exact (le_min hhigh (le_add_of_nonneg_right hstep)).trans (le_max_left _ _)

/-- The time constant of the filter is a number that is not negative. -/
theorem ofArgs_dTau (g : Gains K) : ∃ tau, 0 ≤ tau ∧ (ofArgs g).dTau = .fin tau := by
  have hpi : (kTwoPi : Flt K) = .fin ((6.28318530718 : ℚ) : K) := Flt.lit_eq _
  have htwopi : (0 : K) < ((6.28318530718 : ℚ) : K) := Rat.cast_pos.mpr (by norm_num)
  change ∃ tau, 0 ≤ tau ∧ (if 0 < g.dLpfHz then 1 / (kTwoPi * g.dLpfHz) else 0 : Flt K) = .fin tau
  rw [hpi]
  cases hlpf : g.dLpfHz with
  | fin f =>
    rw [Flt.zero_def, Flt.fin_mul_fin, Flt.one_def]
    by_cases hf : 0 < f
    · have hpos := mul_pos htwopi hf
      refine ⟨1 / (((6.28318530718 : ℚ) : K) * f), (one_div_pos.mpr hpos).le, ?_⟩
      rw [if_pos (Flt.fin_lt_fin.mpr hf), Flt.fin_div_fin _ hpos.ne']
    · exact ⟨0, le_rfl, if_neg (Flt.fin_lt_fin.not.mpr hf)⟩
  | posInf =>
    have hprod : (.fin ((6.28318530718 : ℚ) : K) * .posInf : Flt K) = .posInf := by
      change Flt.infOfSign (decide (0 < _)) (decide (_ = 0)) = Flt.posInf
      rw [decide_eq_true htwopi, decide_eq_false htwopi.ne']
      rfl
    refine ⟨0, le_rfl, ?_⟩
    rw [hprod]
    rfl
  | negInf => exact ⟨0, le_rfl, rfl⟩
  | nan => exact ⟨0, le_rfl, rfl⟩

/-- **The filter moves towards the slope**, by a coefficient between zero and one. -/
theorem dNext_fin {pid : Pid K} {tau d slope : K} {meas : Flt K} {dt : K} (hdt : 0 < dt) (htau : 0 ≤ tau)
    (hTau : pid.dTau = .fin tau) (hd : pid.dFilt = .fin d)
    (hslope : (if pid.hasPrev then (meas - pid.measPrev) / .fin dt else 0 : Flt K) = .fin slope) :
    ∃ a, 0 ≤ a ∧ a ≤ 1 ∧ pid.dNext meas (.fin dt) = .fin (d + a * (slope - d)) := by
  have halpha : ∃ a, 0 ≤ a ∧ a ≤ 1 ∧
      (if 0 < pid.dTau then .fin dt / (pid.dTau + .fin dt) else 1 : Flt K) = .fin a := by
    have hsum : 0 < tau + dt := add_pos_of_nonneg_of_pos htau hdt
    rw [hTau]
    split_ifs with hpos
    · refine ⟨dt / (tau + dt), div_nonneg hdt.le hsum.le, ?_, ?_⟩
      · exact (div_le_one hsum).mpr (le_add_of_nonneg_left htau)
      · rw [Flt.fin_add_fin, Flt.fin_div_fin _ hsum.ne']
    · exact ⟨1, zero_le_one, le_rfl, rfl⟩
  obtain ⟨a, ha0, ha1, ha⟩ := halpha
  refine ⟨a, ha0, ha1, ?_⟩
  rw [dNext, ha, hslope, hd, Flt.fin_sub_fin, Flt.fin_mul_fin, Flt.fin_add_fin]

omit [ExactArith K] in
/-- The output of a step is a number, of a magnitude within its limit. -/
theorem outOf_range (pid : Pid K) {l : K} (hlimit : pid.outLimit = .fin l) (hl : 0 ≤ l) (e i d : Flt K) :
    ∃ y, pid.outOf e i d = .fin y ∧ |y| ≤ l := by
  have hclamp (v : Flt K) : ∃ y, (if (clampSym v (.fin l)).isFinite then clampSym v (.fin l) else 0 : Flt K)
      = .fin y ∧ |y| ≤ l := by
    cases v with
    | fin x =>
      rw [clampSym_fin]
      exact ⟨_, rfl, abs_le.mpr ⟨le_max_right _ _, max_le (min_le_left _ _) (neg_le_self hl)⟩⟩
    | posInf =>
      rw [clampSym_posInf hl]
      exact ⟨l, rfl, (abs_of_nonneg hl).le⟩
    | negInf =>
      rw [clampSym_negInf]
      exact ⟨-l, rfl, by rw [abs_neg, abs_of_nonneg hl]⟩
    | nan => exact ⟨0, rfl, by rwa [abs_zero]⟩
  unfold outOf
  rw [hlimit]
  exact hclamp _

omit [IsStrictOrderedRing K] in
/-- The slope that a step measures is one of the slopes so far. -/
theorem Tracks.slope {g : Gains K} {hist : List (Step K)} {e : Step K} (h : Tracks g hist e.pre)
    (hacc : e.inp.Accepted) : ∃ s ∈ slopeSet (hist ++ [e]),
      (if e.pre.hasPrev then (e.inp.meas - e.pre.measPrev) / .fin e.inp.dt else 0 : Flt K) = .fin s := by
  obtain ⟨m, hm⟩ := Flt.eq_fin_of_isFinite hacc.2.1
  have hmeasured : slopeSet (hist ++ [e]) =
      { s | s ∈ 0 :: slopes (measured hist ++ [(m, e.inp.dt)]) } := by
    rw [slopeSet, measured_concat, if_pos hacc, hm]
    rfl
  have hprev := h.prev
  rw [hmeasured, slopes_concat]
  cases hlast : (measured hist).getLast? with
  | none =>
    rw [hlast] at hprev
    exact ⟨0, List.mem_cons_self, if_neg (by rw [hprev]; exact Bool.false_ne_true)⟩
  | some a =>
    rw [hlast] at hprev
    refine ⟨(m - a.1) / e.inp.dt, List.mem_cons_of_mem _ (List.mem_append_right _ ?_), ?_⟩
    · exact List.mem_singleton_self _
    · rw [if_pos hprev.1, hprev.2, hm, Flt.fin_sub_fin, Flt.fin_div_fin _ hacc.2.2.ne']

omit [FloatEnv K] [IsStrictOrderedRing K] [ExactArith K] in
/-- One more call leaves the slopes so far among the slopes. -/
theorem slopeSet_mono (hist : List (Step K)) (e : Step K) : slopeSet hist ⊆ slopeSet (hist ++ [e]) := by
  intro s hs
  rw [slopeSet, measured_concat]
  split_ifs with hacc
  · rw [slopes_concat]
    rcases List.mem_cons.mp hs with rfl | hs
    · exact List.mem_cons_self
    · exact List.mem_cons_of_mem _ (List.mem_append_left _ hs)
  · rwa [List.append_nil]

omit [FloatEnv K] [ExactArith K] in
/-- A filter that moves part of the way to one of the slopes stays between two of them. -/
theorem hull_move {S : Set K} {d a s : K} (hlo : ∃ lo ∈ S, lo ≤ d) (hhi : ∃ hi ∈ S, d ≤ hi) (hs : s ∈ S)
    (ha0 : 0 ≤ a) (ha1 : a ≤ 1) :
    (∃ lo ∈ S, lo ≤ d + a * (s - d)) ∧ ∃ hi ∈ S, d + a * (s - d) ≤ hi := by
  obtain ⟨lo, hloS, hlo⟩ := hlo
  obtain ⟨hi, hhiS, hhi⟩ := hhi
  rcases le_total d s with hds | hsd
  · have hup : 0 ≤ a * (s - d) := mul_nonneg ha0 (sub_nonneg.mpr hds)
    have hmost : a * (s - d) ≤ s - d := mul_le_of_le_one_left (sub_nonneg.mpr hds) ha1
    exact ⟨⟨lo, hloS, by linarith⟩, s, hs, by linarith⟩
  · have hdown : a * (s - d) ≤ 0 := mul_nonpos_of_nonneg_of_nonpos ha0 (sub_nonpos.mpr hsd)
    have hmost : s - d ≤ a * (s - d) := le_mul_of_le_one_left (sub_nonpos.mpr hsd) ha1
    exact ⟨⟨s, hs, by linarith⟩, hi, hhiS, by linarith⟩

omit [FloatEnv K] [IsStrictOrderedRing K] [ExactArith K] in
/-- Among finitely many slopes there is a least and a greatest. -/
theorem slopeSet_bounds (hist : List (Step K)) :
    (∃ lo, IsLeast (slopeSet hist) lo) ∧ ∃ hi, IsGreatest (slopeSet hist) hi := by
  have hfinite : (slopeSet hist).Finite := List.finite_toSet _
  have hzero : (slopeSet hist).Nonempty := ⟨0, List.mem_cons_self⟩
  obtain ⟨lo, hlo, hleast⟩ := Set.exists_min_image _ id hfinite hzero
  obtain ⟨hi, hhi, hgreatest⟩ := Set.exists_max_image _ id hfinite hzero
  exact ⟨⟨lo, hlo, hleast⟩, hi, hhi, hgreatest⟩

/-- What one call does, after a history of calls. -/
structure StepSpec (g : Gains K) (hist : List (Step K)) (e : Step K) : Prop where
  integral : ∃ x y, e.pre.i = .fin x ∧ e.post.i = .fin y ∧ |y| ≤ g.iLimit ∧
    (e.inp.satPos = true → y ≤ x) ∧ (e.inp.satNeg = true → x ≤ y)
  output : ∃ y, e.out = .fin y ∧ |y| ≤ g.outLimit
  filter : ∃ d lo hi, e.post.dFilt = .fin d ∧ IsLeast (slopeSet (hist ++ [e])) lo ∧
    IsGreatest (slopeSet (hist ++ [e])) hi ∧ lo ≤ d ∧ d ≤ hi
  rejected : ¬ e.inp.Accepted → e.out = 0 ∧ e.post = e.pre

omit [IsStrictOrderedRing K] [ExactArith K] in
/-- A call that is rejected keeps the invariant, since it adds nothing to the history. -/
theorem Tracks.of_rejected {g : Gains K} {hist : List (Step K)} {e : Step K} (h : Tracks g hist e.pre)
    (hpost : e.post = e.pre) (hacc : ¬ e.inp.Accepted) : Tracks g (hist ++ [e]) e.post := by
  have hmeasured : measured (hist ++ [e]) = measured hist := by
    rw [measured_concat, if_neg hacc, List.append_nil]
  rw [hpost]
  refine ⟨h.gains, h.integral, ?_, ?_⟩
  · rw [hmeasured]
    exact h.prev
  · rw [slopeSet, hmeasured]
    exact h.filter

/-- **A step keeps the invariant**, and does what `StepSpec` says. -/
theorem Tracks.step {g : Gains K} {hist : List (Step K)} {e : Step K} (h : Tracks g hist e.pre)
    (hstep : stepRel e.pre e.inp e.post e.out) :
    Tracks g (hist ++ [e]) e.post ∧ StepSpec g hist e := by
  obtain ⟨x, hi, hx⟩ := h.integral
  obtain ⟨d, hd, hlo, hhi⟩ := h.filter
  -- the filter's bounds among the slopes are its bounds in the statement
  have hspec {d'} (hlo : ∃ lo ∈ slopeSet (hist ++ [e]), lo ≤ d')
      (hhi : ∃ hi ∈ slopeSet (hist ++ [e]), d' ≤ hi) (hd : e.post.dFilt = .fin d') :
      ∃ d lo hi, e.post.dFilt = .fin d ∧ IsLeast (slopeSet (hist ++ [e])) lo ∧
        IsGreatest (slopeSet (hist ++ [e])) hi ∧ lo ≤ d ∧ d ≤ hi := by
    obtain ⟨⟨lo, hleast⟩, hi, hgreatest⟩ := slopeSet_bounds (hist ++ [e])
    obtain ⟨lo', hlo', hlod⟩ := hlo
    obtain ⟨hi', hhi', hdhi⟩ := hhi
    exact ⟨d', lo, hi, hd, hleast, hgreatest, (hleast.2 hlo').trans hlod, hdhi.trans (hgreatest.2 hhi')⟩
  by_cases hacc : e.inp.Accepted
  · obtain ⟨hpost, hout⟩ := Prod.mk.inj ((step_of_accepted hacc).symm.trans hstep)
    obtain ⟨hsp, hmeas, hdt⟩ := id hacc
    obtain ⟨sp, hsp⟩ := Flt.eq_fin_of_isFinite hsp
    obtain ⟨m, hm⟩ := Flt.eq_fin_of_isFinite hmeas
    have hsub : e.inp.sp - e.inp.meas = .fin (sp - m) := by rw [hsp, hm, Flt.fin_sub_fin]
    rw [hsub] at hpost hout
    -- the integral
    have hki : e.pre.ki = .fin g.ki := congrArg Pid.ki h.gains
    have hilimit : e.pre.iLimit = .fin g.iLimit := congrArg Pid.iLimit h.gains
    obtain ⟨y, hy, hylimit, hpos, hneg⟩ := integrated_fin (e := sp - m) hi hki hilimit g.ki_nonneg
      g.iLimit_nonneg hx hdt e.inp.satPos e.inp.satNeg
    -- the filter
    obtain ⟨tau, htau, hTau⟩ := ofArgs_dTau g
    have hdTau : e.pre.dTau = .fin tau := (congrArg Pid.dTau h.gains).trans hTau
    obtain ⟨s, hs, hslope⟩ := h.slope hacc
    obtain ⟨a, ha0, ha1, hnext⟩ := dNext_fin hdt htau hdTau hd hslope
    have hsub := slopeSet_mono hist e
    have hhull := hull_move (hlo.imp fun _ hl => ⟨hsub hl.1, hl.2⟩) (hhi.imp fun _ hh => ⟨hsub hh.1, hh.2⟩)
      hs ha0 ha1
    -- the output
    obtain ⟨out, hval, hrange⟩ := outOf_range e.pre (congrArg Pid.outLimit h.gains) g.outLimit_nonneg
      (.fin (sp - m)) (e.pre.integrated (.fin (sp - m)) (.fin e.inp.dt) e.inp.satPos e.inp.satNeg)
      (e.pre.dNext e.inp.meas (.fin e.inp.dt))
    have hposti : e.post.i = .fin y := hpost ▸ hy
    have hpostd : e.post.dFilt = .fin (d + a * (s - d)) := hpost ▸ hnext
    refine ⟨⟨?_, ⟨y, hposti, hylimit⟩, ?_, ⟨_, hpostd, hhull⟩⟩, ⟨x, y, hi, hposti, hylimit, hpos, hneg⟩,
      ⟨out, hout.symm.trans hval, hrange⟩, hspec hhull.1 hhull.2 hpostd, fun hrej => absurd hacc hrej⟩
    · rw [← hpost]
      exact h.gains
    · rw [measured_concat, if_pos hacc, List.getLast?_concat, ← hpost, hm]
      exact ⟨rfl, rfl⟩
  · obtain ⟨hpost, hout⟩ := Prod.mk.inj ((step_of_rejected hacc).symm.trans hstep)
    have htracks := h.of_rejected hpost.symm hacc
    obtain ⟨d', hd', hlo', hhi'⟩ := htracks.filter
    refine ⟨htracks, ⟨x, x, hi, hpost ▸ hi, hx, fun _ => le_rfl, fun _ => le_rfl⟩, ?_,
      hspec hlo' hhi' hd', ?_⟩
    · exact ⟨0, hout.symm, by rw [abs_zero]; exact g.outLimit_nonneg⟩
    · exact fun _ => ⟨hout.symm, hpost.symm⟩

/-- Two steps with one measurement and one time step, and setpoints that are both numbers or both not. -/
def SameMeasurement (p : Step K × Step K) : Prop :=
  p.1.inp.meas = p.2.inp.meas ∧ p.1.inp.dt = p.2.inp.dt ∧
    p.1.inp.sp.isFinite = p.2.inp.sp.isFinite

/-- Two units agree in all that the derivative filter is made of. -/
structure FilterEq (pid pid' : Pid K) : Prop where
  dTau : pid.dTau = pid'.dTau
  dFilt : pid.dFilt = pid'.dFilt
  measPrev : pid.measPrev = pid'.measPrev
  hasPrev : pid.hasPrev = pid'.hasPrev

omit [IsStrictOrderedRing K] [ExactArith K] in
/-- **The filter does not see the setpoint.** Two calls that differ in their setpoints, accepted or rejected
alike, keep two units equal in what the filter is made of. -/
theorem FilterEq.step {p : Step K × Step K} (h : FilterEq p.1.pre p.2.pre) (hsame : SameMeasurement p)
    (hstep : stepRel p.1.pre p.1.inp p.1.post p.1.out)
    (hstep' : stepRel p.2.pre p.2.inp p.2.post p.2.out) : FilterEq p.1.post p.2.post := by
  obtain ⟨hmeas, hdt, hsp⟩ := hsame
  have hiff : p.1.inp.Accepted ↔ p.2.inp.Accepted := by
    rw [PidInput.Accepted, PidInput.Accepted, hmeas, hdt, hsp]
  by_cases hacc : p.1.inp.Accepted
  · obtain ⟨hpost, -⟩ := Prod.mk.inj ((step_of_accepted hacc).symm.trans hstep)
    obtain ⟨hpost', -⟩ := Prod.mk.inj ((step_of_accepted (hiff.mp hacc)).symm.trans hstep')
    have hnext : p.1.pre.dNext p.1.inp.meas (.fin p.1.inp.dt) =
        p.2.pre.dNext p.2.inp.meas (.fin p.2.inp.dt) := by
      rw [dNext, dNext, h.dTau, h.dFilt, h.measPrev, h.hasPrev, hmeas, hdt]
    rw [← hpost, ← hpost']
    exact ⟨h.dTau, hnext, hmeas, rfl⟩
  · obtain ⟨hpost, -⟩ := Prod.mk.inj ((step_of_rejected hacc).symm.trans hstep)
    obtain ⟨hpost', -⟩ := Prod.mk.inj ((step_of_rejected (hiff.not.mp hacc)).symm.trans hstep')
    rwa [← hpost, ← hpost']

/-- **A run of a unit from a reset**: every step keeps the integral and the output within their limits,
does not wind up into a saturated side, and keeps the filter between the least and the greatest of zero
and the slopes so far; a rejected step does nothing. The filter is the same in two runs that measure the
same. -/
theorem pid_state (g : Gains K) :
    (∀ es t, Run stepRel (ofArgs g) es t → Along (StepSpec g) es) ∧
      ∀ (ps : List (Step K × Step K)) t t', Run stepRel (ofArgs g) (ps.map Prod.fst) t →
        Run stepRel (ofArgs g) (ps.map Prod.snd) t' → (∀ p ∈ ps, SameMeasurement p) →
        ∀ p ∈ ps, p.1.post.dFilt = p.2.post.dFilt := by
  constructor
  · intro es t h
    have hrun : Tracks g es t ∧ Along (StepSpec g) es := by
      refine h.history (P := fun hist pid => Tracks g hist pid ∧ Along (StepSpec g) hist)
        ⟨tracks_nil g, ?_⟩ ?_
      · intro hist e later hnil
        simp at hnil
      · rintro hist e ⟨htracks, halong⟩ hstep
        obtain ⟨hnext, hspec⟩ := htracks.step hstep
        exact ⟨hnext, along_snoc.mpr ⟨halong, hspec⟩⟩
    exact hrun.2
  · intro ps t t' h h' hsame p hp
    have hpair := h.pair (P := FilterEq) h' ⟨rfl, rfl, rfl, rfl⟩ fun p hp hpre hs hs' =>
      hpre.step (hsame p hp) hs hs'
    exact (hpair.2 p hp).2.dFilt

/-- A unit whose gains and limits are all one. -/
def oneGains : Gains ℚ := ⟨1, 1, 1, 1, 1, 1, zero_le_one, zero_le_one, zero_le_one⟩

/-- A measurement into a saturated side, and one that is not a number. -/
def twoInputs : List (PidInput ℚ) := [⟨1, .fin 3, 1, false, true⟩, ⟨1, .nan, 1, false, false⟩]

theorem pid_state_twoInputs : ∃ es t, Run stepRel (ofArgs oneGains) es t ∧ es.map Event.inp = twoInputs ∧
    Along (StepSpec oneGains) es :=
  have hrun := Run.snoc (.snoc (.nil (ofArgs oneGains)) (Eq.refl (Pid.step _ 1 (.fin 3) (.fin 1) false true)))
    (Eq.refl (Pid.step _ 1 .nan (.fin 1) false false))
  ⟨_, _, hrun, rfl, (pid_state oneGains).1 _ _ hrun⟩

end Exact

end Pid

end DroneMini
