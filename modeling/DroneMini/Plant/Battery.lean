import DroneMini.Lib.Rk4Lag
import DroneMini.Lib.Run
import Mathlib.Algebra.Order.Ring.Rat
import Mathlib.Tactic.NormNum
import Mathlib.Tactic.Positivity

/-!
# The battery

`Battery` of `plant/battery.py`, in exact arithmetic. `step` is `none` where the source raises
`ZeroDivisionError`. `StepSpec` says what a step does to each variable; the rail is a lag on the voltage,
cut off at the voltage. A step is monotone in the charge, the rail and the load (`SagsMore.step`), so of two
batteries in lockstep the one under the larger loads sags more, over whole runs.
-/

namespace DroneMini

/-- The entries of `BATTERY` that `Battery` reads, with the names they have there. -/
structure BatteryCfg (K : Type) where
  ocvFull : K
  ocvEmpty : K
  r0Ohm : K
  r1Ohm : K
  c1F : K
  ldoDropoutV : K

/-- `Battery`: its configuration, the charge that is left, the lagging 3V3 rail and the two flags. -/
structure Battery (K : Type) where
  cfg : BatteryCfg K
  charge : K
  iRc : K
  v3v3Lag : K
  railLow : Bool
  brownout : Bool

variable {K : Type} [Field K]

/-- `BATTERY`: the values of the configuration in the parameters of the craft. -/
def Params.battery : BatteryCfg K := ⟨4.20, 3.30, 0.040, 0.010, 2.0, 0.220⟩

namespace Battery

/-- The time constant of the 3V3 rail, which follows the battery with a lag. -/
def tau : K := 3e-4

/-- The time constant of the RC branch, with what keeps it from being zero. -/
def tauRc (cfg : BatteryCfg K) : K := cfg.r1Ohm * cfg.c1F + 1e-9

/-- `Battery.rail3v3`: the voltage of the 3V3 rail after the last step. -/
def rail3v3 (b : Battery K) : K := b.v3v3Lag

variable [LinearOrder K]

/-- `Battery._ocv` of a configuration and a charge: the open-circuit voltage, linear between empty and
full. -/
def ocvOf (cfg : BatteryCfg K) (charge : K) : K :=
  cfg.ocvEmpty + (cfg.ocvFull - cfg.ocvEmpty) * max (min charge 1) 0

/-- `Battery._ocv`: the open-circuit voltage at the present charge. -/
def ocv (b : Battery K) : K := ocvOf b.cfg b.charge

/-- A new `Battery` with an initial charge. -/
def new (cfg : BatteryCfg K) (initialCharge : K) : Battery K where
  cfg := cfg
  charge := initialCharge
  iRc := 0
  v3v3Lag := ocvOf cfg initialCharge
  railLow := false
  brownout := false

/-- `Battery.current`: the current of the electronics and that of the motors. -/
def current (dutySum : K) : K := 0.3 + max 0 dutySum * 1.2

/-- `Battery.voltage`: the terminal voltage when no motor turns. -/
def voltage (b : Battery K) : K := b.ocv - current 0 * b.cfg.r0Ohm

/-- `Battery.step`: the battery after it and the voltage it returns. -/
def step (b : Battery K) (dt dutySum : K) : Option (Battery K × K) :=
  let i := current dutySum
  if tauRc b.cfg = 0 ∨ tau + dt = 0 then none
  else
    let iRc := b.iRc + dt * (i - b.iRc / tauRc b.cfg)
    let v := b.ocv - i * b.cfg.r0Ohm - iRc * 0
    let lag := b.v3v3Lag +
      ((v - b.cfg.ldoDropoutV) * (dt / (tau + dt)) - b.v3v3Lag * (dt / (tau + dt)))
    let lag := min lag v
    some
      ({ b with
          iRc := iRc
          v3v3Lag := lag
          railLow := decide (lag < 3.0)
          brownout := decide (v < 2.9)
          charge := max 0 (b.charge - dt * i / 3600.0 * 0.5) },
        v)

/-! ## What a step does -/

/-- The charge that a step draws from the battery. -/
def drawn (dt dutySum : K) : K := dt * current dutySum / 3600.0 * 0.5

/-- The share of the rail that a step keeps; the rest is its new target. -/
def kept (dt : K) : K := tau / (tau + dt)

/-- What a step from `b` to `b'` that returns `v` does. -/
structure StepSpec (b : Battery K) (dt dutySum : K) (b' : Battery K) (v : K) : Prop where
  cfg : b'.cfg = b.cfg
  voltage : v = b.ocv - current dutySum * b.cfg.r0Ohm
  rail : b'.rail3v3 = min (approach (v - b.cfg.ldoDropoutV) (kept dt) b.rail3v3) v
  railLow : b'.railLow = decide (b'.rail3v3 < 3.0)
  brownout : b'.brownout = decide (v < 2.9)
  charge : b'.charge = max 0 (b.charge - drawn dt dutySum)

/-- **A step that returns does what `StepSpec` says.** The only step that raises divides by zero. -/
theorem step_spec {b b' : Battery K} {dt dutySum v : K} (h : step b dt dutySum = some (b', v)) :
    StepSpec b dt dutySum b' v := by
  unfold step at h
  dsimp only at h
  split_ifs at h with hdiv
  rw [not_or] at hdiv
  obtain ⟨rfl, rfl⟩ := Prod.mk.inj (Option.some.inj h)
  have hkept : kept dt = 1 - dt / (tau + dt) := by
    rw [kept, eq_sub_iff_add_eq, ← add_div, div_self hdiv.2]
  refine ⟨rfl, by rw [mul_zero, sub_zero], ?_, rfl, rfl, rfl⟩
  show min _ _ = min _ _
  congr 1
  rw [hkept, approach, rail3v3]
  ring

variable [IsStrictOrderedRing K]

/-- A step that does not go back in time returns, unless the RC branch has no time constant. -/
theorem step_isSome_iff {b : Battery K} {dt : K} (hdt : 0 ≤ dt) (dutySum : K) :
    (step b dt dutySum).isSome ↔ tauRc b.cfg ≠ 0 := by
  have htau : (0 : K) < tau + dt := add_pos_of_pos_of_nonneg (by norm_num [tau]) hdt
  unfold step
  dsimp only
  split_ifs with hdiv
  · exact iff_of_false Bool.false_ne_true (not_not_intro (hdiv.resolve_right htau.ne'))
  · exact iff_of_true rfl fun hzero => hdiv (.inl hzero)

/-- The current is positive under every load, so a step of positive length draws charge. -/
theorem current_pos (dutySum : K) : 0 < current dutySum := by
  have hload : 0 ≤ max 0 dutySum * 1.2 := mul_nonneg (le_max_left _ _) (by norm_num)
  exact add_pos_of_pos_of_nonneg (by norm_num) hload

/-- A larger load draws no smaller a current. -/
theorem current_mono {d d' : K} (h : d ≤ d') : current d ≤ current d' :=
  add_le_add_right (mul_le_mul_of_nonneg_right (max_le_max_left 0 h) (by norm_num)) _

/-- A step of a length that is not negative draws a charge that is not negative. -/
theorem drawn_nonneg {dt : K} (hdt : 0 ≤ dt) (dutySum : K) : 0 ≤ drawn dt dutySum := by
  have hi := (current_pos dutySum).le
  unfold drawn
  positivity

/-- A larger load draws no less charge in a step. -/
theorem drawn_mono {dt d d' : K} (hdt : 0 ≤ dt) (h : d ≤ d') : drawn dt d ≤ drawn dt d' := by
  have hi : dt * current d ≤ dt * current d' := mul_le_mul_of_nonneg_left (current_mono h) hdt
  exact mul_le_mul_of_nonneg_right (div_le_div_of_nonneg_right hi (by norm_num)) (by norm_num)

/-- The share of the rail that a step keeps is between zero and one. -/
theorem kept_mem {dt : K} (hdt : 0 ≤ dt) : 0 ≤ kept dt ∧ kept dt ≤ 1 := by
  have htau : (0 : K) < tau := by norm_num [tau]
  have hsum : tau ≤ tau + dt := le_add_of_nonneg_right hdt
  exact ⟨div_nonneg htau.le (htau.le.trans hsum), div_le_one_of_le₀ hsum (htau.le.trans hsum)⟩

/-- More charge means no lower open-circuit voltage, when full is not below empty. -/
theorem ocvOf_mono {cfg : BatteryCfg K} (hrange : cfg.ocvEmpty ≤ cfg.ocvFull) {q q' : K} (h : q ≤ q') :
    ocvOf cfg q ≤ ocvOf cfg q' :=
  add_le_add_right (mul_le_mul_of_nonneg_left (max_le_max_right 0 (min_le_min_right 1 h))
    (sub_nonneg.mpr hrange)) _

/-! ## One battery -/

/-- What every step keeps: the charge goes down, within its range, the rail is at most the voltage, and a
brownout takes the rail with it. -/
structure Sags (b b' : Battery K) (v : K) : Prop where
  charge_nonneg : 0 ≤ b'.charge
  charge_le : b'.charge ≤ b.charge
  rail : b'.rail3v3 ≤ v
  brownout : b'.brownout = true → b'.railLow = true

/-- A step from a battery whose charge is not negative keeps all that `Sags` says. -/
theorem StepSpec.sags {b b' : Battery K} {dt dutySum v : K} (h : StepSpec b dt dutySum b' v)
    (hdt : 0 ≤ dt) (hq : 0 ≤ b.charge) : Sags b b' v := by
  have hrail : b'.rail3v3 ≤ v := h.rail.trans_le (min_le_right _ _)
  refine ⟨(le_max_left _ _).trans_eq h.charge.symm, ?_, hrail, fun hbrown => ?_⟩
  · rw [h.charge]
    exact max_le hq (sub_le_self _ (drawn_nonneg hdt dutySum))
  · rw [h.brownout, decide_eq_true_iff] at hbrown
    rw [h.railLow, decide_eq_true_iff]
    exact (hrail.trans_lt hbrown).trans (by norm_num)

/-! ## Two batteries -/

/-- The second battery has sagged at least as far as the first. -/
structure SagsMore (b c : Battery K) : Prop where
  cfg : c.cfg = b.cfg
  charge : c.charge ≤ b.charge
  rail : c.rail3v3 ≤ b.rail3v3

/-- **A step under at least the load** leaves it so, and returns no more. -/
theorem SagsMore.step {b c b' c' : Battery K} {dt d e v w : K} (h : SagsMore b c)
    (hrange : b.cfg.ocvEmpty ≤ b.cfg.ocvFull) (hr0 : 0 ≤ b.cfg.r0Ohm) (hdt : 0 ≤ dt) (hload : d ≤ e)
    (hb : StepSpec b dt d b' v) (hc : StepSpec c dt e c' w) : SagsMore b' c' ∧ w ≤ v := by
  have hocv : c.ocv ≤ b.ocv := by
    rw [ocv, h.cfg]
    exact ocvOf_mono hrange h.charge
  have hdrop : current d * b.cfg.r0Ohm ≤ current e * b.cfg.r0Ohm :=
    mul_le_mul_of_nonneg_right (current_mono hload) hr0
  have hv : w ≤ v := by
    rw [hb.voltage, hc.voltage, h.cfg]
    exact sub_le_sub hocv hdrop
  refine ⟨⟨hc.cfg.trans (h.cfg.trans hb.cfg.symm), ?_, ?_⟩, hv⟩
  · rw [hb.charge, hc.charge]
    exact max_le_max_left 0 (sub_le_sub h.charge (drawn_mono hdt hload))
  · obtain ⟨h0, h1⟩ := kept_mem hdt
    rw [hb.rail, hc.rail, h.cfg]
    exact min_le_min (approach_mono h0 h1 (sub_le_sub_right hv _) h.rail) hv

omit [IsStrictOrderedRing K] in
/-- The flags of a step follow its rail and its voltage. -/
theorem SagsMore.flags {b c b' c' : Battery K} {dt d e v w : K} (h : SagsMore b' c') (hv : w ≤ v)
    (hb : StepSpec b dt d b' v) (hc : StepSpec c dt e c' w) :
    (b'.railLow = true → c'.railLow = true) ∧ (b'.brownout = true → c'.brownout = true) := by
  rw [hb.railLow, hc.railLow, hb.brownout, hc.brownout]
  simp only [decide_eq_true_iff]
  exact ⟨h.rail.trans_lt, hv.trans_lt⟩

/-! ## Runs -/

/-- The inputs of a step: its length and the sum of the four duties. -/
structure Input (K : Type) where
  dt : K
  dutySum : K

/-- A step of the battery that does not raise, as the step of a transition system. -/
def Steps (b : Battery K) (u : Input K) (b' : Battery K) (v : K) : Prop :=
  step b u.dt u.dutySum = some (b', v)

/-- A step of the battery, as an event of a run. -/
abbrev Stepped (K : Type) := Event (Battery K) (Input K) K

/-- The second step is as long as the first, and under at least the load. -/
structure LoadedMore (x y : Stepped K) : Prop where
  dt_nonneg : 0 ≤ x.inp.dt
  dt : y.inp.dt = x.inp.dt
  dutySum : x.inp.dutySum ≤ y.inp.dutySum

/-- After the second step the battery has sagged at least as far as after the first, and what the first sets
the second sets. -/
structure EndsLower (x y : Stepped K) : Prop where
  charge : y.post.charge ≤ x.post.charge
  voltage : y.out ≤ x.out
  rail : y.post.rail3v3 ≤ x.post.rail3v3
  railLow : x.post.railLow = true → y.post.railLow = true
  brownout : x.post.brownout = true → y.post.brownout = true

/-- A run keeps the configuration, and its steps discharge the battery within its range. -/
theorem sags_of_run {b b' : Battery K} {es : List (Stepped K)} (hrun : Run Steps b es b')
    (hq : 0 ≤ b.charge ∧ b.charge ≤ 1) (hdt : ∀ e ∈ es, 0 ≤ e.inp.dt) :
    ∀ e ∈ es, Sags e.pre e.post e.out ∧ e.pre.charge ≤ 1 := by
  refine (hrun.each (P := fun c => 0 ≤ c.charge ∧ c.charge ≤ 1) (along_of_forall hdt) hq ?_).2
  intro hist e hpre hs hdt
  have hsags := (step_spec hs).sags hdt hpre.1
  exact ⟨⟨hsags.charge_nonneg, hsags.charge_le.trans hpre.2⟩, hsags, hpre.2⟩

/-- Of two batteries in lockstep the one under the larger loads ends every step lower. -/
theorem endsLower_of_runs {cfg : BatteryCfg K} (hrange : cfg.ocvEmpty ≤ cfg.ocvFull)
    (hr0 : 0 ≤ cfg.r0Ohm) {q : K} {b c : Battery K} {ps : List (Stepped K × Stepped K)}
    (hrun : Run Steps (new cfg q) (ps.map Prod.fst) b) (hrun' : Run Steps (new cfg q) (ps.map Prod.snd) c)
    (hload : ∀ p ∈ ps, LoadedMore p.1 p.2) : ∀ p ∈ ps, EndsLower p.1 p.2 := by
  -- what the runs keep: the second has sagged more, and both have the configuration
  have hstep : ∀ p ∈ ps, SagsMore p.1.pre p.2.pre ∧ p.1.pre.cfg = cfg →
      Steps p.1.pre p.1.inp p.1.post p.1.out → Steps p.2.pre p.2.inp p.2.post p.2.out →
      (SagsMore p.1.post p.2.post ∧ p.1.post.cfg = cfg) ∧ EndsLower p.1 p.2 := by
    rintro p hp ⟨hsags, hcfg⟩ hs hs'
    obtain ⟨hdt, hsame, hmore⟩ := hload p hp
    have hb := step_spec hs
    have hc := step_spec hs'
    rw [hsame] at hc
    obtain ⟨hnext, hv⟩ := hsags.step (hcfg ▸ hrange) (hcfg ▸ hr0) hdt hmore hb hc
    obtain ⟨hlow, hbrown⟩ := hnext.flags hv hb hc
    exact ⟨⟨hnext, hb.cfg.trans hcfg⟩, hnext.charge, hv, hnext.rail, hlow, hbrown⟩
  have hpre := (hrun.pair hrun' (P := fun b c => SagsMore b c ∧ b.cfg = cfg)
    ⟨⟨rfl, le_rfl, le_rfl⟩, rfl⟩ fun p hp hpre hs hs' => (hstep p hp hpre hs hs').1).2
  intro p hp
  exact (hstep p hp (hpre p hp).1 (hrun.step_of_mem (List.mem_map_of_mem hp))
    (hrun'.step_of_mem (List.mem_map_of_mem hp))).2

/-- **Sag is monotone in the load.** Of two batteries of one configuration and initial charge, stepped with
the same time steps, the one under the larger loads ends every step with no more charge, voltage and rail,
and with every flag of the other. In each run the charge goes down within its range, the rail is at most
the voltage and a brownout takes the rail with it. -/
theorem sag_monotone {cfg : BatteryCfg K} (hrange : cfg.ocvEmpty ≤ cfg.ocvFull) (hr0 : 0 ≤ cfg.r0Ohm)
    {q : K} (hq : 0 ≤ q ∧ q ≤ 1) :
    (∀ (ps : List (Stepped K × Stepped K)) (b c : Battery K), Run Steps (new cfg q) (ps.map Prod.fst) b →
      Run Steps (new cfg q) (ps.map Prod.snd) c → (∀ p ∈ ps, LoadedMore p.1 p.2) →
      ∀ p ∈ ps, EndsLower p.1 p.2) ∧
    ∀ (es : List (Stepped K)) (b : Battery K), Run Steps (new cfg q) es b → (∀ e ∈ es, 0 ≤ e.inp.dt) →
      ∀ e ∈ es, Sags e.pre e.post e.out ∧ e.pre.charge ≤ 1 :=
  ⟨fun _ _ _ hrun hrun' hload => endsLower_of_runs hrange hr0 hrun hrun' hload,
    fun _ _ hrun hdt => sags_of_run hrun hq hdt⟩

/-- `step` on the inputs of a run, for evaluating one. -/
def advance (b : Battery ℚ) (u : Input ℚ) : Option (Battery ℚ × ℚ) := step b u.dt u.dutySum

/-- Twelve times five minutes: two of them under a load and one at rest, in turns. -/
def flight (dutySum : ℚ) : List (Input ℚ) :=
  (List.range 12).map fun k => ⟨300, if k % 3 = 2 then 0 else dutySum⟩

/-- A full battery for an hour under two rotors, and another under four: the rail of the second drops out while that
of the first holds, and the second ends every step lower. -/
theorem sag_monotone_hour : ∃ (ps : List (Stepped ℚ × Stepped ℚ)) (b c : Battery ℚ),
    Run Steps (new Params.battery 1) (ps.map Prod.fst) b ∧ Run Steps (new Params.battery 1) (ps.map Prod.snd) c ∧
      (∃ p ∈ ps, p.1.post.railLow = false ∧ p.2.post.railLow = true) ∧ ∀ p ∈ ps, EndsLower p.1 p.2 := by
  have hruns : (execute advance (new Params.battery 1) (flight 2)).any (fun r =>
      (execute advance (new Params.battery 1) (flight 4)).any fun q =>
        decide (∃ p ∈ r.1.zip q.1, p.1.post.railLow = false ∧ p.2.post.railLow = true)) = true := by
    decide +kernel
  obtain ⟨⟨es, b⟩, hes, hruns⟩ := (Option.any_eq_true _ _).mp hruns
  obtain ⟨⟨es', c⟩, hes', hruns⟩ := (Option.any_eq_true _ _).mp hruns
  obtain ⟨hrun, hrun', hinp⟩ := execute_pair hes hes' rfl
  have hload : ∀ p ∈ es.zip es', LoadedMore p.1 p.2 := by
    intro p hp
    have hpair := hinp p hp
    rw [flight, flight, List.zip_map', List.mem_map] at hpair
    obtain ⟨k, -, hk⟩ := hpair
    obtain ⟨hleft, hright⟩ := Prod.mk.inj hk
    refine ⟨?_, ?_, ?_⟩ <;> rw [← hleft]
    · norm_num
    · rw [← hright]
    · rw [← hright]
      dsimp only
      split_ifs <;> norm_num
  exact ⟨es.zip es', b, c, hrun, hrun', of_decide_eq_true hruns,
    (sag_monotone (by decide +kernel) (by decide +kernel) ⟨zero_le_one, le_rfl⟩).1 _ b c hrun hrun' hload⟩

end Battery

end DroneMini
