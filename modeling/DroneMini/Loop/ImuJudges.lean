import DroneMini.Loop.Isolation
import DroneMini.Lib.Debounce

/-!
# The two judgements of the IMU

The arm state machine counts bad samples on every tick; the estimator counts the samples it rejects, and
only on ticks that end armed. Both are debounced judgements with the same limit, over different sequences
(`Judged`). Five bad samples in a row disarm the craft before the estimator has seen the fifth, so it
still calls the IMU valid (`imu_judges_differ`); five rejected samples on armed ticks make it invalid even
when good samples came between them. The two agree exactly on the runs in which neither happens
(`imu_judges_agree_iff`).
-/

namespace DroneMini

open Debounce FailsafeFsm

variable {K : Type} [Field K] [LinearOrder K] [FloatEnv K]

/-- The arm state machine counts the bad samples of its updates in a row, up to the debounce limit. -/
theorem FailsafeFsm.update_imuBadCount (fs : FailsafeFsm) (u : UpdateArgs K) :
    (fs.update u).imuBadCount = debounce kImuInvalidDebounce (imuBad u.imu) fs.imuBadCount := by
  rw [update_spec, imuDebounce_eq]
  rfl

namespace ComplementaryEstimator

/-- The estimator calls the IMU valid exactly as long as its own count is below the debounce limit. -/
def CountKnown (est : ComplementaryEstimator K) : Prop :=
  est.imuValid = decide (est.invalidCount < kImuInvalidDebounce)

/-- An update of the estimator counts the samples it rejects in a row, up to the debounce limit, and judges
the IMU by that count. -/
theorem update_judgement {est est' : ComplementaryEstimator K} {fuel : Nat} {imu : ImuSample K}
    {dt : Flt K} (h : est.update fuel imu dt = some est') :
    est'.invalidCount = debounce kImuInvalidDebounce (rejects imu dt) est.invalidCount ∧
      est'.CountKnown := by
  unfold update at h
  cases hrej : rejects imu dt with
  | true =>
      rw [hrej, if_pos rfl] at h
      cases h
      exact ⟨rfl, rfl⟩
  | false =>
      have hkept : est'.invalidCount = 0 ∧ est'.imuValid = true := by
        rw [hrej, if_neg Bool.false_ne_true] at h
        dsimp only at h
        split_ifs at h
        · cases h
          exact ⟨rfl, rfl⟩
        · rw [fuse_eq h]
          exact ⟨rfl, rfl⟩
      refine ⟨hkept.1, ?_⟩
      rw [CountKnown, hkept.1, hkept.2]
      decide

end ComplementaryEstimator

namespace ControlLoop

/-- The sample that a tick uses is bad in the eyes of the arm state machine. -/
def badSample (x : Tick K) : Bool := imuBad (sampleOf x.inp.hal)

/-- From its state before a tick and the inputs of the tick, the arm state machine ends it armed. -/
def endsArmed (x : Tick K) : Bool :=
  (sense x.pre.rc x.inp.hal).any fun s => (x.pre.fs.update (fsArgs x.pre x.inp s)).armed

/-- The estimator rejects the sample of a tick once it is corrected for the bias, should the tick get to fuse
it. -/
def rejectedSample (x : Tick K) : Bool :=
  ComplementaryEstimator.rejects (correct x.pre.est (sampleOf x.inp.hal)) kControlDtS

/-- A tick ends armed exactly when the arm state machine says so. -/
theorem endsArmed_eq {x : Tick K} {fuel : Nat} (spec : TickSpec fuel x.pre x.inp x.post x.out) :
    endsArmed x = x.post.fs.armed := by
  rw [endsArmed, spec.sense, Option.any_some, spec.fs]

/-- What the two counters know of a run of ticks. -/
structure Judged (es : List (Tick K)) (c : FlightContext K) : Prop where
  failsafe : c.fs.imuBadCount = min kImuInvalidDebounce (streak badSample es)
  estimator : c.est.invalidCount =
    min kImuInvalidDebounce (streak rejectedSample (es.filter endsArmed))
  known : c.est.CountKnown

/-- A tick keeps both counters in step with the history: that of the arm state machine always, that of the
estimator if the tick ends armed. -/
theorem Judged.step {es : List (Tick K)} {x : Tick K} (h : Judged es x.pre)
    (hs : tickStep x.pre x.inp x.post x.out) : Judged (es ++ [x]) x.post := by
  obtain ⟨fuel, htick⟩ := hs
  have spec := tick_spec htick
  have himu : x.out.sensed.imu = sampleOf x.inp.hal := spec.sensed.imu
  have hbad : imuBad (fsArgs x.pre x.inp x.out.sensed).imu = badSample x := congrArg imuBad himu
  have hfailsafe : x.post.fs.imuBadCount = min kImuInvalidDebounce (streak badSample (es ++ [x])) := by
    rw [spec.fs, update_imuBadCount, h.failsafe, hbad, debounce_streak]
  cases harmed : endsArmed x with
  | true =>
      have hest := spec.est_of_armed (endsArmed_eq spec ▸ harmed)
      rw [himu] at hest
      obtain ⟨hcount, hknown⟩ := ComplementaryEstimator.update_judgement hest
      refine ⟨hfailsafe, ?_, hknown⟩
      rw [hcount, h.estimator, List.filter_append, List.filter_cons_of_pos harmed, List.filter_nil,
        ← debounce_streak]
      rfl
  | false =>
      have hest := spec.est_of_disarmed (endsArmed_eq spec ▸ harmed)
      rw [ComplementaryEstimator.calibrateUpdate_eq] at hest
      refine ⟨hfailsafe, ?_, ?_⟩
      · rw [hest, List.filter_append, List.filter_cons_of_neg (by simp [harmed]), List.filter_nil,
          List.append_nil]
        exact h.estimator
      · rw [hest]
        exact h.known

/-- What the two counters know after any run of ticks from a boot. -/
theorem judged_of_run {resetReason : UInt32} {c₀ c : FlightContext K} {es : List (Tick K)}
    (hboot : c₀.fs = boot resetReason) (hest : c₀.est = .new) (hrun : Run tickStep c₀ es c) :
    Judged es c := by
  refine hrun.history (P := Judged) ?_ ?_
  · refine ⟨?_, ?_, ?_⟩
    · rw [hboot, boot]
      split_ifs <;> rfl
    · rw [hest]
      rfl
    · rw [hest]
      rfl
  · intro hist x h hs
    exact h.step hs

/-- The arm state machine calls the IMU invalid after five bad samples. -/
theorem Judged.invalid_iff {es : List (Tick K)} {c : FlightContext K} (h : Judged es c) :
    kImuInvalidDebounce ≤ c.fs.imuBadCount ↔ kImuInvalidDebounce ≤ streak badSample es := by
  rw [h.failsafe]
  omega

/-- The estimator calls the IMU invalid after five rejected samples. -/
theorem Judged.imuValid_iff {es : List (Tick K)} {c : FlightContext K} (h : Judged es c) :
    c.est.imuValid = false ↔ kImuInvalidDebounce ≤ streak rejectedSample (es.filter endsArmed) := by
  rw [h.known, h.estimator, decide_eq_false_iff_not]
  omega

/-- A tick after which the arm state machine calls the IMU invalid ends disarmed. -/
theorem disarmed_of_invalid {x : Tick K} (hs : tickStep x.pre x.inp x.post x.out)
    (hno : x.inp.armTest = false) (hbad : kImuInvalidDebounce ≤ x.post.fs.imuBadCount) :
    x.post.fs.armed = false := by
  obtain ⟨fuel, htick⟩ := hs
  have spec := tick_spec htick
  rw [spec.fs] at hbad ⊢
  refine (update_of_fault (.inr (.inr (.inl ?_))) (edge_of_not hno)).1
  rw [imuInvalidNow, imuInvalid, decide_eq_true_iff]
  rwa [update_spec] at hbad

/-- A tick after which the estimator calls the IMU invalid ended armed, when it was valid before. -/
theorem armed_of_imuValid {x : Tick K} (hs : tickStep x.pre x.inp x.post x.out)
    (hpre : x.pre.est.imuValid = true) (hpost : x.post.est.imuValid = false) :
    x.post.fs.armed = true := by
  obtain ⟨fuel, htick⟩ := hs
  have spec := tick_spec htick
  cases harmed : x.post.fs.armed with
  | true => rfl
  | false =>
      have hest := spec.est_of_disarmed harmed
      rw [ComplementaryEstimator.calibrateUpdate_eq] at hest
      rw [hest] at hpost
      exact absurd (hpre.symm.trans hpost) (by decide)

/-- When the judgements agree on every tick, the estimator never calls the IMU invalid. -/
theorem imuValid_of_agree {c₀ c : FlightContext K} {es : List (Tick K)} (hest : c₀.est = .new)
    (hrun : Run tickStep c₀ es c) (hno : ∀ x ∈ es, x.inp.armTest = false)
    (hagree : ∀ x ∈ es, x.post.est.imuValid = false → kImuInvalidDebounce ≤ x.post.fs.imuBadCount) :
    ∀ x ∈ es, x.post.est.imuValid = true := by
  refine (hrun.each (P := fun b => b.est.imuValid = true)
    (along_of_forall fun x hx => And.intro (hno x hx) (hagree x hx)) ?_ ?_).2
  · rw [hest]
    rfl
  · rintro hist x hpre hs ⟨hno, hagree⟩
    have hpost : x.post.est.imuValid = true := by
      rw [← Bool.not_eq_false]
      intro hpost
      have harmed := armed_of_imuValid hs hpre hpost
      rw [disarmed_of_invalid hs hno (hagree hpost)] at harmed
      cases harmed
    exact ⟨hpost, hpost⟩

/-- What the two counters know after any tick of a run from a boot. -/
theorem judged_at {resetReason : UInt32} {c₀ c : FlightContext K} {hist later : List (Tick K)} {x : Tick K}
    (hboot : c₀.fs = boot resetReason) (hest : c₀.est = .new)
    (hrun : Run tickStep c₀ (hist ++ x :: later) c) : Judged (hist ++ [x]) x.post := by
  obtain ⟨hbefore, hs, -⟩ := hrun.split
  exact judged_of_run hboot hest (.snoc hbefore hs)

omit [Field K] [LinearOrder K] [FloatEnv K] in
/-- A part of a run with a streak ends with a tick. -/
theorem last_of_streak {bad : Tick K → Bool} {sub : Tick K → Bool} {before : List (Tick K)}
    (hle : kImuInvalidDebounce ≤ streak bad (before.filter sub)) : ∃ hist x, before = hist ++ [x] := by
  rcases List.eq_nil_or_concat before with rfl | ⟨hist, x, rfl⟩
  · exact absurd hle (Nat.not_succ_le_zero 4)
  · exact ⟨hist, x, by rw [List.concat_eq_append]⟩

/-- **When the two judgements agree.** In every run of ticks from a boot without arm requests: after every
tick `imuValid` is false exactly when the last five samples were bad, and exactly when the counter of the
arm state machine has reached its limit, if and only if no five samples in a row are bad and the estimator
rejects no five corrected samples in a row, ticks that end disarmed left out. -/
theorem imu_judges_agree_iff {resetReason : UInt32} {c₀ c : FlightContext K} {es : List (Tick K)}
    (hboot : c₀.fs = boot resetReason) (hest : c₀.est = .new) (hrun : Run tickStep c₀ es c)
    (hno : ∀ x ∈ es, x.inp.armTest = false) :
    (∀ hist x later, es = hist ++ x :: later →
      (x.post.est.imuValid = false ↔ EndsBad kImuInvalidDebounce badSample (hist ++ [x])) ∧
        (x.post.est.imuValid = false ↔ kImuInvalidDebounce ≤ x.post.fs.imuBadCount)) ↔
      ¬ BadInARow kImuInvalidDebounce badSample es ∧
        ¬ BadInARow kImuInvalidDebounce rejectedSample (es.filter endsArmed) := by
  constructor
  · intro hagree
    have hfs : ∀ hist x later, es = hist ++ x :: later → x.post.est.imuValid = false →
        kImuInvalidDebounce ≤ x.post.fs.imuBadCount := fun hist x later hes => (hagree hist x later hes).2.mp
    have hvalid := imuValid_of_agree hest hrun hno fun x hx => by
      obtain ⟨hist, later, hes⟩ := List.append_of_mem hx
      exact hfs hist x later hes
    constructor
    · intro hbad
      obtain ⟨before, later, rfl, hle⟩ := badInARow_iff.mp hbad
      rw [← List.filter_true before] at hle
      obtain ⟨hist, x, rfl⟩ := last_of_streak hle
      rw [List.filter_true] at hle
      rw [List.append_assoc] at hrun hagree hvalid
      have hinvalid := (hagree hist x later rfl).2.mpr ((judged_at hboot hest hrun).invalid_iff.mpr hle)
      rw [hvalid x (by simp)] at hinvalid
      cases hinvalid
    · intro hrej
      obtain ⟨armed, rest, harmed, hle⟩ := badInARow_iff.mp hrej
      obtain ⟨before, later, rfl, rfl, -⟩ := List.filter_eq_append_iff.mp harmed
      obtain ⟨hist, x, rfl⟩ := last_of_streak hle
      rw [List.append_assoc] at hrun hvalid
      have hinvalid := (judged_at hboot hest hrun).imuValid_iff.mpr hle
      rw [hvalid x (by simp)] at hinvalid
      cases hinvalid
  · rintro ⟨hbad, hrej⟩ hist x later rfl
    have hjudged := judged_at hboot hest hrun
    rw [List.append_cons] at hbad hrej
    rw [List.filter_append] at hrej
    have hfew : ¬ kImuInvalidDebounce ≤ streak badSample (hist ++ [x]) :=
      fun hle => hbad (badInARow_iff.mpr ⟨_, later, rfl, hle⟩)
    have hvalid : ¬ x.post.est.imuValid = false := by
      rw [hjudged.imuValid_iff]
      exact fun hle => hrej (badInARow_iff.mpr ⟨_, _, rfl, hle⟩)
    rw [← le_streak_iff, hjudged.invalid_iff]
    exact ⟨iff_of_false hvalid hfew, iff_of_false hvalid hfew⟩

/-- Nine ticks behind the gesture that arms, with a frame each that keeps the craft armed. The IMU can be read in the
fifth of them only. -/
def gapTicks : List (TickInput ℚ) :=
  (List.range' 213 9).map fun k =>
    let i := levelTick (UInt64.ofNat (1000 * k)) armFrame false
    { i with hal := { i.hal with imuOk := k = 217 } }

set_option maxRecDepth 10000 in
/-- An armed craft loses four samples, reads one, and loses another four. It stays armed with both counters one short
of their limit, and the two judgements agree after each of its ticks. -/
theorem imu_judges_agree_iff_gap :
    ∃ (es : List (Tick ℚ)) (c : FlightContext ℚ), Run tickStep (.boot 1 .kAttitude) es c ∧
      es.map Event.inp = calibTicks ++ gestureTicks ++ gapTicks ∧ c.fs.armed = true ∧
      c.fs.imuBadCount + 1 = kImuInvalidDebounce ∧ c.est.invalidCount + 1 = kImuInvalidDebounce ∧
      ∀ x ∈ es, (x.post.est.imuValid = false ↔ kImuInvalidDebounce ≤ x.post.fs.imuBadCount) := by
  have hrun : (execute (tick 2) (.boot 1 .kAttitude) (calibTicks ++ gestureTicks ++ gapTicks)).any (fun r =>
      decide (r.2.fs.armed = true ∧ r.2.fs.imuBadCount + 1 = kImuInvalidDebounce ∧
        r.2.est.invalidCount + 1 = kImuInvalidDebounce ∧
        ¬ List.replicate kImuInvalidDebounce true <:+: r.1.map badSample ∧
        ¬ List.replicate kImuInvalidDebounce true <:+: (r.1.filter endsArmed).map rejectedSample)) = true := by
    decide +kernel
  obtain ⟨⟨es, c⟩, hes, hrun⟩ := (Option.any_eq_true _ _).mp hrun
  obtain ⟨harmed, hcount, hcount', hbad, hrejected⟩ := of_decide_eq_true hrun
  have hno : ∀ i ∈ calibTicks ++ gestureTicks ++ gapTicks, i.armTest = false := by decide
  have hinp := execute_inputs hes
  have hboot : (FlightContext.boot 1 .kAttitude : FlightContext ℚ).fs = boot 1 := rfl
  have hagree := (imu_judges_agree_iff hboot rfl (ticks_run hes)
    fun x hx => hno x.inp (hinp ▸ List.mem_map_of_mem hx)).mpr
      ⟨mt badInARow_iff_replicate.mp hbad, mt badInARow_iff_replicate.mp hrejected⟩
  refine ⟨es, c, ticks_run hes, hinp, harmed, hcount, hcount', fun x hx => ?_⟩
  obtain ⟨hist, later, hsplit⟩ := List.append_of_mem hx
  exact (hagree hist x later hsplit).2

/-- A tick at 1 ms without RC bytes whose IMU cannot be read. -/
def noImuTick : TickInput ℚ :=
  let i := levelTick 1000 [] false
  { i with hal := { i.hal with imuOk := false } }

/-- After five ticks whose IMU cannot be read the estimator still calls it valid. -/
theorem imu_judges_differ :
    ¬ ∀ (resetReason : UInt32) (c₀ c : FlightContext ℚ) (es : List (Tick ℚ)),
      c₀.fs = boot resetReason → c₀.est = .new → Run tickStep c₀ es c →
      (∀ x ∈ es, x.inp.armTest = false) → ∀ hist x later, es = hist ++ x :: later →
      (x.post.est.imuValid = false ↔ EndsBad kImuInvalidDebounce badSample (hist ++ [x])) ∧
        (x.post.est.imuValid = false ↔ kImuInvalidDebounce ≤ x.post.fs.imuBadCount) := by
  intro h
  have hrun : (execute (tick 1) (.boot 1 .kAttitude) (List.replicate 4 noImuTick)).any (fun r =>
      (tick 1 r.2 noImuTick).any fun q =>
        decide (q.1.fs.imuBadCount = kImuInvalidDebounce ∧ q.1.est.imuValid = true)) = true := by
    decide +kernel
  obtain ⟨⟨hist, t⟩, hhist, hrun⟩ := (Option.any_eq_true _ _).mp hrun
  obtain ⟨⟨c, out⟩, htick, hfacts⟩ := (Option.any_eq_true _ _).mp hrun
  obtain ⟨hcount, hvalid⟩ := of_decide_eq_true hfacts
  have hall : ∀ i ∈ List.replicate 4 noImuTick ++ [noImuTick], i.armTest = false := by decide
  have hticks : Run tickStep (.boot 1 .kAttitude) (hist ++ [⟨t, noImuTick, c, out⟩]) c :=
    .snoc (ticks_run hhist) ⟨1, htick⟩
  have hinvalid := (h 1 _ c _ rfl rfl hticks (fun x hx => hall x.inp ?_) hist _ [] rfl).2.mpr hcount.ge
  · rw [hvalid] at hinvalid
    cases hinvalid
  · rw [← execute_inputs hhist]
    simpa using List.mem_map_of_mem (f := Event.inp) hx

end ControlLoop

end DroneMini
