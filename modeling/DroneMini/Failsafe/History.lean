import DroneMini.Failsafe.Latch

/-!
# Arming needs its whole history

What the variables of the machine say about the past of a run of updates from a boot (`Past`): the good
frame counter is the length of the current streak of fresh frames, the latch remembers every fault and
the boot latch remembers the reset reason. An update can arm only when all of them allow it, so arming
implies a clean boot, no fault so far and ten fresh frames in a row (`arming_history`).
-/

namespace DroneMini

namespace FailsafeFsm

variable {K : Type}

/-- An update of a run: the states before and after it and the arguments of the call. -/
abbrev Upd (K : Type) := Event FailsafeFsm (UpdateArgs K) Unit

/-- The updates carried good frames, each newer than those before it. -/
structure FreshFrames (es : List (Upd K)) : Prop where
  frameOk : ∀ x ∈ es, x.inp.rc.frameOk = true
  increasing : es.Pairwise fun x y => x.inp.rc.tUs < y.inp.rc.tUs

/-- A good frame newer than all before it continues a row of fresh frames. -/
theorem FreshFrames.concat {es : List (Upd K)} {e : Upd K} (h : FreshFrames es)
    (hok : e.inp.rc.frameOk = true) (hnew : ∀ x ∈ es, x.inp.rc.tUs < e.inp.rc.tUs) :
    FreshFrames (es ++ [e]) := by
  constructor
  · intro x hx
    rcases List.mem_append.mp hx with hx | hx
    · exact h.frameOk x hx
    · rw [List.mem_singleton.mp hx]
      exact hok
  · rw [List.pairwise_append]
    refine ⟨h.increasing, List.pairwise_singleton _ _, fun x hx y hy => ?_⟩
    rw [List.mem_singleton.mp hy]
    exact hnew x hx

/-- The end of a row of fresh frames is one. -/
theorem FreshFrames.drop {es : List (Upd K)} (h : FreshFrames es) (k : Nat) :
    FreshFrames (es.drop k) :=
  ⟨fun x hx => h.frameOk x (List.mem_of_mem_drop hx), h.increasing.sublist (List.drop_sublist _ _)⟩

/-- The good frame counter counts a streak of fresh frames at the end of the history, and the machine
knows the time of the last of them. -/
def Streak (hist : List (Upd K)) (fs : FailsafeFsm) : Prop :=
  ∃ old recent, hist = old ++ recent ∧ recent.length = fs.goodFrames ∧ FreshFrames recent ∧
    (∀ x ∈ recent, x.inp.rc.tUs ≤ fs.lastGoodUs) ∧ (recent ≠ [] → fs.haveFrame = true)

/-- A streak of at least `k` frames ends with `k` fresh ones. -/
theorem Streak.last {hist : List (Upd K)} {fs : FailsafeFsm} (h : Streak hist fs) {k : Nat}
    (hk : k ≤ fs.goodFrames) :
    ∃ old last, hist = old ++ last ∧ last.length = k ∧ FreshFrames last := by
  obtain ⟨old, recent, rfl, hlen, hfresh, -, -⟩ := h
  refine ⟨old ++ recent.take (recent.length - k), recent.drop (recent.length - k), ?_, ?_,
    hfresh.drop _⟩
  · rw [List.append_assoc, List.take_append_drop]
  · rw [List.length_drop]
    omega

variable [Field K] [LinearOrder K] [FloatEnv K]

/-- What the machine knows of a run of updates from a boot. -/
structure Past (resetReason : UInt32) (hist : List (Upd K)) (fs : FailsafeFsm) : Prop where
  streak : Streak hist fs
  fault : ∀ x ∈ hist, x.pre.FaultObserved x.inp → fs.latched = true
  boot : afterFault resetReason = true → fs.bootLatched = true

/-- An update continues the streak or starts a new one. -/
theorem Streak.update {hist : List (Upd K)} {e : Upd K} (h : Streak hist e.pre)
    (hs : e.post = e.pre.update e.inp) : Streak (hist ++ [e]) e.post := by
  obtain ⟨old, recent, rfl, hlen, hfresh, hle, hhave⟩ := h
  rw [hs, update_spec]
  cases hf : e.pre.fresh e.inp.rc with
  | false => exact ⟨old ++ recent ++ [e], [], by simp, by simp [goodFramesNext, hf], ⟨by simp, .nil⟩,
      by simp, by simp⟩
  | true =>
      obtain ⟨hok, hnew⟩ := fresh_iff.mp hf
      have hlt : ∀ x ∈ recent, x.inp.rc.tUs < e.inp.rc.tUs := by
        intro x hx
        rcases hnew with hno | hlt
        · rw [hhave (List.ne_nil_of_mem hx)] at hno
          cases hno
        · exact UInt64.lt_of_le_of_lt (hle x hx) hlt
      refine ⟨old, recent ++ [e], by rw [List.append_assoc], ?_, hfresh.concat hok hlt, ?_, ?_⟩
      · simp [goodFramesNext, hf, hlen]
      · intro x hx
        show x.inp.rc.tUs ≤ e.inp.rc.tUs
        rcases List.mem_append.mp hx with hx | hx
        · exact UInt64.le_of_lt (hlt x hx)
        · rw [List.mem_singleton.mp hx]
          exact UInt64.le_refl _
      · intro _
        exact Bool.or_true _

/-- An update without an arm request keeps what the machine knows of its run, with the update itself now a
part of it. -/
theorem Past.update {resetReason : UInt32} {hist : List (Upd K)} {e : Upd K}
    (h : Past resetReason hist e.pre) (hs : e.post = e.pre.update e.inp)
    (hno : e.inp.armTest = false) : Past resetReason (hist ++ [e]) e.post := by
  have hedge : e.pre.edge e.inp = false := edge_of_not hno
  refine ⟨h.streak.update hs, ?_, ?_⟩
  · intro x hx hfault
    rw [hs, update_latched, hedge, Bool.not_false, Bool.true_and, Bool.or_eq_true, decide_eq_true_iff]
    rcases List.mem_append.mp hx with hx | hx
    · exact .inl (h.fault x hx hfault)
    · rw [List.mem_singleton.mp hx] at hfault
      exact .inr hfault
  · intro hboot
    rw [hs, update_bootLatched, hedge, h.boot hboot]
    rfl

/-- What the machine knows after any updates without an arm request. -/
theorem past_of_run {resetReason : UInt32} {fs : FailsafeFsm} {es : List (Upd K)}
    (hrun : Run updateStep (boot resetReason) es fs) (hno : ∀ x ∈ es, x.inp.armTest = false) :
    Past resetReason es fs := by
  refine hrun.induct (P := Past resetReason) (along_of_forall hno) ?_ ?_
  · refine ⟨⟨[], [], rfl, ?_, ⟨by simp, .nil⟩, by simp, by simp⟩, by simp, ?_⟩
    · exact (boot_goodFrames resetReason).symm
    · intro h
      rw [boot, if_pos h]
  · intro hist e hpast hs hno
    exact hpast.update hs hno

/-- Updates without a good frame leave it unknown whether there ever was one. -/
theorem haveFrame_of_run {fs fs' : FailsafeFsm} {es : List (Upd K)} (hrun : Run updateStep fs es fs')
    (hbad : ∀ x ∈ es, x.inp.rc.frameOk = false) : fs'.haveFrame = fs.haveFrame := by
  refine hrun.induct (P := fun _ b => b.haveFrame = fs.haveFrame) (along_of_forall hbad) rfl ?_
  intro hist e hpre hs hbad
  rw [hs, update_haveFrame, hbad, Bool.or_false, hpre]

/-- A run of fresh frames from a state that knows none is counted in full. -/
theorem goodFrames_of_run {fs fs' : FailsafeFsm} {es : List (Upd K)} (hrun : Run updateStep fs es fs')
    (h0 : fs.haveFrame = false) (hfresh : FreshFrames es) :
    es.length ≤ fs'.goodFrames ∧ (es = [] → fs' = fs) ∧
      ∀ x ∈ es.getLast?, fs'.lastGoodUs = x.inp.rc.tUs := by
  induction hrun with
  | nil => exact ⟨Nat.zero_le _, fun _ => rfl, by simp⟩
  | @snoc t u i o es hr hs ih =>
      obtain ⟨hok, hinc⟩ := hfresh
      rw [List.pairwise_append] at hinc
      obtain ⟨hlen, hnil, hlast⟩ := ih ⟨fun x hx => hok x (by simp [hx]), hinc.1⟩
      have hoki : i.rc.frameOk = true := hok ⟨t, i, u, o⟩ (by simp)
      have hnew : t.fresh i.rc = true := by
        refine fresh_iff.mpr ⟨hoki, ?_⟩
        cases hl : es.getLast? with
        | none =>
            rw [hnil (List.getLast?_eq_none_iff.mp hl)]
            exact .inl h0
        | some x =>
            rw [hlast x hl]
            exact .inr (hinc.2.2 x (List.mem_of_getLast? hl) _ (List.mem_singleton_self _))
      rw [hs, update_goodFrames, update_lastGoodUs]
      refine ⟨?_, by simp, ?_⟩
      · rw [List.length_append, List.length_singleton]
        simp [goodFramesNext, hnew, hlen]
      · intro x hx
        rw [List.getLast?_concat, Option.mem_some_iff] at hx
        rw [← hx]
        simp [hnew]

/-- Without a fault or a request the latches stay as they are. -/
theorem latches_of_run {fs fs' : FailsafeFsm} {es : List (Upd K)} (hrun : Run updateStep fs es fs')
    (hno : ∀ x ∈ es, x.inp.armTest = false) (hfault : ∀ x ∈ es, ¬ x.pre.FaultObserved x.inp) :
    fs'.active = fs.active ∧ fs'.latched = fs.latched ∧ fs'.bootLatched = fs.bootLatched := by
  have hall : ∀ x ∈ es, x.inp.armTest = false ∧ ¬ x.pre.FaultObserved x.inp :=
    fun x hx => ⟨hno x hx, hfault x hx⟩
  refine hrun.induct (along_of_forall hall) (P := fun _ b => b.active = fs.active ∧
    b.latched = fs.latched ∧ b.bootLatched = fs.bootLatched) ⟨rfl, rfl, rfl⟩ ?_
  rintro hist e hpre hs ⟨hno, hfault⟩
  rw [hs, update_active, update_latched, update_bootLatched]
  simpa [edge, hno, hfault] using hpre

/-- What an update asks of its input to end armed, when it is no arm request. -/
theorem armed_of_update {fs : FailsafeFsm} {u : UpdateArgs K} (hno : u.armTest = false)
    (h : (fs.update u).armed = true) :
    u.rc.frameOk = true ∧ u.rc.armedSwitch = true ∧ ¬ fs.FaultObserved u ∧ fs.latched = false ∧
      fs.bootLatched = false ∧
      (fs.armed = false → u.calibrated = true ∧ kArmMinGoodFrames ≤ fs.goodFramesNext u.rc ∧
        u.rc.throttle ≤ kArmThrottleMax) := by
  have hedge : fs.edge u = false := edge_of_not hno
  rw [update_armed, armedNext, hedge, if_neg Bool.false_ne_true, hno, if_neg Bool.false_ne_true] at h
  simp only [rcArms, Bool.and_eq_true, Bool.or_eq_true, Bool.not_eq_true', Bool.or_eq_false_iff,
    decide_eq_true_iff, decide_eq_false_iff_not] at h
  obtain ⟨⟨⟨-, hfault⟩, hlatched, -⟩, ⟨⟨hok, hsw⟩, harm⟩, hboot⟩ := h
  refine ⟨hok, hsw, hfault, hlatched, hboot, fun h0 => ?_⟩
  rcases harm with h1 | ⟨⟨hcal, hframes⟩, hthr⟩
  · rw [h0] at h1
    cases h1
  · exact ⟨hcal, hframes, hthr⟩

/-- An unlatched machine arms on a frame that meets all its conditions. -/
theorem update_arms {fs : FailsafeFsm} {u : UpdateArgs K} (hactive : fs.active = false)
    (hlatched : fs.latched = false) (hboot : fs.bootLatched = false) (hno : u.armTest = false)
    (hfault : ¬ fs.FaultObserved u) (hok : u.rc.frameOk = true) (hsw : u.rc.armedSwitch = true)
    (hcal : u.calibrated = true) (hframes : kArmMinGoodFrames ≤ fs.goodFramesNext u.rc)
    (hthr : u.rc.throttle ≤ kArmThrottleMax) : (fs.update u).armed = true := by
  rw [update_armed]
  simp [armedNext, edge, rcArms, hactive, hlatched, hboot, hno, hfault, hok, hsw, hcal, hframes, hthr]

/-- **No arming without its full history.** In a run of updates from a boot without arm requests, an
update that arms the craft comes after a clean boot and no fault; it and the nine before it carried good
frames with increasing times; its estimator was calibrated, its arm switch on and its throttle low.
While the craft then stays armed, every update has a good frame, the arm switch on and no fault. -/
theorem arming_history {resetReason : UInt32} {fs : FailsafeFsm} {es : List (Upd K)}
    (hrun : Run updateStep (boot resetReason) es fs) (hno : ∀ x ∈ es, x.inp.armTest = false)
    {hist later : List (Upd K)} {e : Upd K} (hes : es = hist ++ e :: later)
    (h0 : e.pre.armed = false) (h1 : e.post.armed = true) :
    afterFault resetReason = false ∧
      (∀ x ∈ hist ++ [e], ¬ x.pre.FaultObserved x.inp) ∧
      (∃ old last10, hist ++ [e] = old ++ last10 ∧ last10.length = 10 ∧ FreshFrames last10) ∧
      e.inp.calibrated = true ∧ e.inp.rc.armedSwitch = true ∧ e.inp.rc.throttle ≠ .nan ∧
      e.inp.rc.throttle ≤ kArmThrottleMax ∧
      ∀ mid rest, later = mid ++ rest → (∀ x ∈ mid, x.post.armed = true) →
        ∀ x ∈ mid, x.inp.rc.frameOk = true ∧ x.inp.rc.armedSwitch = true ∧
          ¬ x.pre.FaultObserved x.inp := by
  subst hes
  obtain ⟨hr, hs, -⟩ := hrun.split
  have hpast := past_of_run hr (fun x hx => hno x (by simp [hx]))
  have hpost := hpast.update hs (hno e (by simp))
  replace hs : e.post = e.pre.update e.inp := hs
  rw [hs] at h1
  obtain ⟨hok, hsw, hfault, hlatched, hboot, hneed⟩ := armed_of_update (hno e (by simp)) h1
  obtain ⟨hcal, hframes, hthr⟩ := hneed h0
  refine ⟨?_, ?_, ?_, hcal, hsw, ?_, hthr, ?_⟩
  · rw [Bool.eq_false_iff]
    intro ha
    rw [hpast.boot ha] at hboot
    cases hboot
  · intro x hx hf
    rcases List.mem_append.mp hx with hx | hx
    · rw [hpast.fault x hx hf] at hlatched
      cases hlatched
    · rw [List.mem_singleton.mp hx] at hf
      exact hfault hf
  · refine hpost.streak.last ?_
    rw [hs, update_goodFrames]
    exact hframes
  · intro hnan
    rw [hnan] at hthr
    exact Flt.not_nan_le _ hthr
  · rintro mid rest rfl harmed x hx
    have hmem : x ∈ hist ++ e :: (mid ++ rest) := by simp [hx]
    have hx' : x.post = x.pre.update x.inp := hrun.step_of_mem hmem
    have harm := harmed x hx
    rw [hx'] at harm
    obtain ⟨hok, hsw, hfault, -⟩ := armed_of_update (hno x hmem) harm
    exact ⟨hok, hsw, hfault⟩

/-- The `k`-th update with a good frame, a closed throttle and the arm switch on. -/
def armingUpdate (k : Nat) : UpdateArgs ℚ where
  rc := { RcSample.zero with armedSwitch := true, frameOk := true, tUs := UInt64.ofNat (1000 * k) }
  imu := level
  vbat := .fin (39 / 10)
  nowUs := UInt64.ofNat (1000 * k)
  calibrated := true
  armTest := false

/-- Ten such updates after a power-on: the tenth arms, and has its ten fresh frames behind it. -/
theorem arming_history_ten :
    ∃ old last10, trace (boot 1) ((List.range' 1 9).map armingUpdate) ++
        [⟨(boot 1).updates ((List.range' 1 9).map armingUpdate), armingUpdate 10,
          (boot 1).updates ((List.range' 1 10).map armingUpdate), ()⟩] = old ++ last10 ∧
      last10.length = 10 ∧ FreshFrames last10 := by
  have hrun := trace_run (boot 1) ((List.range' 1 9).map armingUpdate ++ [armingUpdate 10])
  have hno : ∀ x ∈ trace (boot 1) ((List.range' 1 9).map armingUpdate ++ [armingUpdate 10]),
      x.inp.armTest = false := by
    intro x hx
    have hmem := List.mem_map_of_mem (f := Event.inp) hx
    rw [map_inp_trace, List.mem_append, List.mem_map, List.mem_singleton] at hmem
    rcases hmem with ⟨k, -, hk⟩ | hk
    · rw [← hk]
      rfl
    · rw [hk]
      rfl
  exact (arming_history hrun hno (trace_append _ _ _) (by decide +kernel) (by decide +kernel)).2.2.1

end FailsafeFsm

end DroneMini
