import DroneMini.Loop.Link
import DroneMini.Loop.Latch
import DroneMini.Failsafe.History

/-!
# Arming and staying armed over a run of ticks

A tick passes an RC sample to the arm state machine whether or not a frame was decoded; without one the
sample is zeroed and `frame_ok` is false. The machine reads that as a bad frame: it disarms an armed
craft (`stays_armed_iff`) and starts the count of good frames anew (`tenth_frame_arms_iff`). So a craft
arms, and stays armed, exactly as long as every single tick decodes a frame; between two frames of a real
receiver it does neither (`disarms_between_frames`, `never_arms_between_frames`).
-/

namespace DroneMini

namespace ControlLoop

open FailsafeFsm

variable {K : Type} [Field K] [LinearOrder K] [FloatEnv K]

/-! ## Staying armed -/

/-- A tick observes no reason to disarm beside the RC link: no receiver failsafe flag, no debounced IMU
fault and no critical battery. -/
structure NoReason (x : Tick K) : Prop where
  rcFlag : x.out.sensed.rc.rxFailsafe = false
  imu : x.pre.fs.imuInvalidNow (fsArgs x.pre x.inp x.out.sensed) = false
  vbat : vbatCrit x.out.sensed.vbat = false

instance (x : Tick K) : Decidable (NoReason x) :=
  decidable_of_iff (x.out.sensed.rc.rxFailsafe = false ∧
    x.pre.fs.imuInvalidNow (fsArgs x.pre x.inp x.out.sensed) = false ∧
    vbatCrit x.out.sensed.vbat = false)
    ⟨fun h => ⟨h.1, h.2.1, h.2.2⟩, fun h => ⟨h.rcFlag, h.imu, h.vbat⟩⟩

/-- The arm switch of a frame is on: its channel 5 is above the middle. -/
def SwitchOn (f : List UInt8) : Prop := kSbusMid < SbusParser.channel f kArmChannel

instance (f : List UInt8) : Decidable (SwitchOn f) := inferInstanceAs (Decidable (_ < _))

/-- The RC sample of a tick that decodes a frame is that of one of its frames. -/
theorem rc_of_decodes {x : Tick K} {fuel : Nat} (spec : TickSpec fuel x.pre x.inp x.post x.out)
    (hd : decodes x = true) :
    ∃ w ∈ x.out.sensed.accepted, (SwitchOn w.2 → x.out.sensed.rc.armedSwitch = true) ∧
      x.out.sensed.rc.throttle = SbusParser.normThrottle (SbusParser.channel w.2 2) := by
  cases hacc : x.out.sensed.accepted.getLast? with
  | none =>
      rw [decodes, List.getLast?_eq_none_iff.mp hacc] at hd
      cases hd
  | some w =>
      obtain ⟨o, hdec, hrc⟩ := spec.sensed.rc_last w hacc
      obtain ⟨hsw, hthr, -⟩ := SbusParser.decodeFrame_fields hdec
      refine ⟨w, List.mem_of_getLast? hacc, fun hon => ?_, ?_⟩
      · rw [hrc]
        exact hsw.trans (decide_eq_true hon)
      · rw [hrc]
        exact hthr

/-- A tick whose frames have the switch on, without a fault, keeps an armed craft armed exactly when it
decodes a frame. -/
theorem armed_step {x : Tick K} (hs : tickStep x.pre x.inp x.post x.out) (hinv : Inv x.pre.fs)
    (harmed : x.pre.fs.armed = true) (hno : x.inp.armTest = false)
    (hsw : ∀ w ∈ x.out.sensed.accepted, SwitchOn w.2)
    (hfault : ¬ x.pre.fs.FaultObserved (fsArgs x.pre x.inp x.out.sensed)) :
    x.post.fs.armed = decodes x := by
  obtain ⟨fuel, htick⟩ := hs
  have spec := tick_spec htick
  have hsame : (fsArgs x.pre x.inp x.out.sensed).rc = x.out.sensed.rc := rfl
  rw [spec.fs, hinv.update_of_armed harmed hno hfault, hsame, frameOk_eq_decodes spec]
  cases hd : decodes x with
  | false => rfl
  | true =>
      obtain ⟨w, hw, hon, -⟩ := rc_of_decodes spec hd
      rw [hon (hsw w hw)]
      rfl

/-- The state after a run of ticks that all end armed is armed. -/
theorem armed_of_ticks {t c : FlightContext K} {post : List (Tick K)} (hrun : Run tickStep t post c)
    (harmed : t.fs.armed = true) (hall : ∀ x ∈ post, x.post.fs.armed = true) :
    c.fs.armed = true := by
  cases hrun with
  | nil => exact harmed
  | snoc _ _ => exact hall _ (List.mem_append_right _ List.mem_cons_self)

/-- The RC timeout is the only fault left when a tick has no other reason to disarm. -/
theorem not_fault_of_noReason {x : Tick K} (h : NoReason x)
    (htime : x.pre.fs.timeoutNow (fsArgs x.pre x.inp x.out.sensed) = false) :
    ¬ x.pre.fs.FaultObserved (fsArgs x.pre x.inp x.out.sensed) := by
  rintro (hf | hf | hf | hf)
  · rw [htime] at hf
    cases hf
  · rw [show (fsArgs x.pre x.inp x.out.sensed).rc = x.out.sensed.rc from rfl, h.rcFlag] at hf
    cases hf
  · rw [h.imu] at hf
    cases hf
  · rw [show (fsArgs x.pre x.inp x.out.sensed).vbat = x.out.sensed.vbat from rfl, h.vbat] at hf
    cases hf

/-- What the later ticks of a run do to an armed craft, when nothing but a missing frame can disarm it. -/
theorem armed_along {resetReason : UInt32} {c₀ t c : FlightContext K} {pre post : List (Tick K)}
    (hboot : c₀.fs = boot resetReason) (hpre : Run tickStep c₀ pre t)
    (hpost : Run tickStep t post c) (hno : ∀ x ∈ pre ++ post, x.inp.armTest = false)
    (hclock : ClockMonotone (pre ++ post))
    (hsw : ∀ x ∈ post, ∀ w ∈ x.out.sensed.accepted, SwitchOn w.2)
    (hlink : ∀ hist x later, post = hist ++ x :: later →
      ∀ T ∈ lastDecodeUs (pre ++ hist ++ [x]), x.inp.hal.fsUs - T < kRcTimeoutUs)
    (hreason : ∀ x ∈ post, NoReason x) :
    Along (fun _ x => x.pre.fs.armed = true → x.post.fs.armed = decodes x) post := by
  have hinv₀ : Inv c₀.fs := hboot ▸ inv_boot resetReason
  have hhave : c₀.fs.haveFrame = false := hboot ▸ boot_haveFrame resetReason
  intro hist x later hes hx
  rw [hes] at hpost hclock
  obtain ⟨hhist, hs, -⟩ := hpost.split
  have hmem : x ∈ post := by
    rw [hes]
    simp
  have hrun : Run tickStep c₀ (pre ++ hist ++ [x]) x.post := .snoc (hpre.append hhist) hs
  have hclock' : ClockMonotone (pre ++ hist ++ [x] ++ later) := by simpa using hclock
  have hknown := linkKnown_of_run hrun hhave hclock'.of_append
  refine armed_step hs (inv_of_ticks (hpre.append hhist) hinv₀) hx
    (hno x (List.mem_append_right _ hmem)) (hsw x hmem) (not_fault_of_noReason (hreason x hmem) ?_)
  rw [Bool.eq_false_iff, Ne, timeoutNow_iff hknown hs]
  rintro ⟨T, hT, hle⟩
  exact UInt64.not_lt.mpr hle (hlink hist x later hes T hT)

/-- **When an armed craft stays armed.** A run of ticks from a boot without arm requests, over a clock
that never goes back, armed after the ticks `pre`. If on the later ticks every decoded frame has the arm
switch on, the last decoded frame is less than `kRcTimeoutUs` back and there is no other reason to
disarm, then the craft is armed after all of them if and only if each of them completes a frame. -/
theorem stays_armed_iff {resetReason : UInt32} {c₀ t c : FlightContext K} {pre post : List (Tick K)}
    (hboot : c₀.fs = boot resetReason) (hpre : Run tickStep c₀ pre t)
    (hpost : Run tickStep t post c) (hno : ∀ x ∈ pre ++ post, x.inp.armTest = false)
    (hclock : ClockMonotone (pre ++ post)) (harmed : t.fs.armed = true)
    (hsw : ∀ x ∈ post, ∀ w ∈ x.out.sensed.accepted, SwitchOn w.2)
    (hlink : ∀ hist x later, post = hist ++ x :: later →
      ∀ T ∈ lastDecodeUs (pre ++ hist ++ [x]), x.inp.hal.fsUs - T < kRcTimeoutUs)
    (hreason : ∀ x ∈ post, NoReason x) :
    (∀ x ∈ post, x.post.fs.armed = true) ↔
      ∀ x ∈ post, x.pre.rc.CompletesFrame x.inp.hal.raw := by
  have hstep := armed_along hboot hpre hpost hno hclock hsw hlink hreason
  constructor
  · intro hall x hx
    obtain ⟨hist, later, hes⟩ := List.append_of_mem hx
    have hrun := hpost
    rw [hes] at hrun
    obtain ⟨hhist, hs, -⟩ := hrun.split
    have hpre_armed := armed_of_ticks hhist harmed (fun y hy => hall y (by rw [hes]; simp [hy]))
    rw [← decodes_iff_completes hs, ← hstep hist x later hes hpre_armed]
    exact hall x hx
  · intro hall
    have hkeep : Along (fun _ x => x.pre.fs.armed = true → x.post.fs.armed = true) post := by
      intro hist x later hes hx
      have hmem : x ∈ post := by
        rw [hes]
        simp
      rw [hstep hist x later hes hx, decodes_iff_completes (hpost.step_of_mem hmem)]
      exact hall x hmem
    refine (hpost.each (P := fun b => b.fs.armed = true) hkeep harmed ?_).2
    intro hist e hpre_armed _ hkeep
    exact ⟨hkeep hpre_armed, hkeep hpre_armed⟩

/-- The ticks in which the estimator calibrates, and the ticks with the next nine frames, one frame every `every`
ticks. -/
def nineFrames (every : Nat) : List (TickInput ℚ) :=
  calibTicks ++
    (List.range' 201 (9 * every)).map fun k =>
      levelTick (UInt64.ofNat (1000 * k)) (if (k - 201) % every = 0 then armFrame else []) false

/-- The tick after `nineFrames every`: it brings the tenth frame, `every` milliseconds after the ninth. -/
def tenthTick (every : Nat) : TickInput ℚ :=
  levelTick (UInt64.ofNat (1000 * (201 + 9 * every))) armFrame false

/-- Ten ticks with a frame, after the two hundred without. -/
def armingTicks : List (TickInput ℚ) := nineFrames 1 ++ [tenthTick 1]

/-- The tick 1 ms after `armingTicks`, with a frame or without any bytes. -/
def eleventhTick (frame : Bool) : TickInput ℚ :=
  levelTick 211000 (if frame then armFrame else []) false

set_option maxRecDepth 10000 in
/-- The craft is armed after `armingTicks`, and nothing about the next tick asks it to disarm. -/
theorem armingTicks_run (frame : Bool) :
    ∃ pre x, Run tickStep (.boot 1 .kAttitude) pre x.pre ∧ tickStep x.pre x.inp x.post x.out ∧
      (pre ++ [x]).map Event.inp = armingTicks ++ [eleventhTick frame] ∧
      x.pre.fs.armed = true ∧ lastDecodeUs pre = some 210000 ∧
      (∀ w ∈ x.out.sensed.accepted, SwitchOn w.2) ∧ NoReason x ∧ decodes x = frame := by
  have hrun : (execute (tick 4) (.boot 1 .kAttitude) armingTicks).any (fun r =>
      (tick 4 r.2 (eleventhTick frame)).any fun q =>
        decide (r.2.fs.armed = true ∧ lastDecodeUs r.1 = some 210000 ∧
          (∀ w ∈ q.2.sensed.accepted, SwitchOn w.2) ∧
          NoReason ⟨r.2, eleventhTick frame, q.1, q.2⟩ ∧
          decodes ⟨r.2, eleventhTick frame, q.1, q.2⟩ = frame)) = true := by
    revert frame
    decide +kernel
  obtain ⟨⟨pre, t⟩, hpre, hrun⟩ := (Option.any_eq_true _ _).mp hrun
  obtain ⟨⟨c, out⟩, htick, hfacts⟩ := (Option.any_eq_true _ _).mp hrun
  refine ⟨pre, ⟨t, eleventhTick frame, c, out⟩, ticks_run hpre, ⟨4, htick⟩, ?_, of_decide_eq_true hfacts⟩
  rw [List.map_append, execute_inputs hpre]
  rfl

/-- The clock of the arming ticks and the eleventh tick never goes back. -/
theorem armingTicks_clock {frame : Bool} {es : List (Tick ℚ)}
    (h : es.map Event.inp = armingTicks ++ [eleventhTick frame]) : ClockMonotone es := by
  have htrans : Trans (fun a b : UInt64 => a ≤ b) (fun a b => a ≤ b) (fun a b => a ≤ b) :=
    ⟨UInt64.le_trans⟩
  rw [ClockMonotone, clock_eq_inputs, h, ← List.isChain_iff_pairwise]
  cases frame <;> decide +kernel

/-- Neither an arming tick nor the eleventh tick is an arm request. -/
theorem armingTicks_armTest {frame : Bool} {es : List (Tick ℚ)}
    (h : es.map Event.inp = armingTicks ++ [eleventhTick frame]) :
    ∀ x ∈ es, x.inp.armTest = false := by
  have hall : ∀ i ∈ armingTicks ++ [eleventhTick frame], i.armTest = false := by
    cases frame <;> decide +kernel
  intro x hx
  exact hall x.inp (h ▸ List.mem_map_of_mem hx)

/-- The last frame before the eleventh tick is 1 ms back or on that tick itself. -/
theorem armingTicks_link {frame : Bool} {pre : List (Tick ℚ)} {x : Tick ℚ}
    (hinp : (pre ++ [x]).map Event.inp = armingTicks ++ [eleventhTick frame])
    (hlast : lastDecodeUs pre = some 210000) (hd : decodes x = frame) :
    ∀ hist y later, [x] = hist ++ y :: later →
      ∀ T ∈ lastDecodeUs (pre ++ hist ++ [y]), y.inp.hal.fsUs - T < kRcTimeoutUs := by
  intro hist y later hsplit T hT
  obtain ⟨rfl, rfl, -⟩ : hist = [] ∧ x = y ∧ later = [] := by
    cases hist with
    | nil => simpa [eq_comm] using hsplit
    | cons z zs => simp at hsplit
  rw [List.map_append, List.map_singleton] at hinp
  obtain ⟨-, hx⟩ := List.append_inj' hinp rfl
  rw [List.singleton_inj] at hx
  rw [List.append_nil] at hT
  rw [hx]
  cases frame with
  | false =>
      rw [lastDecodeUs_snoc_of_not hd, hlast, Option.mem_some_iff] at hT
      rw [← hT]
      decide
  | true =>
      rw [lastDecodeUs_snoc_of_decodes hd, hx, Option.mem_some_iff] at hT
      rw [← hT]
      decide

/-- The eleventh tick with a frame: the craft is still armed. -/
theorem stays_armed_iff_eleventh :
    ∃ pre x, Run tickStep (.boot 1 .kAttitude) (pre ++ [x]) x.post ∧
      (pre ++ [x]).map Event.inp = armingTicks ++ [eleventhTick true] ∧ x.post.fs.armed = true := by
  obtain ⟨pre, x, hpre, hs, hinp, harmed, hlast, hsw, hreason, hd⟩ := armingTicks_run true
  have hpost : Run tickStep x.pre ([] ++ [x]) x.post := .snoc (.nil _) hs
  refine ⟨pre, x, .snoc hpre hs, hinp, ?_⟩
  have hboot : (FlightContext.boot 1 .kAttitude : FlightContext ℚ).fs = boot 1 := rfl
  refine (stays_armed_iff hboot hpre hpost (armingTicks_armTest hinp) (armingTicks_clock hinp) harmed
    (by simpa using hsw) (armingTicks_link hinp hlast hd) (by simpa using hreason)).mpr ?_ x (by simp)
  intro y hy
  rw [List.nil_append, List.mem_singleton] at hy
  rw [hy, ← decodes_iff_completes hs, hd]

/-- The eleventh tick without a frame: the craft is disarmed, although the switch is on, the last frame
is 1 ms back and nothing has faulted. -/
theorem disarms_between_frames :
    ¬ ∀ (resetReason : UInt32) (c₀ t c : FlightContext ℚ) (pre post : List (Tick ℚ)),
      c₀.fs = boot resetReason → Run tickStep c₀ pre t → Run tickStep t post c →
      (∀ x ∈ pre ++ post, x.inp.armTest = false) → ClockMonotone (pre ++ post) →
      t.fs.armed = true → (∀ x ∈ post, ∀ w ∈ x.out.sensed.accepted, SwitchOn w.2) →
      (∀ hist x later, post = hist ++ x :: later →
        ∀ T ∈ lastDecodeUs (pre ++ hist ++ [x]), x.inp.hal.fsUs - T < kRcTimeoutUs) →
      (∀ x ∈ post, NoReason x) → ∀ x ∈ post, x.post.fs.armed = true := by
  intro h
  obtain ⟨pre, x, hpre, hs, hinp, harmed, hlast, hsw, hreason, hd⟩ := armingTicks_run false
  have hno := armingTicks_armTest hinp
  have hpost : Run tickStep x.pre ([] ++ [x]) x.post := .snoc (.nil _) hs
  have hclock := armingTicks_clock hinp
  have hlink := armingTicks_link hinp hlast hd
  have hstill := h 1 _ _ _ pre [x] rfl hpre hpost hno hclock harmed (by simpa using hsw) hlink
    (by simpa using hreason) x (by simp)
  have hknown := linkKnown_of_run (.snoc hpre hs) (boot_haveFrame 1) hclock
  have htime : x.pre.fs.timeoutNow (fsArgs x.pre x.inp x.out.sensed) = false := by
    rw [Bool.eq_false_iff, Ne, timeoutNow_iff hknown hs]
    rintro ⟨T, hT, hle⟩
    exact UInt64.not_lt.mpr hle (hlink [] x [] rfl T (by simpa using hT))
  rw [armed_step hs (inv_of_ticks hpre (inv_boot 1)) harmed (hno x (by simp)) hsw
    (not_fault_of_noReason hreason htime), hd] at hstill
  cases hstill

/-! ## Arming on the tenth frame -/

/-- The number of frames that a run of ticks decoded, counting each of those that one tick took. -/
def framesDecoded (es : List (Tick K)) : Nat := (es.map fun e => e.out.sensed.accepted.length).sum

omit [Field K] [LinearOrder K] [FloatEnv K] in
/-- The frames of a run are those of its parts. -/
theorem framesDecoded_append (es fs : List (Tick K)) :
    framesDecoded (es ++ fs) = framesDecoded es + framesDecoded fs := by
  rw [framesDecoded, List.map_append, List.sum_append]
  rfl

omit [Field K] [LinearOrder K] [FloatEnv K] in
/-- A tick decodes a frame exactly when it decodes at least one. -/
theorem decodes_iff_pos {e : Tick K} : decodes e = true ↔ 1 ≤ e.out.sensed.accepted.length := by
  rw [decodes]
  cases e.out.sensed.accepted <;> simp

omit [Field K] [LinearOrder K] [FloatEnv K] in
/-- Ticks that all decode a frame decode at least as many frames. -/
theorem length_le_framesDecoded {es : List (Tick K)} (h : ∀ x ∈ es, decodes x = true) :
    es.length ≤ framesDecoded es := by
  induction es with
  | nil => exact Nat.zero_le _
  | cons e es ih =>
      have he := decodes_iff_pos.mp (h e (by simp))
      have hrest := ih fun x hx => h x (by simp [hx])
      simp only [framesDecoded, List.map_cons, List.sum_cons, List.length_cons] at hrest ⊢
      omega

omit [Field K] [LinearOrder K] [FloatEnv K] in
/-- In a run that decoded no frame, no tick decoded one. -/
theorem decodes_eq_false {es : List (Tick K)} (h : framesDecoded es = 0) :
    ∀ x ∈ es, decodes x = false := by
  intro x hx
  obtain ⟨before, after, rfl⟩ := List.append_of_mem hx
  rw [framesDecoded_append, framesDecoded, framesDecoded, List.map_cons, List.sum_cons] at h
  rw [Bool.eq_false_iff, Ne, decodes_iff_pos]
  omega

/-- The good frames counted are frames decoded, and a craft that is armed has decoded ten. -/
theorem goodFrames_le {c c' : FlightContext K} {es : List (Tick K)} (hrun : Run tickStep c es c')
    (hreset : c.fs = reset) (hno : ∀ x ∈ es, x.inp.armTest = false) :
    c'.fs.goodFrames ≤ framesDecoded es ∧
      (c'.fs.armed = true → kArmMinGoodFrames ≤ framesDecoded es) := by
  refine hrun.induct (along_of_forall hno) (P := fun hist b => b.fs.goodFrames ≤ framesDecoded hist ∧
    (b.fs.armed = true → kArmMinGoodFrames ≤ framesDecoded hist)) ?_ ?_
  · rw [hreset]
    exact ⟨Nat.zero_le _, fun h => Bool.noConfusion h⟩
  · rintro hist e ⟨hle, harmed⟩ ⟨fuel, htick⟩ hno
    have spec := tick_spec htick
    have hgood : e.pre.fs.goodFramesNext e.out.sensed.rc ≤ framesDecoded (hist ++ [e]) := by
      rw [framesDecoded_append]
      unfold goodFramesNext
      split_ifs with hfresh
      · have hd : decodes e = true := by
          rw [← frameOk_eq_decodes spec]
          exact (fresh_iff.mp hfresh).1
        have hlen : [e].length ≤ framesDecoded [e] := length_le_framesDecoded (by simpa using hd)
        rw [List.length_singleton] at hlen
        omega
      · exact Nat.zero_le _
    refine ⟨?_, fun h => ?_⟩
    · rw [spec.fs, update_goodFrames]
      exact hgood
    · cases h0 : e.pre.fs.armed with
      | true =>
          rw [framesDecoded_append]
          exact Nat.le_trans (harmed h0) (Nat.le_add_right _ _)
      | false =>
          rw [spec.fs] at h
          obtain ⟨-, -, -, -, -, hneed⟩ := armed_of_update (u := fsArgs e.pre e.inp e.out.sensed) hno h
          exact Nat.le_trans (hneed h0).2.1 hgood

/-- The updates of some ticks of a run carry fresh frames exactly when the ticks complete frames at
increasing times. -/
theorem freshFrames_map {c c' : FlightContext K} {es ten : List (Tick K)}
    (hrun : Run tickStep c es c') (hsub : ∀ x ∈ ten, x ∈ es) :
    FreshFrames (ten.map fsUpdate) ↔
      (∀ x ∈ ten, x.pre.rc.CompletesFrame x.inp.hal.raw) ∧
        ten.Pairwise fun x y => x.inp.hal.rcUs < y.inp.hal.rcUs := by
  have hok : ∀ x ∈ ten, (fsUpdate x).inp.rc.frameOk = true ↔
      x.pre.rc.CompletesFrame x.inp.hal.raw := by
    intro x hx
    have hs := hrun.step_of_mem (hsub x hx)
    rw [← decodes_iff_completes hs]
    obtain ⟨fuel, htick⟩ := hs
    rw [← frameOk_eq_decodes (tick_spec htick)]
    rfl
  have htUs : ∀ x ∈ ten, (fsUpdate x).inp.rc.tUs = x.inp.hal.rcUs := by
    intro x hx
    obtain ⟨fuel, htick⟩ := hrun.step_of_mem (hsub x hx)
    exact (tick_spec htick).sensed.tUs
  have hinc : (ten.map fsUpdate).Pairwise (fun x y => x.inp.rc.tUs < y.inp.rc.tUs) ↔
      ten.Pairwise fun x y => x.inp.hal.rcUs < y.inp.hal.rcUs := by
    rw [List.pairwise_map]
    refine List.Pairwise.iff_of_mem fun {x y} hx hy => ?_
    rw [htUs x hx, htUs y hy]
  rw [← hinc]
  constructor
  · rintro ⟨h1, h2⟩
    exact ⟨fun x hx => (hok x hx).mp (h1 _ (List.mem_map_of_mem hx)), h2⟩
  · rintro ⟨h1, h2⟩
    refine ⟨fun y hy => ?_, h2⟩
    obtain ⟨x, hx, rfl⟩ := List.mem_map.mp hy
    exact (hok x hx).mpr (h1 x hx)

/-- Ticks that complete frames at increasing times, after ticks that decoded none, are all counted. -/
theorem length_le_goodFrames {c c' : FlightContext K} {old ten : List (Tick K)}
    (hrun : Run tickStep c (old ++ ten) c') (h0 : c.fs.haveFrame = false)
    (hold : framesDecoded old = 0) (hcomplete : ∀ x ∈ ten, x.pre.rc.CompletesFrame x.inp.hal.raw)
    (hinc : ten.Pairwise fun x y => x.inp.hal.rcUs < y.inp.hal.rcUs) :
    ten.length ≤ c'.fs.goodFrames := by
  obtain ⟨t, hbefore, hten⟩ := hrun.append_inv
  have hbad : ∀ x ∈ old.map fsUpdate, x.inp.rc.frameOk = false := by
    intro y hy
    obtain ⟨x, hx, rfl⟩ := List.mem_map.mp hy
    obtain ⟨fuel, htick⟩ := hbefore.step_of_mem hx
    exact (frameOk_eq_decodes (tick_spec htick)).trans (decodes_eq_false hold x hx)
  have hhave : t.fs.haveFrame = false := (haveFrame_of_run (fsRun hbefore) hbad).trans h0
  have hfresh := (freshFrames_map hten fun x hx => hx).mpr ⟨hcomplete, hinc⟩
  have hcount := (goodFrames_of_run (fsRun hten) hhave hfresh).1
  rwa [List.length_map] at hcount

/-- Every decoded frame has the arm switch on and the throttle closed. -/
def ArmingFrames (es : List (Tick K)) : Prop :=
  ∀ x ∈ es, ∀ w ∈ x.out.sensed.accepted,
    SwitchOn w.2 ∧ SbusParser.normThrottle (SbusParser.channel w.2 2) ≤ (kArmThrottleMax : Flt K)

instance (es : List (Tick K)) : Decidable (ArmingFrames es) := inferInstanceAs (Decidable (∀ x ∈ es, _))

/-- The frames of a run follow each other closely: the next tick that decodes one comes later than the last,
by less than `kRcTimeoutUs`. -/
def FramesClose (es : List (Tick K)) : Prop :=
  ((es.filter decodes).map fun x => x.inp.hal.rcUs).IsChain fun S T => S < T ∧ T - S < kRcTimeoutUs

instance (es : List (Tick K)) : Decidable (FramesClose es) :=
  inferInstanceAs (Decidable (List.IsChain _ _))

/-- A craft that arms on its tenth frame has ten ticks with frames at increasing times behind it. -/
theorem ten_of_armed {c₀ c : FlightContext K} {hist : List (Tick K)} {e : Tick K}
    (hreset : c₀.fs = reset) (hrun : Run tickStep c₀ (hist ++ [e]) c)
    (hno : ∀ x ∈ hist ++ [e], x.inp.armTest = false) (h9 : framesDecoded hist < 10)
    (harmed : e.post.fs.armed = true) :
    ∃ old ten, hist ++ [e] = old ++ ten ∧ ten.length = 10 ∧
      (∀ x ∈ ten, x.pre.rc.CompletesFrame x.inp.hal.raw) ∧
      ten.Pairwise fun x y => x.inp.hal.rcUs < y.inp.hal.rcUs := by
  obtain ⟨hrun', ⟨fuel, htick⟩, hpost⟩ := hrun.snoc_inv
  have spec := tick_spec htick
  have h0 : e.pre.fs.armed = false := by
    rw [Bool.eq_false_iff]
    intro h
    have hten := (goodFrames_le hrun' hreset fun x hx => hno x (by simp [hx])).2 h
    exact absurd hten (Nat.not_le.mpr h9)
  rw [spec.fs] at harmed
  obtain ⟨-, -, -, -, -, hneed⟩ := armed_of_update (u := fsArgs e.pre e.inp e.out.sensed)
    (hno e (by simp)) harmed
  have hgood : 10 ≤ e.pre.fs.goodFramesNext e.out.sensed.rc := (hneed h0).2.1
  have hfs := fsRun hrun
  rw [hreset, show (reset : FailsafeFsm) = boot 0 from rfl] at hfs
  obtain ⟨old', ten', heq, hlen, hfresh⟩ :=
    (past_of_run hfs (armTest_fsUpdate hno)).streak.last (k := 10) (by
      rw [← hpost, spec.fs, update_goodFrames]
      exact hgood)
  obtain ⟨old, ten, hsplit, rfl, rfl⟩ := List.map_eq_append_iff.mp heq
  rw [List.length_map] at hlen
  obtain ⟨hcomplete, hinc⟩ := (freshFrames_map hrun fun x hx => by
    rw [hsplit]
    exact List.mem_append_right _ hx).mp hfresh
  exact ⟨old, ten, hsplit, hlen, hcomplete, hinc⟩

/-- Nine ticks with frames at increasing times and one more are counted, when they have the first ten
frames of the run. -/
theorem ten_le_goodFrames {c₀ c : FlightContext K} {old nine : List (Tick K)} {e : Tick K}
    (hreset : c₀.fs = reset) (hrun : Run tickStep c₀ (old ++ (nine ++ [e])) c)
    (hlen : (nine ++ [e]).length = 10)
    (hcomplete : ∀ x ∈ nine ++ [e], x.pre.rc.CompletesFrame x.inp.hal.raw)
    (hinc : (nine ++ [e]).Pairwise fun x y => x.inp.hal.rcUs < y.inp.hal.rcUs)
    (h9 : framesDecoded (old ++ nine) < 10) : 10 ≤ c.fs.goodFrames := by
  have hd : ∀ x ∈ nine, decodes x = true := fun x hx =>
    (decodes_iff_completes (hrun.step_of_mem (by simp [hx]))).mpr (hcomplete x (by simp [hx]))
  -- the nine ticks took nine frames, so nothing was decoded before them
  have hnine := length_le_framesDecoded hd
  have hold : framesDecoded old = 0 := by
    rw [framesDecoded_append] at h9
    rw [List.length_append, List.length_singleton] at hlen
    omega
  have hhave : c₀.fs.haveFrame = false := by
    rw [hreset]
    rfl
  rw [← hlen]
  exact length_le_goodFrames hrun hhave hold hcomplete hinc

/-- **When the tenth frame arms.** A run of ticks from a clean boot without arm requests or faults, the
estimator calibrated, every decoded frame with the arm switch on and the throttle closed, ending with
the tick that decodes the tenth frame. The craft is armed after it if and only if each of the last ten
ticks completes a frame, at increasing times. -/
theorem tenth_frame_arms_iff {resetReason : UInt32} {c₀ c : FlightContext K} {hist : List (Tick K)}
    {e : Tick K} (hboot : c₀.fs = boot resetReason) (hclean : afterFault resetReason = false)
    (hrun : Run tickStep c₀ (hist ++ [e]) c) (hno : ∀ x ∈ hist ++ [e], x.inp.armTest = false)
    (hcal : e.pre.est.calibrated = true)
    (hfault : ∀ x ∈ hist ++ [e], ¬ x.pre.fs.FaultObserved (fsArgs x.pre x.inp x.out.sensed))
    (hframes : ArmingFrames (hist ++ [e]))
    (h9 : framesDecoded hist < 10) (h10 : 10 ≤ framesDecoded (hist ++ [e])) :
    e.post.fs.armed = true ↔
      ∃ old ten, hist ++ [e] = old ++ ten ∧ ten.length = 10 ∧
        (∀ x ∈ ten, x.pre.rc.CompletesFrame x.inp.hal.raw) ∧
        ten.Pairwise fun x y => x.inp.hal.rcUs < y.inp.hal.rcUs := by
  have hreset : c₀.fs = reset := by
    rw [hboot, boot, hclean]
    rfl
  refine ⟨ten_of_armed hreset hrun hno h9, ?_⟩
  rintro ⟨old, ten, hten, hlen, hcomplete, hinc⟩
  have he : e ∈ hist ++ [e] := by simp
  obtain ⟨hrun', hs, hpost⟩ := hrun.snoc_inv
  have hde : decodes e = true := decodes_iff_pos.mpr (by
    have happ := framesDecoded_append hist [e]
    have hone : framesDecoded [e] = e.out.sensed.accepted.length := by simp [framesDecoded]
    omega)
  obtain ⟨nine, rfl⟩ : ∃ nine, ten = nine ++ [e] := by
    rcases List.eq_nil_or_concat ten with rfl | ⟨nine, y, rfl⟩
    · simp at hlen
    · rw [List.concat_eq_append, ← List.append_assoc] at hten
      obtain ⟨-, hy⟩ := List.append_inj' hten rfl
      exact ⟨nine, by rw [List.concat_eq_append, ← hy]⟩
  rw [← List.append_assoc] at hten
  obtain ⟨rfl, -⟩ := List.append_inj' hten rfl
  have hcount := ten_le_goodFrames hreset (by rwa [← List.append_assoc]) hlen hcomplete hinc h9
  obtain ⟨fuel, htick⟩ := hs
  have spec := tick_spec htick
  rw [← hpost, spec.fs, update_goodFrames] at hcount
  obtain ⟨hactive, hlatched, hbootLatched⟩ := latches_of_run (fsRun hrun')
    (armTest_fsUpdate fun x hx => hno x (List.mem_append_left _ hx)) (fun y hy => by
      obtain ⟨x, hx, rfl⟩ := List.mem_map.mp hy
      exact hfault x (List.mem_append_left _ hx))
  rw [hreset] at hactive hlatched hbootLatched
  obtain ⟨w, hw, hon, hthr⟩ := rc_of_decodes spec hde
  obtain ⟨hsw, hlow⟩ := hframes e he w hw
  rw [spec.fs]
  exact update_arms hactive hlatched hbootLatched (hno e he) (hfault e he)
    ((frameOk_eq_decodes spec).trans hde) (hon hsw) hcal hcount (hthr ▸ hlow)

set_option maxRecDepth 10000 in
/-- What the run over ten frames looks like, with a frame on every tick or on every second. -/
theorem tenFrames_run {every : Nat} (hevery : every = 1 ∨ every = 2) :
    ∃ hist e, Run tickStep (.boot 1 .kAttitude) (hist ++ [e]) e.post ∧
      (hist ++ [e]).map Event.inp = nineFrames every ++ [tenthTick every] ∧
      e.pre.est.calibrated = true ∧
      (∀ x ∈ hist ++ [e], ¬ x.pre.fs.FaultObserved (fsArgs x.pre x.inp x.out.sensed)) ∧
      ArmingFrames (hist ++ [e]) ∧ FramesClose (hist ++ [e]) ∧
      framesDecoded hist = 9 ∧ framesDecoded (hist ++ [e]) = 10 ∧
      (∀ x ∈ hist ++ [e], decodes x = !x.inp.hal.raw.isEmpty) ∧
      e.post.fs.armed = decide (every = 1) := by
  have hrun : (execute (tick 4) (.boot 1 .kAttitude) (nineFrames every)).any (fun r =>
      (tick 4 r.2 (tenthTick every)).any fun q =>
        let es := r.1 ++ [⟨r.2, tenthTick every, q.1, q.2⟩]
        decide (r.2.est.calibrated = true ∧
          (∀ x ∈ es, ¬ x.pre.fs.FaultObserved (fsArgs x.pre x.inp x.out.sensed)) ∧
          ArmingFrames es ∧ FramesClose es ∧
          framesDecoded r.1 = 9 ∧ framesDecoded es = 10 ∧
          (∀ x ∈ es, decodes x = !x.inp.hal.raw.isEmpty) ∧
          q.1.fs.armed = decide (every = 1))) = true := by
    rcases hevery with rfl | rfl <;> decide +kernel
  obtain ⟨⟨hist, t⟩, hhist, hrun⟩ := (Option.any_eq_true _ _).mp hrun
  obtain ⟨⟨c, out⟩, htick, hfacts⟩ := (Option.any_eq_true _ _).mp hrun
  refine ⟨hist, ⟨t, tenthTick every, c, out⟩, .snoc (ticks_run hhist) ⟨4, htick⟩, ?_,
    of_decide_eq_true hfacts⟩
  rw [List.map_append, execute_inputs hhist]
  rfl

/-- Ten frames on ten ticks in a row arm the craft. -/
theorem tenth_frame_arms_iff_in_a_row :
    ∃ hist e, Run tickStep (.boot 1 .kAttitude) (hist ++ [e]) e.post ∧
      (hist ++ [e]).map Event.inp = nineFrames 1 ++ [tenthTick 1] ∧ e.post.fs.armed = true := by
  obtain ⟨hist, e, hrun, hinp, hcal, hfault, hframes, -, h9, h10, hgiven, -⟩ := tenFrames_run (.inl rfl)
  have hboot : (FlightContext.boot 1 .kAttitude : FlightContext ℚ).fs = boot 1 := rfl
  have hno : ∀ i ∈ nineFrames 1 ++ [tenthTick 1], i.armTest = false := by decide +kernel
  have hten : ((hist ++ [e]).drop 200).map Event.inp = (nineFrames 1 ++ [tenthTick 1]).drop 200 := by
    rw [List.map_drop, hinp]
  refine ⟨hist, e, hrun, hinp, (tenth_frame_arms_iff hboot (by decide) hrun
    (fun x hx => hno x.inp (hinp ▸ List.mem_map_of_mem hx)) hcal hfault hframes (by omega)
    (by omega)).mpr ⟨(hist ++ [e]).take 200, (hist ++ [e]).drop 200, ?_, ?_, ?_, ?_⟩⟩
  · rw [List.take_append_drop]
  · rw [← List.length_map (f := Event.inp), hten]
    decide
  · intro x hx
    have hmem := List.mem_of_mem_drop hx
    have hframe : ∀ i ∈ (nineFrames 1 ++ [tenthTick 1]).drop 200, (!i.hal.raw.isEmpty) = true := by
      decide
    rw [← decodes_iff_completes (hrun.step_of_mem hmem), hgiven x hmem]
    exact hframe x.inp (hten ▸ List.mem_map_of_mem hx)
  · have hinc : ((nineFrames 1 ++ [tenthTick 1]).drop 200).Pairwise
        fun x y => x.hal.rcUs < y.hal.rcUs := by
      decide
    rw [← hten, List.pairwise_map] at hinc
    exact hinc

/-- Ten frames on every second tick do not arm the craft. -/
theorem never_arms_between_frames :
    ¬ ∀ (resetReason : UInt32) (c₀ c : FlightContext ℚ) (hist : List (Tick ℚ)) (e : Tick ℚ),
      c₀.fs = boot resetReason → afterFault resetReason = false → Run tickStep c₀ (hist ++ [e]) c →
      (∀ x ∈ hist ++ [e], x.inp.armTest = false) → e.pre.est.calibrated = true →
      (∀ x ∈ hist ++ [e], ¬ x.pre.fs.FaultObserved (fsArgs x.pre x.inp x.out.sensed)) →
      ArmingFrames (hist ++ [e]) → FramesClose (hist ++ [e]) → framesDecoded hist = 9 →
      framesDecoded (hist ++ [e]) = 10 → e.post.fs.armed = true := by
  intro h
  obtain ⟨hist, e, hrun, hinp, hcal, hfault, hframes, hclose, h9, h10, -, harmed⟩ :=
    tenFrames_run (.inr rfl)
  have hno : ∀ i ∈ nineFrames 2 ++ [tenthTick 2], i.armTest = false := by decide +kernel
  have hstill := h 1 _ _ hist e rfl (by decide) hrun
    (fun x hx => hno x.inp (hinp ▸ List.mem_map_of_mem hx)) hcal hfault hframes hclose h9 h10
  rw [harmed] at hstill
  cases hstill

end ControlLoop

end DroneMini
