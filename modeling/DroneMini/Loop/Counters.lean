import DroneMini.Flight.IntCounters
import DroneMini.Lib.Debounce
import DroneMini.Lib.Tally
import DroneMini.Loop.Arming

/-!
# Runs of ticks with counters that are `int`

A run of ticks is a run of `tickInt` as long as the two counters that only grow stay `int`s
(`runInt_iff`). One of them is the row of fresh frames at the end of the history (`goodFrames_eq_streak`),
the other the frames decoded since the parser was last reset (`frames_eq_tally`), so both are conditions on
the frames that come in; `frame_run` is a run in which every tick brings a fresh one.
-/

namespace DroneMini

namespace ControlLoop

open Debounce Tally FailsafeFsm

variable {K : Type} [Field K] [LinearOrder K] [FloatEnv K]

/-- One control tick whose counters are `int`: it returns for some budget, and no counter overflows. -/
def tickIntStep (c : FlightContext K) (inp : TickInput K) (c' : FlightContext K) (out : TickOutput K) :
    Prop := ∃ fuel, tickInt fuel c inp = some (c', out)

/-- A tick from a context whose counters are `int`s overflows or leaves such a context. -/
theorem IntCounters.step {c c' : FlightContext K} {inp : TickInput K} {out : TickOutput K}
    (h : IntCounters c) : tickIntStep c inp c' out ↔ tickStep c inp c' out ∧ IntCounters c' := by
  constructor
  · rintro ⟨fuel, hint⟩
    obtain ⟨htick, hgood, hframes⟩ := (tickInt_checks h fuel inp _).mp hint
    have spec := tick_spec htick
    refine ⟨⟨fuel, htick⟩, ?_, ?_, hgood, hframes⟩
    · rw [spec.fs]
      exact h.fs.update _
    · cases harmed : c'.fs.armed with
      | true => exact h.est.update (spec.est_of_armed harmed)
      | false =>
          rw [spec.est_of_disarmed harmed]
          exact h.est.calibrateUpdate _
  · rintro ⟨⟨fuel, htick⟩, hc'⟩
    exact ⟨fuel, (tickInt_checks h fuel inp _).mpr ⟨htick, hc'.goodFrames, hc'.frames⟩⟩

/-- The counters of every context of a run without overflow are `int`s. -/
theorem intCounters_of_runInt {c₀ c : FlightContext K} {es : List (Tick K)} (h0 : IntCounters c₀)
    (h : Run tickIntStep c₀ es c) : IntCounters c ∧ ∀ e ∈ es, IntCounters e.post := by
  obtain ⟨hlast, hall⟩ := h.invariant h0 fun a inp b out ha hs => (ha.step.mp hs).2
  exact ⟨hlast, fun e he => (hall e he).2⟩

/-- **A run overflows nowhere exactly when the two counters that only grow stay `int`s.** -/
theorem runInt_iff {c₀ c : FlightContext K} {es : List (Tick K)} (h0 : IntCounters c₀)
    (hrun : Run tickStep c₀ es c) : Run tickIntStep c₀ es c ↔
      (∀ e ∈ es, e.post.fs.goodFrames ≤ intMax) ∧ ∀ e ∈ es, e.post.rc.frames ≤ intMax := by
  constructor
  · intro h
    have hall := (intCounters_of_runInt h0 h).2
    exact ⟨fun e he => (hall e he).goodFrames, fun e he => (hall e he).frames⟩
  · rintro ⟨hgood, hframes⟩
    have hboth : ∀ e ∈ es, e.post.fs.goodFrames ≤ intMax ∧ e.post.rc.frames ≤ intMax :=
      fun e he => ⟨hgood e he, hframes e he⟩
    refine (hrun.induct (P := fun hist b => IntCounters b ∧ Run tickIntStep c₀ hist b)
      (along_of_forall hboth) ⟨h0, .nil c₀⟩ ?_).2
    rintro hist e ⟨hpre, hint⟩ ⟨fuel, htick⟩ hbounds
    have hs : tickIntStep e.pre e.inp e.post e.out :=
      ⟨fuel, (tickInt_checks hpre fuel _ _).mpr ⟨htick, hbounds⟩⟩
    exact ⟨(hpre.step.mp hs).2, .snoc hint hs⟩

/-! ## The good frames -/

/-- A tick brings a fresh frame: its bytes complete one, and its clock is past that of the last one. -/
def Fresh (x : Tick K) : Prop :=
  x.pre.rc.CompletesFrame x.inp.hal.raw ∧
    (x.pre.fs.haveFrame = false ∨ x.pre.fs.lastGoodUs < x.inp.hal.rcUs)

/-- The arm state machine takes the sample of the tick for a fresh frame. -/
def takesFresh (x : Tick K) : Bool := x.pre.fs.fresh x.out.sensed.rc

/-- The arm state machine takes the sample of a tick for a fresh frame exactly when the tick brings one. -/
theorem takesFresh_iff {x : Tick K} (hs : tickStep x.pre x.inp x.post x.out) :
    takesFresh x = true ↔ Fresh x := by
  have hcompletes := decodes_iff_completes hs
  obtain ⟨fuel, htick⟩ := hs
  have spec := tick_spec htick
  rw [takesFresh, fresh_iff, frameOk_eq_decodes spec, hcompletes, spec.sensed.tUs]
  exact Iff.rfl

/-- **`good_frames_` counts the fresh frames in a row** that end the history of a run, if it starts from
zero. -/
theorem goodFrames_eq_streak {c₀ c : FlightContext K} {es : List (Tick K)} (h0 : c₀.fs.goodFrames = 0)
    (hrun : Run tickStep c₀ es c) : c.fs.goodFrames = streak takesFresh es := by
  refine hrun.history (P := fun hist b => b.fs.goodFrames = streak takesFresh hist) h0 ?_
  rintro hist e hpre ⟨fuel, htick⟩
  rw [streak_concat, (tick_spec htick).fs, update_goodFrames, ← hpre]
  exact rfl

/-- What the arm test on `good_frames_` means: the last ticks each brought a fresh frame. -/
theorem le_goodFrames_iff {c₀ c : FlightContext K} {es : List (Tick K)} (h0 : c₀.fs.goodFrames = 0)
    (hrun : Run tickStep c₀ es c) (k : Nat) : k ≤ c.fs.goodFrames ↔
      ∃ old last, es = old ++ last ∧ last.length = k ∧ ∀ x ∈ last, Fresh x := by
  rw [goodFrames_eq_streak h0 hrun, le_streak_iff]
  refine exists_congr fun old => exists_congr fun last => and_congr_right fun hes =>
    and_congr_right fun _ => forall₂_congr fun x hx => ?_
  exact takesFresh_iff (hrun.step_of_mem (hes ▸ List.mem_append_right _ hx))

/-- No more fresh frames come in a row than an `int` can count. -/
def FreshRowsFit (es : List (Tick K)) : Prop :=
  ∀ old row later, es = old ++ row ++ later → (∀ x ∈ row, Fresh x) → row.length ≤ intMax

/-- `good_frames_` stays an `int` exactly when the rows of fresh frames fit. -/
theorem goodFrames_le_iff {c₀ c : FlightContext K} {es : List (Tick K)} (h0 : c₀.fs.goodFrames = 0)
    (hrun : Run tickStep c₀ es c) : (∀ e ∈ es, e.post.fs.goodFrames ≤ intMax) ↔ FreshRowsFit es := by
  rw [hrun.forall_post_iff (f := fun c => c.fs.goodFrames) (g := streak takesFresh)
    (fun before u h => goodFrames_eq_streak h0 h) (Nat.zero_le _)]
  constructor
  · intro h old row later hes hrow
    have htaken : ∀ x ∈ row, takesFresh x = true := fun x hx =>
      (takesFresh_iff (hrun.step_of_mem (by simp [hes, hx]))).mpr (hrow x hx)
    have hends : row.length ≤ streak takesFresh (old ++ row) :=
      le_streak_iff.mpr ⟨old, row, rfl, rfl, htaken⟩
    exact hends.trans (h (old ++ row) later hes)
  · intro h before later hes
    obtain ⟨old, row, rfl, hlen, hrow⟩ := le_streak_iff.mp (le_refl (streak takesFresh before))
    rw [← hlen]
    exact h old row later hes fun x hx =>
      (takesFresh_iff (hrun.step_of_mem (by simp [hes, hx]))).mp (hrow x hx)

/-! ## The frames of the parser -/

/-- The bytes of a tick do not fit behind the pending ones, so the parser starts again. -/
def overruns (x : Tick K) : Bool :=
  decide (x.inp.hal.raw.length ≠ 0 ∧ kBuf < x.pre.rc.n + x.inp.hal.raw.length)

/-- The frames that the bytes of a tick complete: those the scan accepts in what the call to `feed` looks
at. -/
def framesIn (x : Tick K) : Nat :=
  if x.inp.hal.raw.length = 0 ∨ kBuf < x.inp.hal.raw.length then 0
  else (SbusParser.framing.scan 0 (x.pre.rc.work x.inp.hal.raw)).1.length

/-- After a call to `feed` with some bytes, `frames_` has gone up by the accepted frames, from zero if the
parser had to start again. -/
theorem frames_of_feed {p : SbusParser} {data : List UInt8} {out : RcSample K} {r : FeedResult K}
    (h : p.feed data out = some r) (h0 : data.length ≠ 0) :
    r.parser.frames = (if kBuf < p.n + data.length then 0 else p.frames) +
      if kBuf < data.length then 0 else (SbusParser.framing.scan 0 (p.work data)).1.length := by
  by_cases hlong : kBuf < data.length
  · rw [SbusParser.feed_of_rejected p out (.inr hlong), Option.some.injEq] at h
    rw [if_pos (Nat.lt_add_left _ hlong), if_pos hlong, ← h]
    rfl
  · obtain ⟨r', hr', spec⟩ := SbusParser.feed_spec p out h0 (Nat.not_lt.mp hlong)
    obtain rfl := Option.some.inj (h.symm.trans hr')
    rw [spec.frames, spec.accepted, if_neg hlong, SbusParser.room, apply_ite SbusParser.frames]
    rfl

/-- After a tick, `frames_` has gone up by the frames its bytes complete, from zero if they overran the
buffer. -/
theorem frames_of_tick {x : Tick K} (hs : tickStep x.pre x.inp x.post x.out) :
    x.post.rc.frames = (if overruns x then 0 else x.pre.rc.frames) + framesIn x := by
  obtain ⟨fuel, htick⟩ := hs
  have spec := tick_spec htick
  have hsense := spec.sense
  unfold sense at hsense
  rw [spec.rc]
  by_cases hempty : x.inp.hal.raw.length = 0
  · rw [if_pos hempty, Option.pure_def, Option.some.injEq] at hsense
    have hover : overruns x = false := decide_eq_false fun h => h.1 hempty
    have hnone : framesIn x = 0 := if_pos (Or.inl hempty)
    rw [← hsense, hover, hnone]
    rfl
  · rw [if_neg hempty] at hsense
    obtain ⟨r, hr, hsense⟩ := Option.bind_eq_some_iff.mp hsense
    rw [Option.pure_def, Option.some.injEq] at hsense
    rw [← hsense]
    have hframes := frames_of_feed hr hempty
    simpa only [overruns, framesIn, hempty, not_false_eq_true, ne_eq, true_and, false_or,
      decide_eq_true_iff] using hframes

/-- **`frames_` counts the frames decoded since the parser was last reset.** -/
theorem frames_eq_tally {c₀ c : FlightContext K} {es : List (Tick K)} (h0 : c₀.rc.frames = 0)
    (hrun : Run tickStep c₀ es c) : c.rc.frames = tally overruns framesIn es := by
  refine hrun.history (P := fun hist b => b.rc.frames = tally overruns framesIn hist) h0 ?_
  intro hist e hpre hs
  rw [tally_concat, ← hpre, frames_of_tick hs]

/-- No more frames are decoded between two resets of the parser than an `int` can count. -/
def FramesFit (es : List (Tick K)) : Prop :=
  ∀ old stretch later, es = old ++ stretch ++ later → Stretch overruns stretch →
    (stretch.map framesIn).sum ≤ intMax

/-- `frames_` stays an `int` over a run exactly when no stretch between two restarts of the parser has more
frames than fit. -/
theorem frames_le_iff {c₀ c : FlightContext K} {es : List (Tick K)} (h0 : c₀.rc.frames = 0)
    (hrun : Run tickStep c₀ es c) : (∀ e ∈ es, e.post.rc.frames ≤ intMax) ↔ FramesFit es := by
  rw [hrun.forall_post_iff (f := fun c => c.rc.frames) (g := tally overruns framesIn)
    (fun before u h => frames_eq_tally h0 h) (Nat.zero_le _)]
  exact tally_le_iff

/-! ## Runs without overflow -/

/-- A context whose parser, estimator and arm state machine have just started. -/
structure Booted (c : FlightContext K) : Prop where
  rc : c.rc = .reset
  est : c.est = .new
  fs : ∃ resetReason, c.fs = FailsafeFsm.boot resetReason

omit [LinearOrder K] in
/-- A context that has just started has counted nothing, and its counters are `int`s. -/
theorem Booted.intCounters {c : FlightContext K} (h : Booted c) :
    IntCounters c ∧ c.fs.goodFrames = 0 ∧ c.rc.frames = 0 := by
  obtain ⟨resetReason, hfs⟩ := h.fs
  have hcounts : Counts c.fs := hfs ▸ counts_boot resetReason
  have hgood : c.fs.goodFrames = 0 := hfs ▸ boot_goodFrames resetReason
  have hframes : c.rc.frames = 0 := by
    rw [h.rc]
    rfl
  exact ⟨⟨hcounts, h.est ▸ ComplementaryEstimator.held_new, hgood ▸ Nat.zero_le _, hframes ▸ Nat.zero_le _⟩,
    hgood, hframes⟩

/-- No counter overflows in the run, and after every tick the arm test on `good_frames_` asks for that many
fresh frames in a row. -/
def NoOverflow (c₀ : FlightContext K) (es : List (Tick K)) (c : FlightContext K) : Prop :=
  Run tickIntStep c₀ es c ∧ ∀ hist e later, es = hist ++ e :: later →
    (kArmMinGoodFrames ≤ e.post.fs.goodFrames ↔
      ∃ old last, hist ++ [e] = old ++ last ∧ last.length = kArmMinGoodFrames ∧ ∀ x ∈ last, Fresh x)

/-- **When no counter overflows.** A run of ticks from boot, of any length and on any inputs, is free of
overflows exactly when neither more fresh frames come in a row nor more frames are decoded between two
resets of the parser than an `int` can count. -/
theorem noOverflow_iff {c₀ c : FlightContext K} {es : List (Tick K)} (hboot : Booted c₀)
    (hrun : Run tickStep c₀ es c) : NoOverflow c₀ es c ↔ FreshRowsFit es ∧ FramesFit es := by
  obtain ⟨hint, hgood, hframes⟩ := hboot.intCounters
  rw [NoOverflow, runInt_iff hint hrun, goodFrames_le_iff hgood hrun, frames_le_iff hframes hrun]
  refine and_iff_left ?_
  rintro hist e later rfl
  obtain ⟨hr, hs, -⟩ := hrun.split
  exact le_goodFrames_iff hgood (.snoc hr hs) kArmMinGoodFrames

/-! ## A fresh frame on every tick -/

/-- A frame with the sticks centred, the throttle closed and the arm switch off. -/
def idleFrame : List UInt8 := sbusEncode [992, 992, 172, 992, 172] 0

/-- The `k`-th tick of a craft that gets an idle frame on every tick, at 1 kHz. -/
def frameTick (k : Nat) : TickInput ℚ := levelTick (UInt64.ofNat (1000 * (k + 1))) idleFrame false

/-- A disarmed craft in rate mode that has had `k` ticks with an idle frame. -/
structure Idles (k : Nat) (c : FlightContext ℚ) : Prop where
  mode : c.mode = .kRateOnly
  armed : c.fs.armed = false
  n : c.rc.n = 0
  goodFrames : c.fs.goodFrames = k
  lastGoodUs : c.fs.lastGoodUs = UInt64.ofNat (1000 * k)

/-- The clock of these ticks goes up from each to the next, as long as it does not wrap around. -/
theorem frameTick_clock {k : Nat} (hk : 1000 * (k + 1) < 2 ^ 64) :
    UInt64.ofNat (1000 * k) < UInt64.ofNat (1000 * (k + 1)) := by
  rw [UInt64.lt_iff_toNat_lt, UInt64.toNat_ofNat', UInt64.toNat_ofNat', Nat.mod_eq_of_lt (by omega),
    Nat.mod_eq_of_lt hk]
  omega

/-- The idle frame is one that the parser takes, since its channels are not all equal. -/
theorem idleFrame_acceptable : idleFrame.length = kSbusLen ∧ SbusParser.acceptable idleFrame = true := by
  decide

/-- The idle frame is neither empty nor too long for the buffer of the parser. -/
theorem idleFrame_fits : ¬ (idleFrame.length = 0 ∨ kBuf < idleFrame.length) := by
  rw [idleFrame_acceptable.1]
  decide

/-- What a craft senses on a tick with an idle frame: a good frame with the arm switch off. -/
theorem sense_frameTick {p : SbusParser} (hp : p.n = 0) (k : Nat) :
    ∃ s, sense p (frameTick k).hal = some s ∧ s.rc.frameOk = true ∧ s.rc.armedSwitch = false ∧
      s.rc.tUs = UInt64.ofNat (1000 * (k + 1)) ∧ s.parser.n = 0 := by
  have hraw : (frameTick k).hal.raw = idleFrame := rfl
  obtain ⟨r, hr, -, hdec, hout, hn⟩ := SbusParser.feed_frame hp (.zero : RcSample ℚ)
    idleFrame_acceptable.1 idleFrame_acceptable.2
  refine ⟨_, by rw [sense, hraw, if_neg (not_or.mp idleFrame_fits).1, hr]; rfl, hdec, ?_, ?_, hn⟩
  · show r.out.armedSwitch = false
    rw [(SbusParser.decodeFrame_fields hout).1]
    decide
  · show (frameTick k).hal.rcUs = UInt64.ofNat (1000 * (k + 1))
    rw [frameTick, levelTick]

/-- A tick whose bytes are an idle frame, to a parser with nothing pending, brings exactly one frame. -/
theorem framesIn_frameTick {x : Tick ℚ} (hx : x.pre.rc.n = 0) (hraw : x.inp.hal.raw = idleFrame) :
    framesIn x = 1 := by
  rw [framesIn, hraw, if_neg idleFrame_fits,
    SbusParser.scan_frame hx idleFrame_acceptable.1 idleFrame_acceptable.2]
  rfl

/-- From a context that has idled through `k` of these ticks, the next one returns and leaves one that has
idled through `k + 1`. -/
theorem frame_step {k : Nat} (hk : 1000 * (k + 1) < 2 ^ 64) {c : FlightContext ℚ} (h : Idles k c) :
    ∃ c' out, tickStep c (frameTick k) c' out ∧ Idles (k + 1) c' := by
  obtain ⟨s, hs, hok, hoff, htUs, hn⟩ := sense_frameTick h.n k
  have hdisarmed : (c.fs.update (fsArgs c (frameTick k) s)).armed = false := by
    rw [update_armed]
    simp [armedNext, edge, rcArms, fsArgs, frameTick, levelTick, hoff]
  obtain ⟨c', out, htick, hmode, hrc, hfs⟩ := tick_of_disarmed h.mode hs hdisarmed 0
  have hfresh : c.fs.fresh s.rc = true := by
    refine fresh_iff.mpr ⟨hok, .inr ?_⟩
    rw [h.lastGoodUs, htUs]
    exact frameTick_clock hk
  refine ⟨c', out, ⟨0, htick⟩, hmode, hfs ▸ hdisarmed, hrc ▸ hn, ?_, ?_⟩
  · rw [hfs, update_goodFrames, goodFramesNext, fsArgs, if_pos hfresh, h.goodFrames]
  · rw [hfs, update_lastGoodUs, fsArgs, if_pos hfresh, htUs]

/-- From a boot in rate mode any number of these ticks can run, each bringing one frame, as long as the clock
does not wrap around. -/
theorem frame_run {n : Nat} (hn : 1000 * n < 2 ^ 64) : ∃ es c, Run tickStep (.boot 1 .kRateOnly) es c ∧
    es.map Event.inp = (List.range n).map frameTick ∧ Idles n c ∧ ∀ x ∈ es, framesIn x = 1 := by
  induction n with
  | zero => exact ⟨[], _, .nil _, rfl, ⟨rfl, by decide, rfl, by decide, by decide⟩, by simp⟩
  | succ n ih =>
      obtain ⟨es, c, hrun, hinp, hidles, hone⟩ := ih (by omega)
      obtain ⟨c', out, hs, hidles'⟩ := frame_step hn hidles
      refine ⟨es ++ [⟨c, frameTick n, c', out⟩], c', .snoc hrun hs, ?_, hidles', fun x hx => ?_⟩
      · rw [List.map_append, hinp, List.range_succ, List.map_append]
        rfl
      · rcases List.mem_append.mp hx with hx | hx
        · exact hone x hx
        · rw [List.mem_singleton.mp hx]
          exact framesIn_frameTick hidles.n rfl

/-- A context that `boot` returns has just started, whatever the reset reason and the mode. -/
theorem booted_boot (resetReason : UInt32) (mode : ControlMode) :
    Booted (.boot resetReason mode : FlightContext ℚ) := ⟨rfl, rfl, resetReason, rfl⟩

/-- Ten ticks with a fresh frame each, from a boot in rate mode, overflow no counter. -/
theorem noOverflow_iff_ten : ∃ es c, Run tickStep (.boot 1 .kRateOnly) es c ∧
    es.map Event.inp = (List.range 10).map frameTick ∧ NoOverflow (.boot 1 .kRateOnly) es c := by
  obtain ⟨es, c, hrun, hinp, -, hone⟩ := frame_run (n := 10) (by decide)
  have hlen : es.length = 10 := by
    rw [← List.length_map (f := Event.inp), hinp, List.length_map, List.length_range]
  have hten : 10 ≤ intMax := by decide
  refine ⟨es, c, hrun, hinp, (noOverflow_iff (booted_boot 1 .kRateOnly) hrun).mpr
    ⟨fun old row later hes _ => ?_, fun old stretch later hes _ => ?_⟩⟩
  · rw [hes, List.length_append, List.length_append] at hlen
    omega
  · have hsum : (stretch.map framesIn).sum = stretch.length := by
      have hmap : stretch.map framesIn = stretch.map fun _ => 1 :=
        List.map_congr_left fun x hx => hone x (by simp [hes, hx])
      simp [hmap]
    rw [hes, List.length_append, List.length_append] at hlen
    omega

/-- One tick more than an `int` can count, which take 25 days: the counter of the good frames overflows. -/
theorem goodFrames_overflow : ∃ es c, Run tickStep (.boot 1 .kRateOnly) es c ∧
    es.map Event.inp = (List.range (intMax + 1)).map frameTick ∧
    ¬ NoOverflow (.boot 1 .kRateOnly) es c := by
  obtain ⟨es, c, hrun, hinp, hidles, -⟩ := frame_run (n := intMax + 1) (by decide)
  refine ⟨es, c, hrun, hinp, fun h => ?_⟩
  have hint := (intCounters_of_runInt (booted_boot 1 .kRateOnly).intCounters.1 h.1).1
  have hle := hint.goodFrames
  rw [hidles.goodFrames] at hle
  exact absurd hle (Nat.not_succ_le_self intMax)

end ControlLoop

end DroneMini
