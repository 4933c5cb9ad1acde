import DroneMini.Loop.Step

/-!
# The clock and the RC link over a run of ticks

A tick reads the clock three times. When the clock never goes back (`ClockMonotone`), the arm state
machine knows the time of the last tick that decoded a frame (`linkKnown_of_run`), whether or not that
frame was fresh: a frame that is not fresh carries the very time already known. So a tick observes an RC
timeout exactly when that time is too far back (`timeoutNow_iff`).
-/

namespace DroneMini

namespace ControlLoop

variable {K : Type}

/-- The times a run of ticks read from the clock, in order. -/
def clock (es : List (Tick K)) : List UInt64 :=
  es.flatMap fun e => [e.inp.hal.rcUs, e.inp.hal.fsUs, e.inp.hal.ledUs]

/-- The clock never goes back over a run of ticks, each of which reads it three times. -/
def ClockMonotone (es : List (Tick K)) : Prop := (clock es).Pairwise (· ≤ ·)

/-- A tick decoded a frame: its call to `feed` accepted at least one window of the bytes. -/
def decodes (e : Tick K) : Bool := !e.out.sensed.accepted.isEmpty

/-- The time of the last tick that decoded a frame. -/
def lastDecodeUs (es : List (Tick K)) : Option UInt64 :=
  (es.filter decodes).getLast?.map fun e => e.inp.hal.rcUs

/-- The clock of a run is the clock of its parts. -/
theorem clock_append (es fs : List (Tick K)) : clock (es ++ fs) = clock es ++ clock fs :=
  List.flatMap_append

/-- A clock that never goes back did not go back before. -/
theorem ClockMonotone.of_append {es fs : List (Tick K)} (h : ClockMonotone (es ++ fs)) :
    ClockMonotone es := by
  rw [ClockMonotone, clock_append, List.pairwise_append] at h
  exact h.1

/-- The readings of the clock are inputs of the ticks, so runs with the same inputs have the same clock. -/
theorem clock_eq_inputs (es : List (Tick K)) :
    clock es = (es.map Event.inp).flatMap fun i => [i.hal.rcUs, i.hal.fsUs, i.hal.ledUs] := by
  rw [List.flatMap_map]
  rfl

/-- A tick that decodes a frame is the last to do so. -/
theorem lastDecodeUs_snoc_of_decodes {es : List (Tick K)} {e : Tick K} (h : decodes e = true) :
    lastDecodeUs (es ++ [e]) = some e.inp.hal.rcUs := by
  rw [lastDecodeUs, List.filter_append, List.filter_singleton, h]
  simp

/-- A tick that decodes no frame leaves the last one the last. -/
theorem lastDecodeUs_snoc_of_not {es : List (Tick K)} {e : Tick K} (h : decodes e = false) :
    lastDecodeUs (es ++ [e]) = lastDecodeUs es := by
  rw [lastDecodeUs, List.filter_append, List.filter_singleton, h]
  simp [lastDecodeUs]

/-- The last frame was decoded at a time of the clock. -/
theorem lastDecodeUs_mem {es : List (Tick K)} {t : UInt64} (h : t ∈ lastDecodeUs es) :
    t ∈ clock es := by
  obtain ⟨e, he, rfl⟩ := Option.map_eq_some_iff.mp h
  have hmem := (List.mem_filter.mp (List.mem_of_getLast? he)).1
  exact List.mem_flatMap.mpr ⟨e, hmem, List.mem_cons_self⟩

/-- The last frame was decoded no later than the clock says next. -/
theorem lastDecodeUs_le {es : List (Tick K)} {e : Tick K} (hclock : ClockMonotone (es ++ [e]))
    {t : UInt64} (h : t ∈ lastDecodeUs es) : t ≤ e.inp.hal.rcUs ∧ t ≤ e.inp.hal.fsUs := by
  rw [ClockMonotone, clock_append, List.pairwise_append] at hclock
  exact ⟨hclock.2.2 t (lastDecodeUs_mem h) _ (by simp [clock]),
    hclock.2.2 t (lastDecodeUs_mem h) _ (by simp [clock])⟩

variable [Field K] [LinearOrder K] [FloatEnv K]

/-- The RC sample of a tick is good exactly when the tick decoded a frame. -/
theorem frameOk_eq_decodes {e : Tick K} {fuel : Nat}
    (h : TickSpec fuel e.pre e.inp e.post e.out) : e.out.sensed.rc.frameOk = decodes e :=
  h.sensed.frameOk

/-- A tick decodes a frame exactly when its bytes complete one. -/
theorem decodes_iff_completes {x : Tick K} (hs : tickStep x.pre x.inp x.post x.out) :
    decodes x = true ↔ x.pre.rc.CompletesFrame x.inp.hal.raw := by
  obtain ⟨fuel, htick⟩ := hs
  rw [← (tick_spec htick).sensed.completes, decodes]
  simp

/-- What the arm state machine knows of the link after a run of ticks. -/
structure LinkKnown (es : List (Tick K)) (fs : FailsafeFsm) : Prop where
  haveFrame : fs.haveFrame = (lastDecodeUs es).isSome
  lastGoodUs : ∀ t ∈ lastDecodeUs es, fs.lastGoodUs = t

/-- A tick keeps what is known of the link up to date. -/
theorem LinkKnown.step {es : List (Tick K)} {e : Tick K} (h : LinkKnown es e.pre.fs)
    (hs : tickStep e.pre e.inp e.post e.out) (hclock : ClockMonotone (es ++ [e])) :
    LinkKnown (es ++ [e]) e.post.fs := by
  obtain ⟨fuel, htick⟩ := hs
  have spec := tick_spec htick
  have hok : (fsArgs e.pre e.inp e.out.sensed).rc.frameOk = decodes e := frameOk_eq_decodes spec
  have htUs : (fsArgs e.pre e.inp e.out.sensed).rc.tUs = e.inp.hal.rcUs := spec.sensed.tUs
  have hhave : e.post.fs.haveFrame = ((lastDecodeUs es).isSome || decodes e) := by
    rw [spec.fs, FailsafeFsm.update_haveFrame, h.haveFrame, hok]
  cases hd : decodes e with
  | false =>
      rw [hd] at hok hhave
      constructor
      · rw [lastDecodeUs_snoc_of_not hd, hhave, Bool.or_false]
      · rw [lastDecodeUs_snoc_of_not hd, spec.fs, FailsafeFsm.update_lastGoodUs_of_not _ _ hok]
        exact h.lastGoodUs
  | true =>
      rw [hd] at hok hhave
      constructor
      · rw [lastDecodeUs_snoc_of_decodes hd, hhave, Bool.or_true]
        rfl
      · intro t ht
        rw [lastDecodeUs_snoc_of_decodes hd, Option.mem_some_iff] at ht
        subst ht
        have hle : e.pre.fs.haveFrame = true →
            e.pre.fs.lastGoodUs ≤ (fsArgs e.pre e.inp e.out.sensed).rc.tUs := by
          intro hsome
          rw [h.haveFrame] at hsome
          obtain ⟨t, ht⟩ := Option.isSome_iff_exists.mp hsome
          rw [h.lastGoodUs t ht, htUs]
          exact (lastDecodeUs_le hclock ht).1
        rw [spec.fs, FailsafeFsm.update_lastGoodUs_of_le _ _ hok hle, htUs]

/-- What the arm state machine knows of the link, in every run from a state that knows no frame. -/
theorem linkKnown_of_run {c c' : FlightContext K} {es : List (Tick K)} (hrun : Run tickStep c es c')
    (h0 : c.fs.haveFrame = false) (hclock : ClockMonotone es) : LinkKnown es c'.fs := by
  have halong : Along (fun hist e => ClockMonotone (hist ++ [e])) es := by
    rintro hist e later rfl
    rw [List.append_cons] at hclock
    exact hclock.of_append
  refine hrun.induct (P := fun hist b => LinkKnown hist b.fs) halong ?_ ?_
  · exact ⟨h0, by simp [lastDecodeUs]⟩
  · intro hist e hknown hs hmono
    exact hknown.step hs hmono

/-- **A tick observes an RC timeout exactly when the last frame, its own included, is too far back.** -/
theorem timeoutNow_iff {hist : List (Tick K)} {e : Tick K} (hpost : LinkKnown (hist ++ [e]) e.post.fs)
    (hs : tickStep e.pre e.inp e.post e.out) :
    e.pre.fs.timeoutNow (fsArgs e.pre e.inp e.out.sensed) = true ↔
      ∃ t ∈ lastDecodeUs (hist ++ [e]), kRcTimeoutUs ≤ e.inp.hal.fsUs - t := by
  obtain ⟨fuel, htick⟩ := hs
  have spec := tick_spec htick
  have hsame : e.pre.fs.timeoutNow (fsArgs e.pre e.inp e.out.sensed)
      = e.post.fs.rcTimeout e.inp.hal.fsUs := by
    rw [spec.fs, FailsafeFsm.update_spec, FailsafeFsm.timeoutNow, FailsafeFsm.liveness_eq]
    rfl
  rw [hsame, FailsafeFsm.rcTimeout, Bool.and_eq_true, decide_eq_true_iff, hpost.haveFrame]
  constructor
  · rintro ⟨hsome, htime⟩
    obtain ⟨t, ht⟩ := Option.isSome_iff_exists.mp hsome
    exact ⟨t, ht, hpost.lastGoodUs t ht ▸ htime⟩
  · rintro ⟨t, ht, htime⟩
    exact ⟨Option.isSome_iff_exists.mpr ⟨t, ht⟩, (hpost.lastGoodUs t ht).symm ▸ htime⟩

end ControlLoop

end DroneMini
