import DroneMini.Loop.Latch
import DroneMini.Plant.Rc

/-!
# The failsafe flag of the receiver over one tick

One call to `feed` can accept several frames, and each overwrites the sample of the one before it; the arm
state machine sees the last one only. So the receiver's failsafe flag reaches `reason_` exactly when the
last accepted frame of a tick carries it (`rx_flag_kept_iff`); a frame behind it in the same call hides it
(`rx_flag_swallowed`).
-/

namespace DroneMini

namespace FailsafeFsm

/-- The bit of `reason_` that stands for the receiver's failsafe flag is set. -/
def RcFlagShown (fs : FailsafeFsm) : Prop := fs.reason &&& kReasonRcFlag ≠ 0

instance (fs : FailsafeFsm) : Decidable fs.RcFlagShown := inferInstanceAs (Decidable (_ ≠ _))

/-- Without an arm request the receiver bit is set exactly when it was or when the sample has the flag. -/
theorem rcFlagShown_update {K : Type} [Field K] [LinearOrder K] [FloatEnv K] {fs : FailsafeFsm}
    {u : UpdateArgs K} (hedge : fs.edge u = false) :
    (fs.update u).RcFlagShown ↔ fs.RcFlagShown ∨ u.rc.rxFailsafe = true := by
  refine (update_reason_and hedge kReasonRcFlag).trans (or_congr Iff.rfl ?_)
  rw [faultsNow, faultBits_rcFlag]
  cases u.rc.rxFailsafe <;> decide

end FailsafeFsm

/-- The receiver set its failsafe flag in a frame, which is bit 3 of the flags byte. -/
def SbusParser.Flagged (f : List UInt8) : Prop := f.getD 23 0 &&& 0x08 ≠ 0

instance (f : List UInt8) : Decidable (SbusParser.Flagged f) := inferInstanceAs (Decidable (_ ≠ _))

/-- An encoded frame has the failsafe flag exactly if the flags it was encoded with have it. -/
theorem SbusParser.flagged_sbusEncode (channels : List Nat) (flags : Nat) :
    Flagged (sbusEncode channels flags) ↔ flags &&& 0x08 ≠ 0 := by
  have hbyte : (sbusEncode channels flags).getD 23 0 = UInt8.ofNat (flags &&& 0x0F) := rfl
  have hsmall : flags &&& 0x0F < 2 ^ 8 := Nat.lt_of_le_of_lt Nat.and_le_right (by decide)
  rw [Flagged, hbyte, Ne, ← UInt8.toNat_inj, UInt8.toNat_and, UInt8.toNat_ofNat_of_lt' hsmall, Nat.and_assoc]
  rfl

namespace ControlLoop

open FailsafeFsm SbusParser

variable {K : Type} [Field K] [LinearOrder K] [FloatEnv K]

/-- A tick with 1 to 64 bytes accepts the frames of their scan. -/
theorem accepted_eq_scan {rc : SbusParser} {h : HalReads K} {s : Sensed K} (hs : sense rc h = some s)
    (h0 : h.raw.length ≠ 0) (h1 : h.raw.length ≤ kBuf) :
    s.accepted = (framing.scan 0 (rc.work h.raw)).1 := by
  obtain ⟨r, hr, spec⟩ := feed_spec rc (RcSample.zero : RcSample K) h0 h1
  rw [sense, if_neg h0, hr] at hs
  cases hs
  exact spec.accepted

/-- The sample of a tick has the flag exactly when the last accepted frame has it. -/
theorem SenseSpec.rxFailsafe {p : SbusParser} {h : HalReads K} {s : Sensed K} (spec : SenseSpec p h s) :
    s.rc.rxFailsafe = true ↔ ∃ w ∈ s.accepted.getLast?, Flagged w.2 := by
  cases hlast : s.accepted.getLast? with
  | none =>
      rw [spec.rc_nil (List.getLast?_eq_none_iff.mp hlast)]
      simp [RcSample.zero]
  | some w =>
      obtain ⟨o, hdec, hrc⟩ := spec.rc_last w hlast
      rw [hrc]
      simp [(decodeFrame_fields hdec).2.2, Flagged]

/-- **When the failsafe flag of the receiver is kept.** On a tick without `arm_test` that reads 1 to 64
bytes, in any reachable state of the arm state machine and any state of the parser: a flagged frame among
the accepted ones leaves the failsafe active with the receiver bit if and only if no frame of the scanned
bytes is flagged, or the last one is, or the bit was set before. -/
theorem rx_flag_kept_iff {c c' : FlightContext K} {inp : TickInput K} {out : TickOutput K}
    (hreach : Reach (opStep (K := K)) reset c.fs) (hno : inp.armTest = false)
    (h0 : 1 ≤ inp.hal.raw.length) (h1 : inp.hal.raw.length ≤ 64) (hs : tickStep c inp c' out) :
    ((∃ w ∈ out.sensed.accepted, Flagged w.2) → c'.fs.active = true ∧ c'.fs.RcFlagShown) ↔
      (∀ w ∈ (framing.scan 0 (c.rc.work inp.hal.raw)).1, ¬ Flagged w.2) ∨
        (∃ w ∈ (framing.scan 0 (c.rc.work inp.hal.raw)).1.getLast?, Flagged w.2) ∨
        c.fs.RcFlagShown := by
  obtain ⟨fuel, htick⟩ := hs
  have spec := tick_spec htick
  have hshown : c'.fs.RcFlagShown ↔
      c.fs.RcFlagShown ∨ ∃ w ∈ out.sensed.accepted.getLast?, Flagged w.2 := by
    rw [spec.fs, rcFlagShown_update (edge_of_not hno)]
    exact or_congr Iff.rfl spec.sensed.rxFailsafe
  have hactive : c'.fs.RcFlagShown → c'.fs.active = true := by
    rw [spec.fs]
    exact (reasonActive_of_reach (by decide) hreach).update _
  rw [← accepted_eq_scan spec.sense (Nat.one_le_iff_ne_zero.mp h0) h1, or_comm (b := c.fs.RcFlagShown),
    ← hshown]
  constructor
  · intro h
    refine or_iff_not_imp_left.mpr fun hsome => (h ?_).2
    by_contra hno
    exact hsome fun w hw hflag => hno ⟨w, hw, hflag⟩
  · rintro (hnone | hpost) ⟨w, hw, hflag⟩
    · exact absurd hflag (hnone w hw)
    · exact ⟨hactive hpost, hpost⟩

/-- A frame of centred sticks with the failsafe flag of the receiver, or without it. -/
def flagFrame (flag : Bool) : List UInt8 := sbusEncode [992, 992, 172, 992, 172] (if flag then 8 else 0)

/-- The first tick after a boot reads a flagged frame, and one without the flag behind it or not. -/
def flagTick (hidden : Bool) : TickInput ℚ :=
  levelTick 1000 (flagFrame true ++ if hidden then flagFrame false else []) false

set_option maxRecDepth 10000 in
/-- Both frames are accepted, and only the last one counts. -/
theorem flagTick_run (hidden : Bool) :
    ∃ c' out, tickStep (.boot 1 .kAttitude) (flagTick hidden) c' out ∧
      (∃ w ∈ out.sensed.accepted, Flagged w.2) ∧
      (∃ w, out.sensed.accepted.getLast? = some w ∧ decide (Flagged w.2) = !hidden) ∧
      c'.fs.active = !hidden := by
  have hrun : (tick 4 (.boot 1 .kAttitude) (flagTick hidden)).any (fun r =>
      decide (∃ w ∈ r.2.sensed.accepted, Flagged w.2) &&
        r.2.sensed.accepted.getLast?.any (fun w => decide (Flagged w.2) == !hidden) &&
        r.1.fs.active == !hidden) = true := by
    revert hidden
    decide +kernel
  obtain ⟨⟨c', out⟩, htick, hfacts⟩ := (Option.any_eq_true _ _).mp hrun
  simp only [Bool.and_eq_true, decide_eq_true_iff, beq_iff_eq] at hfacts
  obtain ⟨⟨hflag, hlast⟩, hactive⟩ := hfacts
  obtain ⟨w, hw, hlast⟩ := (Option.any_eq_true _ _).mp hlast
  exact ⟨c', out, ⟨4, htick⟩, hflag, ⟨w, hw, beq_iff_eq.mp hlast⟩, hactive⟩

/-- A tick whose bytes are a flagged frame and nothing behind it activates the failsafe and shows the flag in
`reason_`. -/
theorem rx_flag_kept_iff_alone :
    ∃ c' out, tickStep (.boot 1 .kAttitude) (flagTick false) c' out ∧
      c'.fs.active = true ∧ c'.fs.RcFlagShown := by
  obtain ⟨c', out, hs, hflag, ⟨w, hw, hlast⟩, -⟩ := flagTick_run false
  have hstep := hs
  obtain ⟨fuel, htick⟩ := hstep
  have hscan := accepted_eq_scan (tick_spec htick).sense (by decide) (by decide)
  refine ⟨c', out, hs, (rx_flag_kept_iff ⟨[], .nil _⟩ rfl (by decide) (by decide) hs).mpr ?_ hflag⟩
  rw [← hscan]
  exact .inr (.inl ⟨w, hw, of_decide_eq_true hlast⟩)

/-- A flagged frame with another frame behind it does not. -/
theorem rx_flag_swallowed :
    ¬ ∀ (c c' : FlightContext ℚ) (inp : TickInput ℚ) (out : TickOutput ℚ),
      Reach (opStep (K := ℚ)) reset c.fs → inp.armTest = false → 1 ≤ inp.hal.raw.length →
      inp.hal.raw.length ≤ 64 → tickStep c inp c' out → (∃ w ∈ out.sensed.accepted, Flagged w.2) →
      c'.fs.active = true ∧ c'.fs.RcFlagShown := by
  intro h
  obtain ⟨c', out, hs, hflag, -, hactive⟩ := flagTick_run true
  have hkept := (h _ c' _ out ⟨[], .nil _⟩ rfl (by decide) (by decide) hs hflag).1
  rw [hactive] at hkept
  cases hkept

end ControlLoop

end DroneMini
