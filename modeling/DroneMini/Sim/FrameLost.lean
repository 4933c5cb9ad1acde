import DroneMini.Loop.FrameLost
import DroneMini.Sbus.Codec
import DroneMini.Sim.FaultLog

/-!
# Sessions and the frame-lost flag

A session whose frames carry the frame-lost flag and one whose frames do not leave the same behind: the same
return value, the same log, the same craft (`frame_lost_silent`). The flag warns nobody outside the arm state
machine.
-/

namespace DroneMini

namespace SbusParser

/-- The channels of a frame do not depend on its flags. -/
theorem channels_flags (ch : List Nat) (flags flags' : Nat) :
    channels (sbusEncode ch flags) = channels (sbusEncode ch flags') := by
  refine List.map_congr_left fun i hi => ?_
  rw [channel_sbusEncode ch flags (List.mem_range.mp hi), channel_sbusEncode ch flags' (List.mem_range.mp hi)]

/-- The verdict of the parser on an encoded frame does not depend on the flags, of which the encoder keeps the
lower nibble alone. -/
theorem acceptable_flags (ch : List Nat) (flags flags' : Nat) :
    acceptable (sbusEncode ch flags) = acceptable (sbusEncode ch flags') := by
  have hhead (flags : Nat) : (sbusEncode ch flags).getD 0 0 = kSbusHeader := rfl
  have hflags (flags : Nat) : (sbusEncode ch flags).getD 23 0 &&& 0xF0 = 0 := by
    have hbyte : (sbusEncode ch flags).getD 23 0 = UInt8.ofNat (flags &&& 0x0F) := rfl
    have hnibble : ∀ n < 16, UInt8.ofNat n &&& 0xF0 = 0 := by decide
    rw [hbyte, hnibble _ (Nat.lt_of_le_of_lt Nat.and_le_right (by decide))]
  have hstuck : stuck (sbusEncode ch flags) = stuck (sbusEncode ch flags') := by
    rw [Bool.eq_iff_iff, stuck_iff, stuck_iff, channels_flags ch flags flags']
  rw [acceptable, acceptable, hhead, hhead, hflags, hflags, hstuck]

end SbusParser

/-- Two frames with the same channels and the same failsafe flag. -/
def AlikeFrames (f f' : List Nat × Nat) : Prop := f.1 = f'.1 ∧ f.2 &&& 0x08 = f'.2 &&& 0x08

/-- The same session with the frames of another scenario. -/
def Setup.withFrame {σ F K : Type} (s : Setup σ F K) (frame : Nat → Option (List Nat × Nat)) : Setup σ F K :=
  { s with run := { s.run with frame := frame } }

namespace ClosedLoop

open PlantRunner SbusParser
open ControlLoop (AlikeContexts AlikeReads AlikeResults)

variable {σ F K : Type} [Field K] [LinearOrder K] [FloatEnv K]

/-- Two closed loops that differ in the lost count alone. -/
structure AlikeLoops (y y' : ClosedLoop σ F K) : Prop where
  craft : y.craft = y'.craft
  duty : y.duty = y'.duty
  rows : y.rows = y'.rows
  ctx : AlikeContexts y.ctx y'.ctx

/-- Two closed loops stop for the same reason: both hang, or both diverge in states that are alike. -/
inductive AlikeStops : Stop σ F K → Stop σ F K → Prop
  | hangs : AlikeStops .hangs .hangs
  | diverges {y y' : ClosedLoop σ F K} (h : AlikeLoops y y') : AlikeStops (.diverges y) (.diverges y')

omit [LinearOrder K] [FloatEnv K] in
/-- A tick shows the same of contexts that are alike. -/
theorem shown_alike {ctx ctx' : FlightContext K} (h : AlikeContexts ctx ctx') (calls : List (HalCall K)) :
    shown ctx' calls = shown ctx calls := by
  have hread (f : FailsafeFsm → Bool) : f ctx'.fs.unlost = f ctx.fs.unlost := by rw [h.fs]
  have harmed : ctx'.fs.armed = ctx.fs.armed := hread FailsafeFsm.armed
  have hactive : ctx'.fs.active = ctx.fs.active := hread FailsafeFsm.active
  unfold shown
  rw [harmed, hactive, h.rest]

section Frames
variable {s : Setup σ F K} {frame : Nat → Option (List Nat × Nat)}
  (hframes : ∀ k, Option.Rel AlikeFrames (s.run.frame k) (frame k))
include hframes

omit [Field K] [LinearOrder K] [FloatEnv K] in
/-- The channels that are logged in a tick are the same for both scenarios. -/
theorem commands_alike (k : Nat) : (s.withFrame frame).run.commands k = s.run.commands k := by
  have hframe := hframes k
  have hother : (s.withFrame frame).run.frame k = frame k := rfl
  unfold RunArgs.commands RunArgs.raw
  rw [hother]
  generalize s.run.frame k = f at hframe
  generalize frame k = f' at hframe
  cases hframe with
  | none => rfl
  | @some f f' h =>
    have hdecoded (flags : Nat) :
        PlantRunner.channels (sbusEncode f.1 flags) = .ok (SbusParser.channels (sbusEncode f.1 flags)) := by
      have hne : (sbusEncode f.1 flags).isEmpty = false := rfl
      rw [PlantRunner.channels, hne, sbusDecode_eq (length_sbusEncode _ _) rfl]
      rfl
    dsimp only
    rw [← h.1, hdecoded, hdecoded, channels_flags f.1 f'.2 f.2]

omit [LinearOrder K] [FloatEnv K] in
/-- What the control tick reads of the same measurement is alike in both scenarios. -/
theorem reads_alike (hintact : Intact s) (k : Nat) (m : Measured σ F) :
    AlikeReads (reads s k m) (reads (s.withFrame frame) k m) := by
  refine ⟨rfl, ?_⟩
  have hframe := hframes k
  have hraw : (reads s k m).raw = s.run.raw k := rfl
  have hraw' : (reads (s.withFrame frame) k m).raw = (s.withFrame frame).run.raw k := rfl
  have hother : (s.withFrame frame).run.frame k = frame k := rfl
  rw [hraw, hraw']
  unfold RunArgs.raw
  rw [hother]
  cases hf : s.run.frame k with
  | none =>
    rw [hf] at hframe
    generalize frame k = f' at hframe
    cases hframe
    exact .inl ⟨rfl, rfl⟩
  | some f =>
    have hacc := hintact k f hf
    rw [hf] at hframe
    generalize frame k = f' at hframe
    cases hframe with
    | @some _ f' h =>
      dsimp only
      rw [← h.1]
      exact .inr ⟨f.1, f.2, f'.2, rfl, rfl, h.2, hacc, acceptable_flags f.1 f.2 f'.2 ▸ hacc⟩

/-- **The closed loops stay alike over a tick**: they go on alike or stop for the same reason. -/
theorem AlikeLoops.tick (hintact : Intact s) {y y' : ClosedLoop σ F K} (h : AlikeLoops y y') (k : Nat) :
    Sum.LiftRel AlikeStops AlikeLoops (ClosedLoop.tick s y k) (ClosedLoop.tick (s.withFrame frame) y' k) := by
  have hmeasure : measure (s.withFrame frame) y' = measure s y := by
    unfold measure
    rw [h.craft, h.duty]
    rfl
  have htick : Option.Rel AlikeResults
      (ControlLoop.tick s.fuel y.ctx ⟨reads s k (measure s y), s.fw.armTest⟩)
      (ControlLoop.tick s.fuel y'.ctx ⟨reads (s.withFrame frame) k (measure s y), s.fw.armTest⟩) :=
    h.ctx.tick (reads_alike hframes hintact k (measure s y))
  have hfw : (s.withFrame frame).fw = s.fw := rfl
  have hfuel : (s.withFrame frame).fuel = s.fuel := rfl
  unfold ClosedLoop.tick
  rw [hmeasure, hfw, hfuel]
  generalize ControlLoop.tick s.fuel y.ctx _ = r at htick ⊢
  generalize ControlLoop.tick s.fuel y'.ctx _ = r' at htick ⊢
  cases htick with
  | none => exact .inl .hangs
  | @some r r' hr =>
    obtain ⟨ctx, t⟩ := r
    obtain ⟨ctx', t'⟩ := r'
    obtain ⟨hctx, hcalls⟩ := hr
    dsimp only at hctx hcalls
    have hcraft : (s.withFrame frame).craft = s.craft := rfl
    have hbits : (s.withFrame frame).bits = s.bits := rfl
    dsimp only
    rw [hcalls, shown_alike hctx, hbits]
    generalize Wire.outDict ((shown ctx t.calls).map s.bits) = out
    have hmoved (c : σ) : AlikeLoops
        ⟨c, out.mot, y.rows ++ [rowOf k (s.run.commands k) (measure s y) out], ctx⟩
        ⟨c, out.mot, y'.rows ++ [rowOf k ((s.withFrame frame).run.commands k) (measure s y) out], ctx'⟩ :=
      ⟨rfl, rfl, by rw [commands_alike hframes, h.rows], hctx⟩
    unfold move
    dsimp only
    rw [hmeasure, hcraft]
    cases s.craft.step (measure s y).craft out.mot (measure s y).vbat with
    | none => exact .inl (.diverges (hmoved _))
    | some c =>
      dsimp only
      split_ifs
      · exact .inr (hmoved c)
      · exact .inl (.diverges (hmoved c))

/-- The closed loops come to the same over all ticks of a run. -/
theorem run_alike (hintact : Intact s) :
    Sum.LiftRel AlikeStops AlikeLoops (run s) (run (s.withFrame frame)) :=
  runUntil_rel (fun _ _ k _ h => AlikeLoops.tick hframes hintact h k) ⟨rfl, rfl, rfl, rfl, rfl, rfl, rfl⟩

end Frames

end ClosedLoop

namespace Session

open ClosedLoop

variable {σ F K : Type} [Field K] [LinearOrder K] [FloatEnv K]

/-- **The frame-lost flag is silent.** Two sessions whose frames have the same channels and the same failsafe
flags leave the same return value, log and craft. -/
theorem frame_lost_silent {s : Setup σ F K} {frame : Nat → Option (List Nat × Nat)}
    (hframes : ∀ k, Option.Rel AlikeFrames (s.run.frame k) (frame k)) (hintact : Intact s)
    {x x' : State σ F K} (hreach : Reach (step s) init x) (hreach' : Reach (step (s.withFrame frame)) init x')
    {e e' : PlantRunner.Ended} {st st' : PlantRunner.RunState σ F} (hended : x.left = .ended e (some st))
    (hended' : x'.left = .ended e' (some st')) :
    e = e' ∧ st.aborted = st'.aborted ∧ st.rows = st'.rows ∧ st.craft = st'.craft := by
  have houtcome := outcome_of_ended hreach hended
  have houtcome' := outcome_of_ended hreach' hended'
  have hrun := run_alike hframes hintact
  unfold Outcome at houtcome houtcome'
  generalize ClosedLoop.run s = r at hrun houtcome
  generalize ClosedLoop.run (s.withFrame frame) = r' at hrun houtcome'
  cases hrun with
  | inl hstop =>
    cases hstop with
    | hangs => exact houtcome.elim
    | diverges h =>
      obtain ⟨rfl, haborted, hrows, hcraft⟩ := houtcome
      obtain ⟨rfl, haborted', hrows', hcraft'⟩ := houtcome'
      exact ⟨rfl, haborted.trans haborted'.symm, by rw [hrows, hrows', h.rows],
        by rw [hcraft, hcraft', h.craft]⟩
  | inr h =>
    obtain ⟨rfl, haborted, hrows, hcraft⟩ := houtcome
    obtain ⟨rfl, haborted', hrows', hcraft'⟩ := houtcome'
    exact ⟨rfl, haborted.trans haborted'.symm, by rw [hrows, hrows', h.rows],
      by rw [hcraft, hcraft', h.craft]⟩

/-- The frames of the session on the bench, each with the frame-lost flag as well. -/
def lostFrames (k : Nat) : Option (List Nat × Nat) := some (baseChannels 0 0 0 0 true, if k = 1 then 12 else 4)

/-- A session on the bench with and without the frame-lost flag. -/
theorem frame_lost_silent_bench :
    ∃ x x' e e' st st', Reach (step flagged) init x ∧ Reach (step (flagged.withFrame lostFrames)) init x' ∧
      x.left = .ended e (some st) ∧ x'.left = .ended e' (some st') ∧ st.rows.length = 2 ∧
      st.rows = st'.rows := by
  obtain ⟨x, e, st, hreach, hended, hrows⟩ := session_flagged
  have hreturns : (ClosedLoop.run (flagged.withFrame lostFrames)).isRight = true := by decide +kernel
  obtain ⟨y, hy⟩ := Sum.isRight_iff.mp hreturns
  obtain ⟨x', e', st', hreach', hended', -⟩ := exists_ended hy
  have hframes (k : Nat) : Option.Rel AlikeFrames (flagged.run.frame k) (lostFrames k) := by
    refine .some ⟨rfl, ?_⟩
    dsimp only
    split_ifs <;> rfl
  have hsilent := frame_lost_silent hframes intact_flagged hreach hreach' hended hended'
  refine ⟨x, x', e, e', st, st', hreach, hreach', hended, hended', ?_, hsilent.2.2.1⟩
  simpa using congrArg List.length hrows

end Session

end DroneMini
