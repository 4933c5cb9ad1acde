import DroneMini.Sim.Runner
import DroneMini.Loop.Latch
import DroneMini.Plant.Rc
import DroneMini.Lib.FltRat

/-!
# A lost link over a run of the runner

An update records a fresh frame before it compares the time of the last one with the clock. So a tick
sees that the last frame is too far back only when it decodes none itself: a link gap that ends with a
frame goes unseen, however long it was (`link_loss_iff`, `link_loss_hidden`).
-/

namespace DroneMini

namespace FailsafeFsm

/-- The bit of `reason_` that stands for the RC timeout is set. -/
def TimeoutShown (fs : FailsafeFsm) : Prop := fs.reason &&& kReasonRcTimeout ≠ 0

instance (fs : FailsafeFsm) : Decidable fs.TimeoutShown := inferInstanceAs (Decidable (_ ≠ _))

variable {K : Type} [Field K] [LinearOrder K] [FloatEnv K]

/-- Without an arm request the timeout bit is set exactly when it was or when a timeout is observed. -/
theorem timeoutShown_update {fs : FailsafeFsm} {u : UpdateArgs K} (hedge : fs.edge u = false) :
    (fs.update u).TimeoutShown ↔ fs.TimeoutShown ∨ fs.timeoutNow u = true := by
  refine (update_reason_and hedge kReasonRcTimeout).trans (or_congr Iff.rfl ?_)
  rw [faultsNow, faultBits_timeout]
  cases fs.timeoutNow u <;> decide

/-- In a run from a boot a timeout bit means an active failsafe. -/
theorem active_of_timeoutShown {resetReason : UInt32} {fs : FailsafeFsm}
    {es : List (Event FailsafeFsm (UpdateArgs K) Unit)} (hrun : Run updateStep (boot resetReason) es fs)
    (hshown : fs.TimeoutShown) : fs.active = true := by
  refine (hrun.invariant (I := ReasonActive kReasonRcTimeout)
    (reasonActive_boot resetReason (by decide)) ?_).1 hshown
  rintro a u b - ha rfl
  exact ha.update u

end FailsafeFsm

open FailsafeFsm

/-- A tick after a link gap sets the timeout bit unless it decodes a frame. -/
theorem ControlLoop.timeoutShown_of_gap {K : Type} [Field K] [LinearOrder K] [FloatEnv K]
    {hist : List (Tick K)} {e : Tick K} (hknown : LinkKnown (hist ++ [e]) e.post.fs)
    (hs : tickStep e.pre e.inp e.post e.out) (hno : e.inp.armTest = false)
    (hclock : e.inp.hal.rcUs = e.inp.hal.fsUs) {T : UInt64} (hT : T ∈ lastDecodeUs hist)
    (hgap : kRcTimeoutUs ≤ e.inp.hal.fsUs - T) :
    e.post.fs.TimeoutShown ↔ e.pre.fs.TimeoutShown ∨ decodes e = false := by
  have htime := timeoutNow_iff hknown hs
  obtain ⟨fuel, htick⟩ := hs
  rw [(tick_spec htick).fs, timeoutShown_update (edge_of_not hno)]
  refine or_congr Iff.rfl (htime.trans ?_)
  cases hd : decodes e with
  | true =>
      -- the frame just decoded is no time back
      rw [lastDecodeUs_snoc_of_decodes hd, hclock]
      refine iff_of_false ?_ Bool.noConfusion
      rintro ⟨t, ht, hle⟩
      rw [Option.mem_some_iff] at ht
      rw [← ht, UInt64.sub_self] at hle
      exact absurd hle (by decide)
  | false =>
      rw [lastDecodeUs_snoc_of_not hd]
      exact iff_of_true ⟨T, hT, hgap⟩ rfl

namespace Runner

variable {K : Type} [Field K] [LinearOrder K] [FloatEnv K]

/-- **When a lost link is seen.** In a run of the runner without arm requests, the last frame before a
turn was decoded at least `kRcTimeoutUs` before the time of that turn. After the turn the failsafe is
active with the timeout bit if and only if the turn completes no frame itself or the bit was set. -/
theorem link_loss_iff {a : Args K} (hno : a.armTest = false) {r : Runner K}
    {es : List (Event (Runner K) Transport (FwOut K))} {e : Event (Runner K) Transport (FwOut K)}
    (hrun : Run (served a.armTest) (start a) (es ++ [e]) r) {T : UInt64}
    (hT : T ∈ ControlLoop.lastDecodeUs (es.map (tickOf a.armTest)))
    (hgap : kRcTimeoutUs ≤ e.post.hal.nowUs - T) :
    (e.post.ctx.fs.active = true ∧ e.post.ctx.fs.TimeoutShown) ↔
      ¬ e.pre.ctx.rc.CompletesFrame (e.post.hal.rcRawRead 64) ∨ e.pre.ctx.fs.TimeoutShown := by
  have hticks := ticks_of_served hrun
  rw [List.map_append, List.map_singleton] at hticks
  have hmono := (clockKnown_of_served hrun).monotone
  rw [List.map_append, List.map_singleton] at hmono
  obtain ⟨-, hs, hpost⟩ := hticks.snoc_inv
  have hknown := ControlLoop.linkKnown_of_run hticks (boot_haveFrame a.resetReason) hmono
  rw [← hpost] at hknown
  have hshown : e.post.ctx.fs.TimeoutShown ↔ e.pre.ctx.fs.TimeoutShown ∨
      ControlLoop.decodes (tickOf a.armTest e) = false :=
    ControlLoop.timeoutShown_of_gap hknown hs hno rfl hT hgap
  have hcompletes : e.pre.ctx.rc.CompletesFrame (e.post.hal.rcRawRead 64) ↔
      ControlLoop.decodes (tickOf a.armTest e) = true := (ControlLoop.decodes_iff_completes hs).symm
  have hactive : e.post.ctx.fs.TimeoutShown → e.post.ctx.fs.active = true := by
    intro h
    have hpost' : e.post.ctx = r.ctx := hpost
    rw [hpost'] at h ⊢
    exact active_of_timeoutShown (ControlLoop.fsRun hticks) h
  rw [hcompletes, Bool.not_eq_true, or_comm, ← hshown]
  exact ⟨fun h => h.2, fun h => ⟨hactive h, h⟩⟩

/-- The runner in attitude mode, with no arm request and no fixed command. -/
def attitude : Args ℚ := ⟨.kAttitude, false, false, 0, 0, 0, 0, 1⟩

/-- A frame with the sticks centred, the throttle closed and the arm switch off. -/
def idleFrame : List UInt8 := sbusEncode [992, 992, 172, 992, 172] 0

/-- The message 200 ms after the first one, with a frame or without. -/
def lateMsg (frame : Bool) : Transport := levelMsg 2 201000 (if frame then idleFrame else [])

set_option maxRecDepth 20000 in
/-- A link gap of 200 ms that ends with a frame or without. -/
theorem lateMsg_run (frame : Bool) :
    ∃ es e r, Run (served attitude.armTest) (start attitude) (es ++ [e]) r ∧
      (es ++ [e]).map Event.inp = [levelMsg 1 1000 idleFrame, lateMsg frame] ∧
      ControlLoop.lastDecodeUs (es.map (tickOf attitude.armTest)) = some 1000 ∧
      e.post.hal.nowUs = 201000 ∧ ControlLoop.decodes (tickOf attitude.armTest e) = frame ∧
      e.post.ctx.fs.active = !frame := by
  have hrun : (execute (fun r i => (turn 4 false r i).bind replyOf) (start attitude)
      [levelMsg 1 1000 idleFrame]).any (fun q => ((turn 4 false q.2 (lateMsg frame)).bind replyOf).any
        fun p => decide (ControlLoop.lastDecodeUs (q.1.map (tickOf false)) = some 1000 ∧
          p.1.hal.nowUs = 201000 ∧
          ControlLoop.decodes (tickOf false ⟨q.2, lateMsg frame, p.1, p.2⟩) = frame ∧
          p.1.ctx.fs.active = !frame)) = true := by
    revert frame
    decide +kernel
  obtain ⟨⟨es, t⟩, hes, hrun⟩ := (Option.any_eq_true _ _).mp hrun
  obtain ⟨⟨r, o⟩, hlast, hfacts⟩ := (Option.any_eq_true _ _).mp hrun
  refine ⟨es, ⟨t, lateMsg frame, r, o⟩, r, ?_, ?_, of_decide_eq_true hfacts⟩
  · exact .snoc (served_of_execute hes) (served_of_reply hlast)
  · rw [List.map_append, execute_inputs hes]
    rfl

/-- A gap of 200 ms that ends without a frame is seen: the failsafe is active after it. -/
theorem link_loss_iff_seen :
    ∃ es e r, Run (served attitude.armTest) (start attitude) (es ++ [e]) r ∧
      (es ++ [e]).map Event.inp = [levelMsg 1 1000 idleFrame, lateMsg false] ∧
      e.post.ctx.fs.active = true ∧ e.post.ctx.fs.TimeoutShown := by
  obtain ⟨es, e, r, hrun, hinp, hlast, hnow, hd, -⟩ := lateMsg_run false
  have he : e ∈ es ++ [e] := by simp
  have hs := (ticks_of_served hrun).step_of_mem (List.mem_map_of_mem he)
  have hno : ¬ e.pre.ctx.rc.CompletesFrame (e.post.hal.rcRawRead 64) := by
    intro hc
    rw [(ControlLoop.decodes_iff_completes hs).mpr hc] at hd
    cases hd
  have hgap : kRcTimeoutUs ≤ e.post.hal.nowUs - 1000 := by
    rw [hnow]
    decide
  exact ⟨es, e, r, hrun, hinp, (link_loss_iff rfl hrun hlast hgap).mpr (.inl hno)⟩

/-- A gap that ends with a frame is not seen: 200 ms without a frame, and no failsafe. -/
theorem link_loss_hidden :
    ¬ ∀ (a : Args ℚ) (r : Runner ℚ) (es : List (Event (Runner ℚ) Transport (FwOut ℚ)))
      (e : Event (Runner ℚ) Transport (FwOut ℚ)) (T : UInt64), a.armTest = false →
      Run (served a.armTest) (start a) (es ++ [e]) r →
      T ∈ ControlLoop.lastDecodeUs (es.map (tickOf a.armTest)) →
      kRcTimeoutUs ≤ e.post.hal.nowUs - T →
      e.post.ctx.fs.active = true ∧ e.post.ctx.fs.TimeoutShown := by
  intro h
  obtain ⟨es, e, r, hrun, -, hlast, hnow, -, hactive⟩ := lateMsg_run true
  have hgap : kRcTimeoutUs ≤ e.post.hal.nowUs - 1000 := by
    rw [hnow]
    decide
  rw [(h attitude r es e 1000 rfl hrun hlast hgap).1] at hactive
  cases hactive

end Runner

end DroneMini
