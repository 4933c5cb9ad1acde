import DroneMini.Sim.LinkLoss

/-!
# Replayed messages and frozen time

`SilHal.recvState` under any sequence of datagrams (`received`), and the system in which a control tick
runs after each accepted one (`delivered`). What is sent between two calls does not matter, so both leave
the reply and its sequence number open. The accepted messages increase in sequence number and time; hence
the clock of the ticks increases strictly, no unsigned difference of times wraps, every decoded frame is
fresh and a timeout is a real one (`replay_rejected`).
-/

namespace DroneMini

namespace SilHal

variable {K : Type}

/-- A call of `recvState`; the rest of the class may send before the next one. -/
def received (hal : SilHal K) (o : RecvOutcome) (hal' : SilHal K) (r : IoResult) : Prop :=
  ∃ after, hal.recvState o = (r, after) ∧ hal' = { after with seq := hal'.seq, out := hal'.out }

/-- The header of the message that a receive brings, and its body read as a state. -/
def stateMsg (o : RecvOutcome) : Option (Wire.Hdr × Wire.StateRc) :=
  match recvInto o with
  | .error _ => none
  | .ok (h, payload) => some (h, .ofBytes payload)

/-- The messages that a sequence of calls to `recvState` accepted, in order. -/
def acceptedMsgs (es : List (Event (SilHal K) RecvOutcome IoResult)) :
    List (Wire.Hdr × Wire.StateRc) :=
  es.filterMap fun e => if e.out = .kOk then stateMsg e.inp else none

/-- A message is earlier than another, in sequence number and in time. -/
def Earlier (m n : Wire.Hdr × Wire.StateRc) : Prop := m.1.seq < n.1.seq ∧ m.2.imu.tUs < n.2.imu.tUs

/-- The HAL holds the last of the accepted messages, and they are in order. -/
structure HoldsLast (ms : List (Wire.Hdr × Wire.StateRc)) (hal : SilHal K) : Prop where
  ordered : ms.Pairwise Earlier
  last : ∀ m ∈ ms, hal.haveState = true ∧ m.1.seq ≤ hal.lastStateSeq ∧ m.2.imu.tUs ≤ hal.lastStateUs

/-- A call that accepts its message takes over its state, its number and its time. -/
theorem received_ok {hal hal' : SilHal K} {o : RecvOutcome} (h : received hal o hal' .kOk) :
    ∃ m, stateMsg o = some m ∧ hal'.haveState = true ∧ hal'.state = m.2 ∧
      hal'.lastStateSeq = m.1.seq ∧ hal'.lastStateUs = m.2.imu.tUs ∧
      (hal.haveState = true → hal.lastStateSeq < m.1.seq ∧ hal.lastStateUs < m.2.imu.tUs) := by
  obtain ⟨after, hrecv, heq⟩ := h
  have haccepts := recvState_spec hrecv
  obtain ⟨m, hm, -, -, hseq, hstate⟩ := recvState_ok_message hrecv
  have hus : after.lastStateUs = (Wire.StateRc.ofBytes m.2).imu.tUs := by
    rw [haccepts.lastStateUs, hstate]
  refine ⟨(m.1, .ofBytes m.2), by rw [stateMsg, hm], ?_, ?_, ?_, ?_, ?_⟩
  · rw [heq]
    exact haccepts.haveState
  · rw [heq]
    exact hstate
  · rw [heq]
    exact hseq
  · rw [heq]
    exact hus
  · intro hhave
    rw [← hseq, ← hus]
    exact haccepts.later hhave

/-- A call that does not accept its message leaves the received state. -/
theorem received_not_ok {hal hal' : SilHal K} {o : RecvOutcome} {r : IoResult}
    (h : received hal o hal' r) (hr : r ≠ .kOk) :
    hal' = { hal with seq := hal'.seq, out := hal'.out } := by
  obtain ⟨after, hrecv, heq⟩ := h
  rw [recvState_of_not_ok hrecv hr] at heq
  exact heq

/-- A call to `recvState` keeps the accepted messages in order, and the HAL in step with the last of them. -/
theorem HoldsLast.step {es : List (Event (SilHal K) RecvOutcome IoResult)}
    {e : Event (SilHal K) RecvOutcome IoResult} (h : HoldsLast (acceptedMsgs es) e.pre)
    (hs : received e.pre e.inp e.post e.out) : HoldsLast (acceptedMsgs (es ++ [e])) e.post := by
  have hsnoc : acceptedMsgs (es ++ [e])
      = acceptedMsgs es ++ (if e.out = .kOk then stateMsg e.inp else none).toList := by
    rw [acceptedMsgs, List.filterMap_append]
    cases hm : (if e.out = .kOk then stateMsg e.inp else none) <;> simp [acceptedMsgs, hm]
  rw [hsnoc]
  by_cases hok : e.out = .kOk
  · rw [hok] at hs
    obtain ⟨m, hm, hhave, -, hseq, hus, hlater⟩ := received_ok hs
    rw [if_pos hok, hm, Option.toList_some]
    have hbefore : ∀ n ∈ acceptedMsgs es, Earlier n m := by
      intro n hn
      obtain ⟨hn, hnseq, hnus⟩ := h.last n hn
      obtain ⟨hmseq, hmus⟩ := hlater hn
      exact ⟨UInt32.lt_of_le_of_lt hnseq hmseq, UInt64.lt_of_le_of_lt hnus hmus⟩
    constructor
    · rw [List.pairwise_append]
      refine ⟨h.ordered, List.pairwise_singleton _ _, fun n hn k hk => ?_⟩
      rw [List.mem_singleton.mp hk]
      exact hbefore n hn
    · intro n hn
      rw [hseq, hus]
      rcases List.mem_append.mp hn with hn | hn
      · obtain ⟨hlt, hlt'⟩ := hbefore n hn
        exact ⟨hhave, UInt32.le_of_lt hlt, UInt64.le_of_lt hlt'⟩
      · rw [List.mem_singleton.mp hn]
        exact ⟨hhave, UInt32.le_refl _, UInt64.le_refl _⟩
  · rw [if_neg hok, Option.toList_none, List.append_nil, received_not_ok hs hok]
    exact ⟨h.ordered, h.last⟩

/-- **The messages that a run of calls accepts are in order**: their numbers and their times increase
strictly. -/
theorem holdsLast_of_run {hal hal' : SilHal K} {es : List (Event (SilHal K) RecvOutcome IoResult)}
    (h : Run received hal es hal') : HoldsLast (acceptedMsgs es) hal' := by
  refine h.history (P := fun hist hal => HoldsLast (acceptedMsgs hist) hal)
    ⟨List.Pairwise.nil, by simp [acceptedMsgs]⟩ ?_
  intro hist e hlast hs
  exact hlast.step hs

end SilHal

namespace FailsafeFsm

variable {K : Type} {fs : FailsafeFsm}

/-- A sample stamped with the time of the update is fresh when it is decoded, if the machine knows no frame
of that time. -/
theorem fresh_of_past {rc : RcSample K} {t : UInt64} (htime : rc.tUs = t)
    (hpast : fs.haveFrame = true → fs.lastGoodUs < t) (hdecoded : rc.frameOk = true) :
    fs.fresh rc = true := by
  refine fresh_iff.mpr ⟨hdecoded, ?_⟩
  rw [htime, or_iff_not_imp_left, Bool.not_eq_false]
  exact hpast

/-- With its own frame taken into account the machine still knows none of a later time. -/
theorem lastGoodUs_liveness_le {rc : RcSample K} {t : UInt64} (htime : rc.tUs = t)
    (hpast : fs.haveFrame = true → fs.lastGoodUs < t) (hframe : (fs.liveness rc).haveFrame = true) :
    (fs.liveness rc).lastGoodUs ≤ t := by
  rw [liveness_eq] at hframe ⊢
  cases hf : fs.fresh rc with
  | true =>
      simp only [if_pos, htime]
      exact UInt64.le_refl _
  | false =>
      rw [hf, Bool.or_false] at hframe
      exact UInt64.le_of_lt (hpast hframe)

/-- An update shows the timeout bit only when it was shown or the machine times out. -/
theorem timeoutShown_of_update [Field K] [LinearOrder K] [FloatEnv K] {u : UpdateArgs K}
    (h : (fs.update u).TimeoutShown) : fs.TimeoutShown ∨ fs.timeoutNow u = true := by
  cases hedge : fs.edge u with
  | true =>
      rw [TimeoutShown, update_reason, hedge, if_pos rfl] at h
      exact absurd rfl h
  | false => exact (timeoutShown_update hedge).mp h

end FailsafeFsm

/-- A time span that has passed on the clock has passed as a number, since the later time did not wrap
around. -/
theorem toNat_add_le_of_le_sub {a b t : UInt64} (h : a ≤ t) (hspan : b ≤ t - a) :
    a.toNat + b.toNat ≤ t.toNat := by
  rw [UInt64.le_iff_toNat_le] at h hspan
  rw [UInt64.toNat_sub_of_le _ _ (UInt64.le_iff_toNat_le.mpr h)] at hspan
  omega

/-- A datagram, and the `arm_test` of the tick that follows when it is accepted. -/
structure Delivery where
  recv : RecvOutcome
  armTest : Bool

namespace Runner

open FailsafeFsm

variable {K : Type} [Field K] [LinearOrder K] [FloatEnv K]

/-- A datagram is received, and a control tick runs when it is accepted. -/
inductive delivered : Runner K → Delivery → Runner K → Option (TickOutput K) → Prop
  | accepted {r r' : Runner K} {i : Delivery} {out : TickOutput K} :
      SilHal.received r.hal i.recv r'.hal .kOk →
      ControlLoop.tickStep r.ctx ⟨r'.hal.reads, i.armTest⟩ r'.ctx out → delivered r i r' (some out)
  | rejected {r r' : Runner K} {i : Delivery} {res : IoResult} :
      SilHal.received r.hal i.recv r'.hal res → res ≠ .kOk → r'.ctx = r.ctx → delivered r i r' none

/-- The control tick behind a datagram, if there was one. -/
def deliveredTick (e : Event (Runner K) Delivery (Option (TickOutput K))) :
    Option (ControlLoop.Tick K) :=
  e.out.map fun out => ⟨e.pre.ctx, ⟨e.post.hal.reads, e.inp.armTest⟩, e.post.ctx, out⟩

/-- A turn of the runner that sends its reply delivers its message to the control loop as `delivered` says. -/
theorem delivered_of_served {armTest : Bool} {r r' : Runner K} {i : Transport} {o : FwOut K}
    (h : served armTest r i r' o) : delivered r ⟨i.recv, armTest⟩ r' (some o.tick) := by
  obtain ⟨hal, hrecv, spec⟩ := served_spec h
  have htick := spec.tick
  rw [← spec.reads] at htick
  exact .accepted ⟨hal, hrecv, by rw [spec.hal]⟩ htick

/-- A turn of the runner, as the delivery of its message. -/
def deliveryOf (armTest : Bool) (e : Event (Runner K) Transport (FwOut K)) :
    Event (Runner K) Delivery (Option (TickOutput K)) :=
  ⟨e.pre, ⟨e.inp.recv, armTest⟩, e.post, some e.out.tick⟩

/-- A run of the runner is a run of deliveries. -/
theorem deliveries_of_served {armTest : Bool} {r r' : Runner K}
    {es : List (Event (Runner K) Transport (FwOut K))} (h : Run (served armTest) r es r') :
    Run delivered r (es.map (deliveryOf armTest)) r' :=
  h.map id (deliveryOf armTest) (fun _ => rfl) (fun _ => rfl) fun _ => delivered_of_served

/-- **The ticks behind the datagrams are a run of ticks.** -/
theorem ticks_of_delivered {r r' : Runner K}
    {es : List (Event (Runner K) Delivery (Option (TickOutput K)))} (h : Run delivered r es r') :
    Run ControlLoop.tickStep r.ctx (es.filterMap deliveredTick) r'.ctx := by
  refine h.filterMap (fun r => r.ctx) deliveredTick ?_ ?_
  · rintro ⟨pre, i, post, out⟩ hs x hx
    cases hs with
    | accepted _ htick =>
        cases hx
        exact ⟨rfl, rfl, htick⟩
    | rejected => cases hx
  · rintro ⟨pre, i, post, out⟩ hs hnone
    cases hs with
    | accepted => cases hnone
    | rejected _ _ hctx => exact hctx

/-- The tick behind an accepted datagram is later than the clock before it. -/
theorem clock_of_accepted {e : Event (Runner K) Delivery (Option (TickOutput K))}
    {x : ControlLoop.Tick K} (hs : delivered e.pre e.inp e.post e.out) (hx : x ∈ deliveredTick e) :
    e.post.hal.haveState = true ∧
      (e.pre.hal.haveState = true → e.pre.hal.lastStateUs < e.post.hal.lastStateUs) ∧
      ControlLoop.clock [x] = List.replicate 3 e.post.hal.lastStateUs := by
  obtain ⟨pre, i, post, out⟩ := e
  cases hs with
  | accepted hrecv _ =>
      cases hx
      obtain ⟨m, -, hhave, hstate, -, hus, hlater⟩ := SilHal.received_ok hrecv
      refine ⟨hhave, fun h => ?_, ?_⟩
      · rw [hus]
        exact (hlater h).2
      · rw [hus, ← hstate]
        rfl
  | rejected => cases hx

/-- **The clock of the ticks behind the datagrams never goes back.** -/
theorem clockKnown_of_delivered {r r' : Runner K}
    {es : List (Event (Runner K) Delivery (Option (TickOutput K)))} (h : Run delivered r es r') :
    ClockKnown (es.filterMap deliveredTick) r'.hal := by
  refine h.history (P := fun hist r => ClockKnown (hist.filterMap deliveredTick) r.hal)
    ⟨List.Pairwise.nil, by simp [ControlLoop.clock]⟩ ?_
  intro hist e hknown hs
  rw [List.filterMap_append]
  cases hx : deliveredTick e with
  | some x =>
      obtain ⟨hhave, hlater, hclock⟩ := clock_of_accepted hs hx
      rw [List.filterMap_cons_some hx]
      exact hknown.tick hhave hlater hclock
  | none =>
      rw [List.filterMap_cons_none hx, List.filterMap_nil, List.append_nil]
      obtain ⟨pre, i, post, out⟩ := e
      cases hs with
      | accepted => cases hx
      | rejected hrecv hres =>
          rw [SilHal.received_not_ok hrecv hres]
          exact ⟨hknown.monotone, hknown.last⟩

/-- The update of a tick knows no frame from the future. -/
theorem link_of_delivered {resetReason : UInt32} {r r' : Runner K}
    {es : List (Event (Runner K) Delivery (Option (TickOutput K)))}
    {e : Event (Runner K) Delivery (Option (TickOutput K))}
    (hboot : r.ctx.fs = boot resetReason) (h : Run delivered r (es ++ [e]) r')
    {x : ControlLoop.Tick K} (hx : x ∈ deliveredTick e) :
    ControlLoop.LinkKnown (es.filterMap deliveredTick ++ [x]) x.post.fs ∧
      ControlLoop.tickStep x.pre x.inp x.post x.out ∧
      x.inp.hal.rcUs = x.inp.hal.fsUs ∧
      (x.pre.fs.haveFrame = true → x.pre.fs.lastGoodUs < x.inp.hal.fsUs) := by
  obtain ⟨hr, hs, hpost⟩ := h.snoc_inv
  have hhave : r.ctx.fs.haveFrame = false := hboot ▸ boot_haveFrame resetReason
  have hticks := ticks_of_delivered h
  have hclock := clockKnown_of_delivered h
  have hbefore := clockKnown_of_delivered hr
  have hpre := ControlLoop.linkKnown_of_run (ticks_of_delivered hr) hhave hbefore.monotone
  rw [List.filterMap_append, List.filterMap_cons_some hx, List.filterMap_nil] at hticks hclock
  have hlink := ControlLoop.linkKnown_of_run hticks hhave hclock.monotone
  obtain ⟨-, hstep, hlast⟩ := hticks.snoc_inv
  obtain ⟨-, hlater, htime⟩ := clock_of_accepted hs hx
  obtain ⟨hrc, hfs, -⟩ : x.inp.hal.rcUs = e.post.hal.lastStateUs ∧
      x.inp.hal.fsUs = e.post.hal.lastStateUs ∧ x.inp.hal.ledUs = e.post.hal.lastStateUs := by
    simpa [ControlLoop.clock, List.replicate] using htime
  have hctx : x.pre = e.pre.ctx := by
    obtain ⟨out, -, rfl⟩ := Option.map_eq_some_iff.mp hx
    rfl
  refine ⟨hlast ▸ hlink, hstep, hrc.trans hfs.symm, fun hframe => ?_⟩
  rw [hctx, hpre.haveFrame] at hframe
  obtain ⟨t, ht⟩ := Option.isSome_iff_exists.mp hframe
  obtain ⟨hheld, hle⟩ := hbefore.last t (ControlLoop.lastDecodeUs_mem ht)
  rw [hctx, hpre.lastGoodUs t ht, hfs]
  exact UInt64.lt_of_le_of_lt hle (hlater hheld)

/-- **Replay and frozen time.** Under any sequence of datagrams the accepted messages strictly increase in
sequence number and time, and a datagram that is not accepted leaves what was received. When a tick runs
after each accepted message, no update knows a frame later than its own time, before or after it takes
its own frame into account; every decoded frame is fresh; and an update sets the timeout bit only when
the last decoded frame is at least `kRcTimeoutUs` back. -/
theorem replay_rejected :
    (∀ (hal hal' : SilHal K) (es : List (Event (SilHal K) RecvOutcome IoResult)),
      Run SilHal.received hal es hal' →
      (SilHal.acceptedMsgs es).Pairwise
        (fun m n => m.1.seq < n.1.seq ∧ m.2.imu.tUs < n.2.imu.tUs) ∧
      (∀ e ∈ es, e.out = .kOk →
        ∃ m, SilHal.stateMsg e.inp = some m ∧ e.post.state = m.2 ∧ e.post.lastStateSeq = m.1.seq ∧
          e.post.lastStateUs = m.2.imu.tUs ∧ e.post.haveState = true) ∧
      ∀ e ∈ es, e.out ≠ .kOk →
        e.post.state = e.pre.state ∧ e.post.lastStateSeq = e.pre.lastStateSeq ∧
          e.post.lastStateUs = e.pre.lastStateUs ∧ e.post.haveState = e.pre.haveState) ∧
    (∀ (resetReason : UInt32) (r r' : Runner K)
      (es : List (Event (Runner K) Delivery (Option (TickOutput K)))),
      r.ctx.fs = boot resetReason → Run delivered r es r' →
      ∀ hist e later, es = hist ++ e :: later → ∀ x ∈ deliveredTick e,
        let u := ControlLoop.fsArgs x.pre x.inp x.out.sensed
        (x.pre.fs.haveFrame = true → x.pre.fs.lastGoodUs ≤ u.nowUs) ∧
        ((x.pre.fs.liveness u.rc).haveFrame = true →
          (x.pre.fs.liveness u.rc).lastGoodUs ≤ u.nowUs) ∧
        (ControlLoop.decodes x = true → x.pre.fs.fresh u.rc = true) ∧
        (x.pre.fs.timeoutNow u = true →
          ∃ T ∈ ControlLoop.lastDecodeUs (hist.filterMap deliveredTick ++ [x]),
            T.toNat + kRcTimeoutUs.toNat ≤ u.nowUs.toNat) ∧
        (x.post.fs.TimeoutShown → x.pre.fs.TimeoutShown ∨ x.pre.fs.timeoutNow u = true)) := by
  constructor
  · intro hal hal' es hrun
    refine ⟨(SilHal.holdsLast_of_run hrun).ordered, fun e he hok => ?_, fun e he hno => ?_⟩
    · have hs := hrun.step_of_mem he
      rw [hok] at hs
      obtain ⟨m, hm, hhave, hstate, hseq, hus, -⟩ := SilHal.received_ok hs
      exact ⟨m, hm, hstate, hseq, hus, hhave⟩
    · rw [SilHal.received_not_ok (hrun.step_of_mem he) hno]
      exact ⟨rfl, rfl, rfl, rfl⟩
  · rintro resetReason r r' es hboot hrun hist e later rfl x hx u
    obtain ⟨hr, hs, -⟩ := hrun.split
    obtain ⟨hlink, hstep, hsame, hpast⟩ := link_of_delivered hboot (.snoc hr hs) hx
    have htime := ControlLoop.timeoutNow_iff hlink hstep
    obtain ⟨fuel, htick⟩ := hstep
    have spec := ControlLoop.tick_spec htick
    have htUs : u.rc.tUs = u.nowUs := spec.sensed.tUs.trans hsame
    have hafter := lastGoodUs_liveness_le htUs hpast
    have hfresh : ControlLoop.decodes x = true → x.pre.fs.fresh u.rc = true := fun hd =>
      fresh_of_past htUs hpast ((ControlLoop.frameOk_eq_decodes spec).trans hd)
    refine ⟨fun h => UInt64.le_of_lt (hpast h), hafter, hfresh, fun h => ?_, fun h => ?_⟩
    · obtain ⟨T, hT, hle⟩ := htime.mp h
      have hknown : (x.pre.fs.liveness u.rc).lastGoodUs = T := by
        rw [← hlink.lastGoodUs T hT, spec.fs, update_lastGoodUs, liveness_eq]
      have hT' : T ≤ u.nowUs := by
        rw [← hknown]
        exact hafter (Bool.and_eq_true_iff.mp h).1
      exact ⟨T, hT, toNat_add_le_of_le_sub hT' hle⟩
    · rw [spec.fs] at h
      exact timeoutShown_of_update h

set_option maxRecDepth 20000 in
/-- A message that is delivered twice is accepted once, and the frame of a later one is fresh. -/
theorem replay_rejected_twice :
    (∃ hal : SilHal ℚ, SilHal.new.recvState (levelMsg 1 1000 idleFrame).recv = (.kOk, hal) ∧
      (hal.recvState (levelMsg 1 1000 idleFrame).recv).2.state = hal.state) ∧
      ∃ es e r, Run (served attitude.armTest) (start attitude) (es ++ [e]) r ∧
        (es ++ [e]).map Event.inp = [levelMsg 1 1000 idleFrame, lateMsg true] ∧
        e.pre.ctx.fs.fresh e.out.tick.sensed.rc = true := by
  constructor
  · have hok : ((SilHal.new : SilHal ℚ).recvState (levelMsg 1 1000 idleFrame).recv).1 = .kOk := by
      decide +kernel
    generalize (levelMsg 1 1000 idleFrame).recv = msg at hok ⊢
    cases hfirst : (SilHal.new : SilHal ℚ).recvState msg with | mk res hal =>
    cases hagain : hal.recvState msg with | mk res' hal' =>
    rw [hfirst] at hok
    obtain rfl : res = .kOk := hok
    refine ⟨hal, rfl, ?_⟩
    have hrun : Run SilHal.received SilHal.new ([] ++ [⟨_, msg, hal, .kOk⟩] ++ [⟨hal, msg, hal', res'⟩])
        hal' := .snoc (.snoc (.nil _) ⟨hal, hfirst, rfl⟩) ⟨hal', hagain, rfl⟩
    obtain ⟨hordered, haccepted, hkept⟩ := (replay_rejected (K := ℚ)).1 _ _ _ hrun
    obtain ⟨m, hm, -⟩ := haccepted ⟨_, msg, hal, .kOk⟩ List.mem_cons_self rfl
    have hres : res' ≠ .kOk := by
      rintro rfl
      -- a second copy of the message would have to be later than the first
      simp [SilHal.acceptedMsgs, hm] at hordered
    rw [hagain]
    exact (hkept ⟨hal, msg, hal', res'⟩ (List.mem_append_right _ (List.mem_singleton_self _)) hres).1
  · obtain ⟨es, e, r, hrun, hinp, -, -, hd, -⟩ := lateMsg_run true
    refine ⟨es, e, r, hrun, hinp, ?_⟩
    have hall := deliveries_of_served hrun
    rw [List.map_append, List.map_singleton] at hall
    exact (replay_rejected.2 attitude.resetReason _ _ _ rfl hall _ _ [] rfl _ rfl).2.2.1 hd

end Runner

end DroneMini
