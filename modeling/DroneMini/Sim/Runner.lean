import DroneMini.Loop.Link
import DroneMini.Hal.Sil

/-!
# The lockstep runner

`main` of `sim/main_sil.cpp` once its arguments are parsed and the two sides have greeted each other. One
turn of its loop (`turn`) receives a state, runs a control tick, completes the reply and sends it, or
ends the program. The turns that send a reply make the runs of the system (`served`); each is a control
tick on what the HAL received (`ticks_of_served`), and its clock is that of the accepted messages, which
never goes back (`clockKnown_of_served`).
-/

namespace DroneMini

/-- The arguments of the runner that reach the flight context. -/
structure Args (K : Type) where
  mode : ControlMode
  armTest : Bool
  olFromRc : Bool
  thr : Flt K
  roll : Flt K
  pitch : Flt K
  yaw : Flt K
  resetReason : UInt32

/-- The state of the firmware's runner: the flight context of the control loop and the HAL. -/
structure Runner (K : Type) where
  ctx : FlightContext K
  hal : SilHal K

/-- A reply that was sent: the tick behind it, its sequence number and its payload. -/
structure FwOut (K : Type) where
  tick : TickOutput K
  seq : UInt32
  out : Wire.SilOut (Flt K)

/-- What the transport does in one turn: what it receives, and whether the reply goes out. -/
structure Transport where
  recv : RecvOutcome
  sent : Bool

/-- How a turn of the main loop ends: with a reply, or with an exit code. -/
inductive Turn (K : Type) where
  | exit (code : Nat)
  | reply (r : Runner K) (o : FwOut K)

/-- The end of a turn when its reply does not go out. -/
def Turn.unsent {K : Type} : Turn K → Turn K
  | .exit code => .exit code
  | .reply _ _ => .exit 2

namespace Runner

variable {K : Type} [Field K] [LinearOrder K] [FloatEnv K]

/-- The runner at the first turn. The greeting took the first sequence number. -/
def start (a : Args K) : Runner K where
  ctx :=
    { FlightContext.boot a.resetReason a.mode with
      olFromRc := a.olFromRc
      olThr := a.thr
      olRoll := a.roll
      olPitch := a.pitch
      olYaw := a.yaw }
  hal := SilHal.new.nextSeq.1

/-- One turn of the loop of `main`; `none` when the control tick does not return within the budget. -/
def turn (fuel : Nat) (armTest : Bool) (r : Runner K) (i : Transport) : Option (Turn K) :=
  match r.hal.recvState i.recv with
  | (.kClosed, _) => some (.exit 0)
  | (.kProto, _) => some (.exit 2)
  | (.kTimeout, _) => some (.exit 3)
  | (.kOk, hal) => do
    let (ctx, out) ← ControlLoop.tick fuel r.ctx ⟨hal.reads, armTest⟩
    let hal := out.calls.foldl SilHal.call hal
    let hal := hal.setStatus ctx.fs.armed ctx.fs.active ctx.est.imuValid ctx.est.getAttitude ctx.satShift
    let (hal, seq) := hal.nextSeq
    if i.sent then return .reply ⟨ctx, hal⟩ ⟨out, seq, hal.out⟩
    else return .exit 2

/-- The reply of a turn and the runner after it, if the turn ends with one. -/
def replyOf : Turn K → Option (Runner K × FwOut K)
  | .exit _ => none
  | .reply r o => some (r, o)

/-- A turn that sends its reply, as a step of the runner. -/
def served (armTest : Bool) (r : Runner K) (i : Transport) (r' : Runner K) (o : FwOut K) : Prop :=
  ∃ fuel, turn fuel armTest r i = some (.reply r' o)

/-! ## What a turn with a reply does -/

/-- What a turn with a reply does; `hal` is the HAL after receiving. -/
structure ServedSpec (armTest : Bool) (r : Runner K) (r' : Runner K) (o : FwOut K) (hal : SilHal K) :
    Prop where
  accepts : SilHal.Accepts r.hal hal
  tick : ControlLoop.tickStep r.ctx ⟨hal.reads, armTest⟩ r'.ctx o.tick
  out : o.out = ((o.tick.calls.foldl SilHal.call hal).setStatus r'.ctx.fs.armed r'.ctx.fs.active
    r'.ctx.est.imuValid r'.ctx.est.getAttitude r'.ctx.satShift).out
  hal : r'.hal = { hal with seq := r'.hal.seq, out := o.out }
  seq : o.seq = r.hal.seq ∧ r'.hal.seq = r.hal.seq + 1

omit [LinearOrder K] [FloatEnv K] in
/-- The calls of a control tick change the reply in the HAL and nothing else of it. -/
theorem foldl_call (hal : SilHal K) (calls : List (HalCall K)) :
    calls.foldl SilHal.call hal = { hal with out := (calls.foldl SilHal.call hal).out } := by
  induction calls generalizing hal with
  | nil => rfl
  | cons c calls ih =>
      have hcall : hal.call c = { hal with out := (hal.call c).out } := by
        cases c <;> rfl
      rw [List.foldl_cons, ih (hal.call c), hcall]

/-- **A turn with a reply accepts its message and does what `ServedSpec` says.** -/
theorem served_spec {armTest : Bool} {r r' : Runner K} {i : Transport} {o : FwOut K}
    (h : served armTest r i r' o) :
    ∃ hal, r.hal.recvState i.recv = (.kOk, hal) ∧ ServedSpec armTest r r' o hal := by
  obtain ⟨fuel, h⟩ := h
  unfold turn at h
  split at h
  · cases h
  · cases h
  · cases h
  · next hal hrecv =>
    obtain ⟨⟨ctx, out⟩, htick, h⟩ := Option.bind_eq_some_iff.mp h
    have haccepts := SilHal.recvState_spec hrecv
    cases hsent : i.sent with
    | false =>
        rw [hsent] at h
        cases h
    | true =>
        rw [hsent] at h
        cases h
        refine ⟨hal, hrecv, haccepts, ⟨fuel, htick⟩, rfl, ?_, ?_⟩
        · rw [foldl_call]
          rfl
        · rw [foldl_call]
          exact ⟨haccepts.seq, congrArg (· + 1) haccepts.seq⟩

/-- A turn whose reply does not go out ends as it would otherwise, or with 2 in place of the reply. -/
theorem turn_of_unsent (fuel : Nat) (armTest : Bool) (r : Runner K) (recv : RecvOutcome) :
    turn fuel armTest r ⟨recv, false⟩ = (turn fuel armTest r ⟨recv, true⟩).map Turn.unsent := by
  unfold turn
  dsimp only
  split
  · rfl
  · rfl
  · rfl
  · next hal hrecv =>
    cases htick : ControlLoop.tick fuel r.ctx ⟨hal.reads, armTest⟩ with
    | none => rfl
    | some p => rfl

/-! ## Runs -/

/-- A turn whose reply is computed is a turn with a reply. -/
theorem served_of_reply {fuel : Nat} {armTest : Bool} {r r' : Runner K} {i : Transport} {o : FwOut K}
    (h : (turn fuel armTest r i).bind replyOf = some (r', o)) : served armTest r i r' o := by
  obtain ⟨t, ht, hreply⟩ := Option.bind_eq_some_iff.mp h
  cases t with
  | exit code => cases hreply
  | reply => cases hreply; exact ⟨fuel, ht⟩

/-- What `execute` returns for the replies is a run of the runner. -/
theorem served_of_execute {fuel : Nat} {armTest : Bool} {r r' : Runner K} {is : List Transport}
    {es : List (Event (Runner K) Transport (FwOut K))}
    (h : execute (fun r i => (turn fuel armTest r i).bind replyOf) r is = some (es, r')) :
    Run (served armTest) r es r' :=
  (execute_run h).mono fun _ _ _ _ => served_of_reply

/-- The message of a level craft at time `t` with some RC bytes; its reply goes out. -/
def levelMsg (seq : UInt32) (t : UInt64) (raw : List UInt8) : Transport :=
  let st : Wire.StateRc :=
    { imu := ⟨fun _ => 0, ![0, 0, 0xC11CF5C3], fun _ => 0, 0, t, 1⟩  -- 1 g upwards
      vbat := 0x40733333  -- 3.8 V
      rcProto := 0
      rcLen := .ofNat raw.length
      rcRaw := fun i => raw.getD i 0 }
  ⟨.data ((Wire.packMsg SilHal.rxSize Wire.MsgType.kState.code seq st.bytes).getD []), true⟩

/-- The control tick behind a turn that sends its reply. -/
def tickOf (armTest : Bool) (e : Event (Runner K) Transport (FwOut K)) : ControlLoop.Tick K :=
  ⟨e.pre.ctx, ⟨e.post.hal.reads, armTest⟩, e.post.ctx, e.out.tick⟩

/-- The HAL reads the same after the reply as before. -/
theorem ServedSpec.reads {armTest : Bool} {r r' : Runner K} {o : FwOut K} {hal : SilHal K}
    (h : ServedSpec armTest r r' o hal) : r'.hal.reads = hal.reads := by
  rw [h.hal]
  rfl

/-- A turn with a reply has a state, later than the one before. -/
theorem ServedSpec.later {armTest : Bool} {r r' : Runner K} {o : FwOut K} {hal : SilHal K}
    (h : ServedSpec armTest r r' o hal) : r'.hal.haveState = true ∧
      (r.hal.haveState = true → r.hal.lastStateUs < r'.hal.lastStateUs) := by
  rw [h.hal]
  exact ⟨h.accepts.haveState, fun hhave => (h.accepts.later hhave).2⟩

/-- The three times a tick reads are that of the message received. -/
theorem ServedSpec.clock {armTest : Bool} {r r' : Runner K} {o : FwOut K} {hal : SilHal K}
    (h : ServedSpec armTest r r' o hal) (i : Transport) :
    ControlLoop.clock [tickOf armTest ⟨r, i, r', o⟩] = List.replicate 3 r'.hal.lastStateUs := by
  have hlast : r'.hal.lastStateUs = r'.hal.state.imu.tUs := by
    rw [h.hal]
    exact h.accepts.lastStateUs
  rw [hlast]
  rfl

/-- **A run of turns with a reply is a run of control ticks.** -/
theorem ticks_of_served {armTest : Bool} {r r' : Runner K}
    {es : List (Event (Runner K) Transport (FwOut K))} (h : Run (served armTest) r es r') :
    Run ControlLoop.tickStep r.ctx (es.map (tickOf armTest)) r'.ctx := by
  refine h.map (fun r => r.ctx) (tickOf armTest) (fun _ => rfl) (fun _ => rfl) ?_
  intro e hs
  obtain ⟨hal, -, spec⟩ := served_spec hs
  have htick := spec.tick
  rw [← spec.reads] at htick
  exact htick

/-- What the HAL knows of the clock of some ticks: it never went back, and it has not passed the state
held. -/
structure ClockKnown (ticks : List (ControlLoop.Tick K)) (hal : SilHal K) : Prop where
  monotone : ControlLoop.ClockMonotone ticks
  last : ∀ t ∈ ControlLoop.clock ticks, hal.haveState = true ∧ t ≤ hal.lastStateUs

omit [Field K] [LinearOrder K] [FloatEnv K] in
/-- A tick at the time of a later state moves the clock on. -/
theorem ClockKnown.tick {ticks : List (ControlLoop.Tick K)} {x : ControlLoop.Tick K}
    {hal hal' : SilHal K} (h : ClockKnown ticks hal) (hhave : hal'.haveState = true)
    (hlater : hal.haveState = true → hal.lastStateUs < hal'.lastStateUs)
    (hclock : ControlLoop.clock [x] = List.replicate 3 hal'.lastStateUs) :
    ClockKnown (ticks ++ [x]) hal' := by
  have hold : ∀ t ∈ ControlLoop.clock ticks, t ≤ hal'.lastStateUs := by
    intro t ht
    obtain ⟨hbefore, hle⟩ := h.last t ht
    exact UInt64.le_trans hle (UInt64.le_of_lt (hlater hbefore))
  constructor
  · rw [ControlLoop.ClockMonotone, ControlLoop.clock_append, hclock, List.pairwise_append]
    refine ⟨h.monotone, List.pairwise_replicate.mpr (.inr (UInt64.le_refl _)), fun t ht u hu => ?_⟩
    rw [List.eq_of_mem_replicate hu]
    exact hold t ht
  · rw [ControlLoop.clock_append, hclock]
    intro t ht
    rcases List.mem_append.mp ht with ht | ht
    · exact ⟨hhave, hold t ht⟩
    · rw [List.eq_of_mem_replicate ht]
      exact ⟨hhave, UInt64.le_refl _⟩

/-- **The clock of a run of the runner never goes back.** -/
theorem clockKnown_of_served {armTest : Bool} {r r' : Runner K}
    {es : List (Event (Runner K) Transport (FwOut K))} (h : Run (served armTest) r es r') :
    ClockKnown (es.map (tickOf armTest)) r'.hal := by
  induction h with
  | nil => exact ⟨List.Pairwise.nil, by simp [ControlLoop.clock]⟩
  | snoc _ hs ih =>
      obtain ⟨hal, -, spec⟩ := served_spec hs
      obtain ⟨hhave, hlater⟩ := spec.later
      rw [List.map_append, List.map_singleton]
      exact ih.tick hhave hlater (spec.clock _)

end Runner

end DroneMini
