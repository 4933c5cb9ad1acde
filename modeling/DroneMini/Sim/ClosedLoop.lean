import DroneMini.Hal.RoundTrip
import DroneMini.Plant.Runner
import DroneMini.Sim.Accounting
import DroneMini.Sim.Main

/-!
# The closed loop without a wire

What a session of the plant and the firmware is for: one program that measures the craft, hands what it
measured to the control tick, and steps the craft on the duties of the tick (`ClosedLoop.tick`). There are no
messages, no sequence numbers and no second process in it; what is left of the wire is that a float becomes
its bits. `ClosedLoop.run` is this program over all ticks of a run.

The two programs that exchange messages compute the same: with states that match (`Matches`), the firmware
makes of the STATE message of the plant what the control tick makes of the measurement
(`turn_of_statement`), and the plant makes of the FW_OUT message of the firmware what the closed loop makes of
its duties (`tick_of_reply`).
-/

namespace DroneMini

open PlantRunner

/-- What a session is set up with: the craft and the arguments of the plant, the arguments of the firmware,
the budget of its loops, and the bits of its floats. A run has at least one tick, and at most as many as there
are sequence numbers behind that of the greeting. -/
structure Setup (σ F K : Type) where
  craft : Craft σ F
  start : σ
  run : RunArgs
  fw : Args K
  fuel : Nat
  bits : Flt K → UInt32
  nTicks_pos : 0 < run.nTicks
  nTicks_lt : run.nTicks < 2 ^ 32

/-- The state of the closed loop between two ticks: the craft, the last duties, the log so far and the flight
context. -/
structure ClosedLoop (σ F K : Type) where
  craft : σ
  duty : List Struct.Value
  rows : List (Row F)
  ctx : FlightContext K

namespace PlantRunner

/-- The IMU is marked valid in a tick, as long as the time set for its failure has not come. -/
def RunArgs.valid (a : RunArgs) (tick : Nat) : Bool :=
  !decide (0 < a.imuInvalidAfter ∧ a.imuInvalidAfter * 1000000 ≤ (tick * DT_US : Nat))

/-- The channels that a tick logs, which are those of its frame or the neutral ones without a frame. -/
def RunArgs.commands (a : RunArgs) (tick : Nat) : List Nat := ((channels (a.raw tick)).toOption).getD []

/-- The frame of a scenario fits into a STATE message as it is. -/
theorem RunArgs.length_raw (a : RunArgs) (tick : Nat) : (a.raw tick).length ≤ 25 := by
  unfold RunArgs.raw
  cases a.frame tick with
  | none => simp
  | some f => exact (length_sbusEncode f.1 f.2).le

/-- The channels of a tick can always be decoded from the bytes of its frame. -/
theorem RunArgs.channels_eq (a : RunArgs) (tick : Nat) : channels (a.raw tick) = .ok (a.commands tick) := by
  obtain ⟨ch, hch⟩ := channels_raw a tick
  rw [RunArgs.commands, hch]
  rfl

/-- A tick whose STATE message is sent and that receives a message. -/
theorem tick_of_msg {σ F : Type} {w : Craft σ F} {a : RunArgs} {x : Exchange} {k : Nat} {m : Msg}
    (st : RunState σ F) (hk : k < 2 ^ 32) (hsent : x.send = .sent) (hm : heard x.recv = .msg m) :
    tick w a x k st = reply w k (a.commands k) (measure w st) (measured w st) m := by
  rw [tick_of_channels st (a.channels_eq k) hk hsent, hm]

end PlantRunner

namespace SilHal

/-- A message that fits into the receive buffer is received as it was sent. -/
theorem recvInto_packed (type : UInt8) (seq : UInt32) {payload : List UInt8} (hlen : payload.length ≤ 242) :
    ∃ h, recvInto (.data (Wire.packed type seq payload)) = .ok (h, payload) ∧ h.type = type ∧
      h.seq = seq ∧ h.len.toNat = payload.length := by
  have hsize : (Wire.packed type seq payload).length = Wire.Hdr.size + payload.length :=
    Wire.length_packedAt Wire.kProtoVersion type seq payload
  rw [Wire.Hdr.size] at hsize
  have htake : (Wire.packed type seq payload).take rxSize = Wire.packed type seq payload := by
    apply List.take_of_length_le
    rw [hsize, rxSize]
    omega
  obtain ⟨h, hunpack, hfields⟩ := Wire.unpackMsg_packed type seq (show payload.length ≤ 65535 by omega)
  have hne : Wire.packed type seq payload ≠ [] := List.ne_nil_of_length_pos (by omega)
  refine ⟨h, ?_, hfields⟩
  rw [recvInto_data hne, htake, hunpack, Except.mapError]

end SilHal

namespace ClosedLoop

variable {σ F K : Type} [Field K] [LinearOrder K] [FloatEnv K] (s : Setup σ F K)

/-- The state before the first tick: the motors stand still. -/
def begin : ClosedLoop σ F K where
  craft := s.start
  duty := List.replicate 4 (.float 0)
  rows := []
  ctx := (Runner.start s.fw).ctx

/-- What a tick measures: the IMU sample of the craft, and the battery voltage under the last duties. -/
def measure (y : ClosedLoop σ F K) : Measured σ F :=
  let ((gyro, accel), c) := s.craft.sense y.craft
  let (vbat, c) := s.craft.battery c y.duty
  ⟨gyro, accel, vbat, c⟩

/-- What the control tick reads of it, with the frame of the scenario and the time of the tick. -/
def reads (k : Nat) (m : Measured σ F) : HalReads K :=
  let tUs := UInt64.ofNat (k * DT_US)
  let vbat := Flt.ofBits (s.craft.bits m.vbat)
  { imuOk := s.run.valid k
    imu :=
      { gyroRps := fun i => .ofBits (s.craft.bits (m.gyro i))
        accelMps2 := fun i => .ofBits (s.craft.bits (m.accel i))
        magUT := fun _ => .ofBits 0
        tempC := .ofBits 0x41C80000
        tUs := tUs
        valid := s.run.valid k }
    rcRaw := some (s.run.raw k)
    rcUs := tUs
    vbatOk := vbat.isFinite
    vbat := vbat
    fsUs := tUs
    ledUs := tUs }

/-- The duties that the calls of a tick leave in the reply: those of the last call to the motors. -/
def duties (calls : List (HalCall K)) : Fin 4 → Flt K :=
  calls.foldl
    (fun mot call =>
      match call with
      | .pwmWrite cmd => cmd.mot
      | .pwmOff => fun _ => 0
      | .ledSet _ => mot)
    fun _ => 0

/-- What a control tick shows of itself in the reply: duties, attitude, arm state, failsafe, LED and IMU. -/
def shown (ctx : FlightContext K) (calls : List (HalCall K)) : Wire.SilOut (Flt K) where
  mot := duties calls
  rollEst := ctx.est.getAttitude 0
  pitchEst := ctx.est.getAttitude 1
  yawEst := ctx.est.getAttitude 2
  armed := if ctx.fs.armed then 1 else 0
  failsafe := if ctx.fs.active then 1 else 0
  ledMode := ctx.led.mode.code
  imuValid := if ctx.est.imuValid then 1 else 0
  tick := 0
  satShift := ctx.satShift

end ClosedLoop

/-- A reply with each of its floats replaced by what a function makes of it. -/
def Wire.SilOut.map {F G : Type} (f : F → G) (o : Wire.SilOut F) : Wire.SilOut G where
  mot := fun i => f (o.mot i)
  rollEst := f o.rollEst
  pitchEst := f o.pitchEst
  yawEst := f o.yawEst
  armed := o.armed
  failsafe := o.failsafe
  ledMode := o.ledMode
  imuValid := o.imuValid
  tick := o.tick
  satShift := f o.satShift

namespace ClosedLoop

variable {σ F K : Type} [Field K] [LinearOrder K] [FloatEnv K] (s : Setup σ F K)

/-- Why the closed loop stops before its last tick: the control hangs, or the craft leaves the finite
numbers. -/
inductive Stop (σ F K : Type) where
  /-- The control tick does not return, because its angle wrapping exceeds the budget. -/
  | hangs
  /-- The craft leaves the finite numbers while it steps; the row of the tick is logged already. -/
  | diverges (y : ClosedLoop σ F K)

/-- What the plant makes of a reply: it logs a row and steps the craft under the duties of the reply. -/
def move (k : Nat) (y : ClosedLoop σ F K) (ctx : FlightContext K) (out : SilProto.OutDict) :
    Stop σ F K ⊕ ClosedLoop σ F K :=
  let m := measure s y
  let y' (craft : σ) : ClosedLoop σ F K :=
    { craft, duty := out.mot, rows := y.rows ++ [rowOf k (s.run.commands k) m out], ctx }
  match s.craft.step m.craft out.mot m.vbat with
  | none => .inl (.diverges (y' m.craft))
  | some c => if s.craft.finite c then .inr (y' c) else .inl (.diverges (y' c))

/-- One tick of the closed loop: the craft is measured, the control answers, and the craft moves. -/
def tick (y : ClosedLoop σ F K) (k : Nat) : Stop σ F K ⊕ ClosedLoop σ F K :=
  match ControlLoop.tick s.fuel y.ctx ⟨reads s k (measure s y), s.fw.armTest⟩ with
  | none => .inl .hangs
  | some (ctx, t) => move s k y ctx (Wire.outDict ((shown ctx t.calls).map s.bits))

/-- The closed loop over all ticks of a run, unless one of them stops it. -/
def run : Stop σ F K ⊕ ClosedLoop σ F K := runUntil (tick s) (begin s) (List.range s.run.nTicks)

/-! ## The two programs compute the closed loop -/

/-- The plant and the firmware between two ticks are the closed loop there: the plant has taken no later
reply, and the firmware no later state. -/
structure Matches (k : Nat) (y : ClosedLoop σ F K) (st : RunState σ F) (r : Runner K) : Prop where
  craft : st.craft = y.craft
  duty : st.duty = y.duty
  rows : st.rows = y.rows
  aborted : st.aborted = true
  outSeq : st.lastOutSeq ≤ k
  ctx : r.ctx = y.ctx
  seq : r.hal.seq = .ofNat (k + 1)
  out : r.hal.out.tick = 0
  last : ∀ m ∈ Runner.lastOf r.hal, m.1.toNat < k ∧ m.2.toNat < k * DT_US

theorem matches_begin : Matches 0 (begin s) (PlantRunner.begin s.start) (Runner.start s.fw) where
  craft := rfl
  duty := rfl
  rows := rfl
  aborted := rfl
  outSeq := show (-1 : Int) ≤ 0 by decide
  ctx := rfl
  seq := rfl
  out := rfl
  last := by
    intro m hm
    cases hm

/-- The STATE message that the plant sends in a tick, with what it measured. -/
def statement (k : Nat) (m : Measured σ F) : List UInt8 :=
  let st := Wire.stateOf (.ofNat (k * DT_US)) (s.craft.bits ∘ m.gyro) (s.craft.bits ∘ m.accel) (fun _ => 0)
    0x41C80000 (s.run.valid k) (s.craft.bits m.vbat) 0 (s.run.raw k)
  Wire.packed Wire.MsgType.kState.code (.ofNat k)
    (Wire.stateRecord st (s.run.valid k) (Wire.rcPadded (s.run.raw k)))

/-- The FW_OUT message in which the firmware sends a reply. -/
def replyMsg (o : FwOut K) : List UInt8 :=
  Wire.packed Wire.MsgType.kFwOut.code o.seq (o.out.map s.bits).bytes

variable {s} {k : Nat} {y : ClosedLoop σ F K} {st : RunState σ F} {r : Runner K}

omit [Field K] [LinearOrder K] [FloatEnv K] in
/-- A plant that matches the closed loop measures the same as it does. -/
theorem Matches.measure (h : Matches k y st r) : PlantRunner.measure s.craft st = ClosedLoop.measure s y := by
  unfold PlantRunner.measure ClosedLoop.measure
  rw [h.craft, h.duty]

omit [Field K] [LinearOrder K] [FloatEnv K] in
/-- A STATE record is as long as `sizeof(StateRc)`, whatever its values. -/
theorem length_stateRecord (st : Wire.StateRc) (valid : Bool) (raw : List UInt8) :
    (Wire.stateRecord st valid (Wire.rcPadded raw)).length = Wire.StateRc.size := by
  simp [Wire.stateRecord, Wire.stateItems, Wire.StateRc.size]

omit [Field K] [LinearOrder K] [FloatEnv K] in
/-- The message that the plant packs for a tick is the STATE message with what it measured. -/
theorem stateMsg_eq (hk : k < s.run.nTicks) (m : Measured σ F) :
    stateMsg s.run k (s.craft.bits ∘ m.gyro) (s.craft.bits ∘ m.accel) (s.craft.bits m.vbat)
      = some (statement s k m) := by
  have hsmall : k < 2 ^ 32 := Nat.lt_trans hk s.nTicks_lt
  have hraw : (s.run.raw k).length ≤ 255 := (s.run.length_raw k).trans (by simp)
  have htime : (UInt64.ofNat (k * DT_US)).toNat = k * DT_US := by
    apply UInt64.toNat_ofNat_of_lt'
    show k * 1000 < 2 ^ 64
    omega
  have hseq : (UInt32.ofNat k).toNat = k := UInt32.toNat_ofNat_of_lt' hsmall
  have hstate := Wire.packState_eq (.ofNat (k * DT_US)) (s.craft.bits ∘ m.gyro) (s.craft.bits ∘ m.accel)
    (fun _ => 0) 0x41C80000 (s.run.valid k) (s.craft.bits m.vbat) 0 hraw
  have hlen := length_stateRecord (Wire.stateOf (.ofNat (k * DT_US)) (s.craft.bits ∘ m.gyro)
    (s.craft.bits ∘ m.accel) (fun _ => 0) 0x41C80000 (s.run.valid k) (s.craft.bits m.vbat) 0 (s.run.raw k))
    (s.run.valid k) (s.run.raw k)
  have htype : (Wire.MsgType.kState.code.toNat : Int) = SilProto.MsgType.STATE := rfl
  have hmsg := SilProto.packMsg_eq Wire.MsgType.kState.code (.ofNat k) (hlen.le.trans (by decide))
  rw [htime] at hstate
  rw [hseq] at hmsg
  have hproto : ((0 : UInt8).toNat : Int) = 0 := rfl
  rw [hproto] at hstate
  rw [htype] at hmsg
  unfold RunArgs.valid at hstate
  unfold stateMsg statement
  dsimp only
  rw [hstate, Option.bind_some]
  exact hmsg

/-- The HAL of the firmware once it has taken the STATE message of a tick. -/
def accepted (s : Setup σ F K) (k : Nat) (m : Measured σ F) (hal : SilHal K) : SilHal K :=
  { hal with
    lastStateSeq := .ofNat k
    lastStateUs := .ofNat (k * DT_US)
    haveState := true
    state := Wire.stateOf (.ofNat (k * DT_US)) (s.craft.bits ∘ m.gyro) (s.craft.bits ∘ m.accel) (fun _ => 0)
      0x41C80000 (s.run.valid k) (s.craft.bits m.vbat) 0 (s.run.raw k) }

omit [Field K] [LinearOrder K] [FloatEnv K] in
/-- A firmware that matches the closed loop accepts the STATE message of the tick. -/
theorem Matches.recvState (h : Matches k y st r) (hk : k < s.run.nTicks) (m : Measured σ F) :
    r.hal.recvState (.data (statement s k m)) = (.kOk, accepted s k m r.hal) := by
  have hsmall : k < 2 ^ 32 := Nat.lt_trans hk s.nTicks_lt
  have htime : (UInt64.ofNat (k * DT_US)).toNat = k * DT_US := by
    apply UInt64.toNat_ofNat_of_lt'
    show k * 1000 < 2 ^ 64
    omega
  have hseq : (UInt32.ofNat k).toNat = k := UInt32.toNat_ofNat_of_lt' hsmall
  have hsize := length_stateRecord (Wire.stateOf (.ofNat (k * DT_US)) (s.craft.bits ∘ m.gyro)
    (s.craft.bits ∘ m.accel) (fun _ => 0) 0x41C80000 (s.run.valid k) (s.craft.bits m.vbat) 0 (s.run.raw k))
    (s.run.valid k) (s.run.raw k)
  obtain ⟨hdr, hrecv, htype, hseq', hlen⟩ := SilHal.recvInto_packed Wire.MsgType.kState.code (.ofNat k)
    (hsize.le.trans (by decide))
  have hstate := Wire.ofBytes_stateRecord (Wire.stateOf (.ofNat (k * DT_US)) (s.craft.bits ∘ m.gyro)
    (s.craft.bits ∘ m.accel) (fun _ => 0) 0x41C80000 (s.run.valid k) (s.craft.bits m.vbat) 0 (s.run.raw k))
    (s.run.valid k) (Wire.rcPadded (s.run.raw k)) rfl fun i => Wire.getD_rcPadded _ i.isLt
  have hlater : Runner.Later (Runner.lastOf r.hal) (.ofNat k) (.ofNat (k * DT_US)) := by
    intro last hlast
    obtain ⟨hbefore, hearlier⟩ := h.last last hlast
    exact ⟨UInt32.lt_iff_toNat_lt.mpr (by rwa [hseq]), UInt64.lt_iff_toNat_lt.mpr (by rwa [htime])⟩
  rw [statement, Runner.recvState_of_message hrecv, htype, hseq', hlen, hsize, hstate, if_neg (by decide),
    if_pos ⟨rfl, rfl, hlater⟩]
  rfl

omit [LinearOrder K] [FloatEnv K] in
/-- Once it has accepted the STATE message, the firmware reads what the plant has measured. -/
theorem reads_accepted (k : Nat) (m : Measured σ F) (hal : SilHal K) :
    (accepted s k m hal).reads = reads s k m := by
  have hraw : (accepted s k m hal).rcRawRead 64 = s.run.raw k := by
    have hlong := s.run.length_raw k
    rw [Wire.rcRawRead_eq (show (s.run.raw k).length ≤ 255 by omega) rfl rfl]
    exact List.take_of_length_le (by omega)
  have hvalid : decide ((accepted s k m hal).state.imu.valid ≠ 0) = s.run.valid k := by
    show decide ((if s.run.valid k then (1 : UInt8) else 0) ≠ 0) = s.run.valid k
    cases s.run.valid k <;> rfl
  unfold SilHal.reads SilHal.imuRead reads
  rw [hraw, hvalid]
  rfl

/-- What a tick shows is what its HAL holds after its calls. -/
theorem shown_eq {fuel : Nat} {c c' : FlightContext K} {inp : TickInput K} {t : TickOutput K} {hal : SilHal K}
    (spec : ControlLoop.TickSpec fuel c inp c' t) (hout : hal.out.tick = 0) :
    ((t.calls.foldl SilHal.call hal).setStatus c'.fs.armed c'.fs.active c'.est.imuValid c'.est.getAttitude
      c'.satShift).out = shown c' t.calls := by
  rw [spec.calls, ← spec.led]
  unfold shown duties
  cases hgate : (OutputStage.apply t.pwm c'.fs.armed c'.fs.active c'.est.imuValid).2 with
  | pwmWrite | pwmOff =>
    simp only [List.foldl_cons, List.foldl_nil, SilHal.call, SilHal.setStatus, hout]
  | ledSet mode =>
    unfold OutputStage.apply at hgate
    split_ifs at hgate

/-- The firmware after a reply to the STATE message of a tick. -/
structure Replied (k : Nat) (ctx : FlightContext K) (t : TickOutput K) (r' : Runner K) (o : FwOut K) :
    Prop where
  out : o.out = shown ctx t.calls
  number : o.seq = .ofNat (k + 1)
  ctx : r'.ctx = ctx
  seq : r'.hal.seq = .ofNat (k + 2)
  tick : r'.hal.out.tick = 0
  last : Runner.lastOf r'.hal = some (.ofNat k, .ofNat (k * DT_US))

/-- **What the firmware makes of the STATE message** is what the control tick makes of the measurement. -/
theorem Matches.turn (h : Matches k y st r) (hk : k < s.run.nTicks) :
    (ControlLoop.tick s.fuel y.ctx ⟨reads s k (ClosedLoop.measure s y), s.fw.armTest⟩ = none →
      Runner.turn s.fuel s.fw.armTest r ⟨.data (statement s k (ClosedLoop.measure s y)), true⟩ = none) ∧
    ∀ ctx t, ControlLoop.tick s.fuel y.ctx ⟨reads s k (ClosedLoop.measure s y), s.fw.armTest⟩
        = some (ctx, t) →
      ∃ r' o, Runner.turn s.fuel s.fw.armTest r ⟨.data (statement s k (ClosedLoop.measure s y)), true⟩
          = some (.reply r' o) ∧ Replied k ctx t r' o := by
  have hrecv := h.recvState hk (ClosedLoop.measure s y)
  have hreads := reads_accepted (s := s) k (ClosedLoop.measure s y) r.hal
  unfold Runner.turn
  dsimp only
  rw [hrecv]
  simp only [hreads, h.ctx]
  constructor
  · intro htick
    simp [htick]
  · intro ctx t htick
    have hshown := shown_eq (ControlLoop.tick_spec htick)
      (show (accepted s k (ClosedLoop.measure s y) r.hal).out.tick = 0 from h.out)
    simp only [htick, Option.bind_eq_bind, Option.bind_some, if_true]
    refine ⟨_, _, rfl, hshown, ?_, rfl, ?_, ?_, ?_⟩
    · rw [Runner.foldl_call]
      exact h.seq
    · rw [Runner.foldl_call]
      show r.hal.seq + 1 = _
      rw [h.seq]
      exact (UInt32.ofNat_add (k + 1) 1).symm
    · exact congrArg (fun o => o.tick) hshown
    · rw [Runner.foldl_call]
      rfl

omit [Field K] [LinearOrder K] [FloatEnv K] in
/-- The bytes of a reply are as many as `sizeof(SilOut)`. -/
theorem length_outBytes (o : Wire.SilOut UInt32) : o.bytes.length = Wire.SilOut.size := by
  simp [Wire.SilOut.bytes, Wire.SilOut.size, List.finRange_succ]

omit [LinearOrder K] [FloatEnv K] in
/-- **What the plant makes of the FW_OUT message** is what the closed loop makes of the duties. -/
theorem Matches.reply (h : Matches k y st r) (hk : k < s.run.nTicks) {ctx : FlightContext K}
    {t : TickOutput K} {r' : Runner K} {o : FwOut K} (hr : Replied k ctx t r' o) :
    (∀ y', move s k y ctx (Wire.outDict ((shown ctx t.calls).map s.bits)) = .inr y' →
      ∃ st', PlantRunner.tick s.craft s.run ⟨.data (replyMsg s o), .sent⟩ k st = .inr st' ∧
        Matches (k + 1) y' st' r') ∧
    ∀ stop, move s k y ctx (Wire.outDict ((shown ctx t.calls).map s.bits)) = .inl stop →
      ∃ y' st', stop = .diverges y' ∧
        PlantRunner.tick s.craft s.run ⟨.data (replyMsg s o), .sent⟩ k st
          = .inl (.ended (.code SilProto.EXIT_NUMERICAL), st') ∧
        st'.craft = y'.craft ∧ st'.rows = y'.rows ∧ st'.aborted = true := by
  have hsmall : k < 2 ^ 32 := Nat.lt_trans hk s.nTicks_lt
  have hnumber : (o.seq.toNat : Int) = k + 1 := by
    have hlt := s.nTicks_lt
    rw [hr.number, UInt32.toNat_ofNat_of_lt' (show k + 1 < 2 ^ 32 by omega)]
    rfl
  have hlater : ¬ (k + 1 : Int) ≤ st.lastOutSeq := by
    have := h.outSeq
    omega
  have hfresh : ∀ m ∈ Runner.lastOf r'.hal, m.1.toNat < k + 1 ∧ m.2.toNat < (k + 1) * DT_US := by
    have htime : (UInt64.ofNat (k * DT_US)).toNat = k * DT_US := by
      apply UInt64.toNat_ofNat_of_lt'
      show k * 1000 < 2 ^ 64
      omega
    rintro m hm
    rw [hr.last] at hm
    cases hm
    rw [htime, UInt32.toNat_ofNat_of_lt' hsmall, DT_US]
    omega
  have hsize := length_outBytes (o.out.map s.bits)
  have hheard := heard_packed Wire.MsgType.kFwOut.code o.seq (hsize.le.trans (by decide))
  have htype : (Wire.MsgType.kFwOut.code.toNat : Int) = SilProto.MsgType.FW_OUT := rfl
  have hbye : SilProto.MsgType.FW_OUT ≠ SilProto.MsgType.BYE := by decide
  rw [htype, hnumber] at hheard
  have htick := tick_of_msg (w := s.craft) (a := s.run) (x := ⟨.data (replyMsg s o), .sent⟩) st hsmall rfl
    hheard
  generalize PlantRunner.tick _ _ _ _ _ = ticked at htick ⊢
  rw [htick]
  simp only [PlantRunner.reply, hbye, if_false, ne_eq, not_true_eq_false, measured, hlater,
    Wire.unpackOut_outBytes, h.measure, hr.out, move, h.rows]
  cases hstep : s.craft.step (ClosedLoop.measure s y).craft
    (Wire.outDict ((shown ctx t.calls).map s.bits)).mot (ClosedLoop.measure s y).vbat with
  | none =>
    refine ⟨fun y' hy => (by cases hy), fun stop hstop => ?_⟩
    cases hstop
    exact ⟨_, _, rfl, rfl, rfl, rfl, h.aborted⟩
  | some c =>
    cases hfinite : s.craft.finite c with
    | true =>
      simp only [hfinite, if_true]
      refine ⟨fun y' hy => ?_, fun stop hstop => (by cases hstop)⟩
      cases hy
      exact ⟨_, rfl, rfl, rfl, rfl, h.aborted, by simp, hr.ctx, hr.seq, hr.tick, hfresh⟩
    | false =>
      simp only [hfinite, Bool.false_eq_true, if_false]
      refine ⟨fun y' hy => (by cases hy), fun stop hstop => ?_⟩
      cases hstop
      exact ⟨_, _, rfl, rfl, rfl, rfl, h.aborted⟩

/-! ## The closed loop is a run of control ticks -/

variable (s)

/-- A log of some ticks: for each a row, with what it measured and what it showed. -/
structure Logs (es : List (ControlLoop.Tick K)) (rows : List (Row F)) : Prop where
  length : rows.length = es.length
  row : ∀ k e, es[k]? = some e → ∃ m, e.inp = ⟨reads s k m, s.fw.armTest⟩ ∧
    rows[k]? = some (rowOf k (s.run.commands k) m (Wire.outDict ((shown e.post e.out.calls).map s.bits)))

/-- The closed loop stops in a state whose log is complete. -/
def Stops (y : ClosedLoop σ F K) : Prop := run s = .inr y ∨ run s = .inl (.diverges y)

variable {s}

omit [LinearOrder K] [FloatEnv K] in
/-- A log with one more row, for one more tick that read what the row says. -/
theorem Logs.snoc {es : List (ControlLoop.Tick K)} {rows : List (Row F)} (h : Logs s es rows)
    {e : ControlLoop.Tick K} {m : Measured σ F} (hinp : e.inp = ⟨reads s es.length m, s.fw.armTest⟩) :
    Logs s (es ++ [e]) (rows ++ [rowOf es.length (s.run.commands es.length) m
      (Wire.outDict ((shown e.post e.out.calls).map s.bits))]) := by
  refine ⟨by simp [h.length], fun k e' he => ?_⟩
  rcases Nat.lt_or_ge k es.length with hk | hk
  · rw [List.getElem?_append_left hk] at he
    rw [List.getElem?_append_left (by rw [h.length]; exact hk)]
    exact h.row k e' he
  · rw [List.getElem?_append_right hk, List.getElem?_singleton] at he
    split_ifs at he with hlast
    obtain rfl : k = es.length := by omega
    cases he
    refine ⟨m, hinp, ?_⟩
    rw [List.getElem?_append_right h.length.le, h.length]
    simp

omit [Field K] [LinearOrder K] [FloatEnv K] in
/-- What the craft makes of the duties is logged either way. -/
theorem move_logged {k : Nat} {y y' : ClosedLoop σ F K} {ctx : FlightContext K} {out : SilProto.OutDict}
    (h : move s k y ctx out = .inr y' ∨ move s k y ctx out = .inl (.diverges y')) :
    y'.ctx = ctx ∧ y'.rows = y.rows ++ [rowOf k (s.run.commands k) (measure s y) out] := by
  unfold move at h
  dsimp only at h
  cases hstep : s.craft.step (measure s y).craft out.mot (measure s y).vbat with
  | none =>
    rw [hstep] at h
    rcases h with h | h
    · cases h
    · cases h
      exact ⟨rfl, rfl⟩
  | some c =>
    rw [hstep] at h
    dsimp only at h
    split_ifs at h with hfinite
    · rcases h with h | h
      · cases h
        exact ⟨rfl, rfl⟩
      · cases h
    · rcases h with h | h
      · cases h
      · cases h
        exact ⟨rfl, rfl⟩

/-- One tick of the closed loop is a control tick, and its row is logged. -/
theorem tick_logged {k : Nat} {y y' : ClosedLoop σ F K}
    (h : tick s y k = .inr y' ∨ tick s y k = .inl (.diverges y')) :
    ∃ t, ControlLoop.tickStep y.ctx ⟨reads s k (measure s y), s.fw.armTest⟩ y'.ctx t ∧
      y'.rows = y.rows ++ [rowOf k (s.run.commands k) (measure s y)
        (Wire.outDict ((shown y'.ctx t.calls).map s.bits))] := by
  unfold tick at h
  cases htick : ControlLoop.tick s.fuel y.ctx ⟨reads s k (measure s y), s.fw.armTest⟩ with
  | none =>
    rw [htick] at h
    rcases h with h | h <;> cases h
  | some p =>
    obtain ⟨ctx, t⟩ := p
    rw [htick] at h
    obtain ⟨rfl, hrows⟩ := move_logged h
    exact ⟨t, ⟨s.fuel, htick⟩, hrows⟩

/-- The ticks of the closed loop up to some tick. -/
theorem ticks_before {n : Nat} {y : ClosedLoop σ F K}
    (h : runUntil (tick s) (begin s) (List.range n) = .inr y) :
    ∃ es, Run ControlLoop.tickStep (Runner.start s.fw).ctx es y.ctx ∧ es.length = n ∧ Logs s es y.rows := by
  refine runUntil_range_invariant (P := fun n y => ∃ es, Run ControlLoop.tickStep (Runner.start s.fw).ctx es
    y.ctx ∧ es.length = n ∧ Logs s es y.rows) ⟨[], .nil _, rfl, rfl, by simp⟩ ?_ h
  rintro k y y' ⟨es, hrun, rfl, hlogs⟩ htick
  obtain ⟨t, hs, hrows⟩ := tick_logged (.inl htick)
  rw [hrows]
  exact ⟨_, .snoc hrun hs, by simp, hlogs.snoc rfl⟩

/-- **The closed loop is a run of control ticks**, and its log is the log of these ticks. -/
theorem ticks_of_stops {y : ClosedLoop σ F K} (h : Stops s y) :
    ∃ es, Run ControlLoop.tickStep (Runner.start s.fw).ctx es y.ctx ∧ es.length ≤ s.run.nTicks ∧
      Logs s es y.rows := by
  rcases h with h | h
  · obtain ⟨es, hrun, hlen, hlogs⟩ := ticks_before h
    exact ⟨es, hrun, hlen.le, hlogs⟩
  · obtain ⟨k, t, hk, hbefore, htick⟩ := runUntil_range_stop_iff.mp h
    obtain ⟨es, hrun, rfl, hlogs⟩ := ticks_before hbefore
    obtain ⟨t, hs, hrows⟩ := tick_logged (.inr htick)
    rw [hrows]
    exact ⟨_, .snoc hrun hs, by simpa using hk, hlogs.snoc rfl⟩

end ClosedLoop

end DroneMini
