import DroneMini.Flight.Ports
import DroneMini.Hal.Wire

/-!
# The lockstep HAL

`SilHal` of `hal/hal_sil.cpp`, on a connected socket. What `::recv` returns is an input of `recvState`;
an interrupted call is repeated there and is not modelled. The receive buffer holds 256 bytes and a longer
datagram is cut to it. The rest of the class is what a control tick reads (`reads`) and calls (`call`) and
what the runner adds to the reply (`setStatus`, `sendOut`).
-/

namespace DroneMini

/-- `SilHal::IoResult`: how a call that uses the socket went. -/
inductive IoResult where
  | kOk
  | kClosed
  | kProto
  | kTimeout
  deriving DecidableEq, Repr

/-- What `::recv` returns: a datagram, a timeout of the socket or another error. An empty datagram is a
closed peer. -/
inductive RecvOutcome where
  | data (bytes : List UInt8)
  | wouldBlock
  | failed

/-- The byte by which a LED mode is sent, as the enumeration numbers them. -/
def LedMode.code : LedMode → UInt8
  | .kBoot => 0
  | .kCalib => 1
  | .kArmed => 2
  | .kError => 3
  | .kFailsafe => 4

/-- `SilHal`: the sequence numbers and times of the lockstep, the last accepted state and the reply that is
being filled in. -/
structure SilHal (K : Type) where
  seq : UInt32
  lastStateSeq : UInt32
  lastStateUs : UInt64
  haveState : Bool
  state : Wire.StateRc
  out : Wire.SilOut (Flt K)

namespace SilHal

variable {K : Type}

/-- `sizeof(rx_)`: the receive buffer, to which a longer datagram is cut. -/
def rxSize : Nat := 256

/-- A newly constructed HAL: no state accepted yet, every number and the reply zero. -/
def new [Field K] : SilHal K where
  seq := 0
  lastStateSeq := 0
  lastStateUs := 0
  haveState := false
  state := .zero
  out := ⟨fun _ => 0, 0, 0, 0, 0, 0, 0, 0, 0, 0⟩

/-- `SilHal::recvInto` in a build whose `kProtoVersion` is `ver`: the header and the body of the message, or why
there is none. -/
def recvIntoAt (ver : UInt8) (o : RecvOutcome) : Except IoResult (Wire.Hdr × List UInt8) :=
  match o with
  | .wouldBlock => .error .kTimeout
  | .failed => .error .kClosed
  | .data bytes =>
    if bytes.length = 0 then .error .kClosed
    else
      match Wire.unpackMsgAt ver (bytes.take rxSize) with
      | .error _ => .error .kProto
      | .ok m => .ok m

/-- `SilHal::recvInto` of this build: the message that a receive brings, or why there is none. -/
def recvInto (o : RecvOutcome) : Except IoResult (Wire.Hdr × List UInt8) := recvIntoAt Wire.kProtoVersion o

/-- A datagram that is not empty is what `unpackMsg` makes of its first 256 bytes; every refusal of `unpackMsg` is a
protocol error here. -/
theorem recvInto_data {bytes : List UInt8} (hne : bytes ≠ []) :
    recvInto (.data bytes) = (Wire.unpackMsg (bytes.take rxSize)).mapError fun _ => .kProto := by
  unfold recvInto recvIntoAt
  dsimp only
  rw [if_neg (mt List.eq_nil_of_length_eq_zero hne), Wire.unpackMsg]
  cases Wire.unpackMsgAt Wire.kProtoVersion (bytes.take rxSize) <;> rfl

/-- A receive that brings no message reports a failure, never success. -/
theorem recvInto_ne_ok (o : RecvOutcome) : recvInto o ≠ .error .kOk := by
  unfold recvInto recvIntoAt
  cases o with
  | wouldBlock => simp
  | failed => simp
  | data bytes =>
      simp only
      split_ifs
      · simp
      · cases Wire.unpackMsgAt Wire.kProtoVersion (bytes.take rxSize) <;> simp

/-- `SilHal::recvState`: it accepts a STATE message with a later sequence number and time than the last, and
refuses any other without a trace. -/
def recvState (hal : SilHal K) (o : RecvOutcome) : IoResult × SilHal K :=
  match recvInto o with
  | .error r => (r, hal)
  | .ok (h, payload) =>
    if h.type = Wire.MsgType.kBye.code then (.kClosed, hal)
    else if h.type ≠ Wire.MsgType.kState.code ∨ h.len.toNat ≠ Wire.StateRc.size then (.kProto, hal)
    else
      let st := Wire.StateRc.ofBytes payload
      -- replay or frozen time
      if hal.haveState ∧ (h.seq ≤ hal.lastStateSeq ∨ st.imu.tUs ≤ hal.lastStateUs) then (.kProto, hal)
      else
        (.kOk, { hal with
          lastStateSeq := h.seq
          lastStateUs := st.imu.tUs
          haveState := true
          state := st })

/-- What an accepted STATE message does to the HAL: the new state counts, later than the old one, while the
reply stays as it was. -/
structure Accepts (hal hal' : SilHal K) : Prop where
  haveState : hal'.haveState = true
  lastStateUs : hal'.lastStateUs = hal'.state.imu.tUs
  seq : hal'.seq = hal.seq
  out : hal'.out = hal.out
  later : hal.haveState = true →
    hal.lastStateSeq < hal'.lastStateSeq ∧ hal.lastStateUs < hal'.lastStateUs

/-- **An accepted message is later than the last one**, and only the received state changes. -/
theorem recvState_spec {hal hal' : SilHal K} {o : RecvOutcome} (h : hal.recvState o = (.kOk, hal')) :
    Accepts hal hal' := by
  unfold recvState at h
  cases hm : recvInto o with
  | error r =>
      rw [hm] at h
      obtain rfl : r = .kOk := congrArg Prod.fst h
      exact absurd hm (recvInto_ne_ok o)
  | ok m =>
      rw [hm] at h
      simp only at h
      split_ifs at h with hbye hstate hreplay
      · cases congrArg Prod.fst h
      · cases congrArg Prod.fst h
      · cases congrArg Prod.fst h
      · obtain rfl := congrArg Prod.snd h
        refine ⟨rfl, rfl, rfl, rfl, fun hhave => ?_⟩
        rw [not_and, not_or] at hreplay
        obtain ⟨hseq, htime⟩ := hreplay hhave
        exact ⟨UInt32.not_le.mp hseq, UInt64.not_le.mp htime⟩

/-- An accepted message is a state of the right length. -/
theorem recvState_ok_message {hal hal' : SilHal K} {o : RecvOutcome}
    (h : hal.recvState o = (.kOk, hal')) : ∃ m, recvInto o = .ok m ∧
      m.1.type = Wire.MsgType.kState.code ∧ m.1.len.toNat = Wire.StateRc.size ∧
      hal'.lastStateSeq = m.1.seq ∧ hal'.state = Wire.StateRc.ofBytes m.2 := by
  unfold recvState at h
  cases hm : recvInto o with
  | error r =>
      rw [hm] at h
      obtain rfl : r = .kOk := congrArg Prod.fst h
      exact absurd hm (recvInto_ne_ok o)
  | ok m =>
      rw [hm] at h
      simp only at h
      split_ifs at h with hbye hstate hreplay
      · cases congrArg Prod.fst h
      · cases congrArg Prod.fst h
      · cases congrArg Prod.fst h
      · rw [not_or, not_not, not_not] at hstate
        obtain rfl := congrArg Prod.snd h
        exact ⟨m, rfl, hstate.1, hstate.2, rfl, rfl⟩

/-- A message that `recvState` does not accept leaves the HAL as it was. -/
theorem recvState_of_not_ok {hal hal' : SilHal K} {o : RecvOutcome} {r : IoResult}
    (h : hal.recvState o = (r, hal')) (hr : r ≠ .kOk) : hal' = hal := by
  unfold recvState at h
  cases hm : recvInto o with
  | error r' =>
      rw [hm] at h
      exact (congrArg Prod.snd h).symm
  | ok m =>
      rw [hm] at h
      simp only at h
      split_ifs at h
      · exact (congrArg Prod.snd h).symm
      · exact (congrArg Prod.snd h).symm
      · exact (congrArg Prod.snd h).symm
      · exact absurd (congrArg Prod.fst h).symm hr

/-- `SilHal::nowUs`: the time of the last accepted state. -/
def nowUs (hal : SilHal K) : UInt64 := hal.state.imu.tUs

/-- `SilHal::rcRawRead`: the raw RC bytes it copies, at most `cap` and at most 32. -/
def rcRawRead (hal : SilHal K) (cap : Nat) : List UInt8 :=
  let n := hal.state.rcLen.toNat
  let n := if cap < n then cap else n
  let n := if 32 < n then 32 else n
  (List.ofFn hal.state.rcRaw).take n

section Float
variable [Field K] [FloatEnv K]

/-- `SilHal::imuRead`: the IMU sample of the last accepted state, stamped with the time of the transport. -/
def imuRead (hal : SilHal K) : ImuSample K where
  gyroRps i := .ofBits (hal.state.imu.gyroRps i)
  accelMps2 i := .ofBits (hal.state.imu.accelMps2 i)
  magUT i := .ofBits (hal.state.imu.magUT i)
  tempC := .ofBits hal.state.imu.tempC
  tUs := hal.nowUs  -- the clock of the transport
  valid := decide (hal.state.imu.valid ≠ 0)

/-- `SilHal::vbatRead`: the voltage; it is good when it is finite. -/
def vbatRead (hal : SilHal K) : Flt K := .ofBits hal.state.vbat

/-- What a control tick reads from the HAL: the clock, the IMU, the battery and the RC bytes of the last
accepted state. -/
def reads (hal : SilHal K) : HalReads K where
  imuOk := (imuRead hal).valid
  imu := hal.imuRead
  rcRaw := some (hal.rcRawRead 64)
  rcUs := hal.nowUs
  vbatOk := (vbatRead hal).isFinite
  vbat := hal.vbatRead
  fsUs := hal.nowUs
  ledUs := hal.nowUs

end Float

/-- A call of a control tick: `SilHal::pwmWrite`, `SilHal::pwmOff` and `SilHal::ledSet`. -/
def call [Field K] (hal : SilHal K) : HalCall K → SilHal K
  | .pwmWrite cmd => { hal with out := { hal.out with mot := cmd.mot } }
  | .pwmOff => { hal with out := { hal.out with mot := fun _ => 0 } }
  | .ledSet mode => { hal with out := { hal.out with ledMode := mode.code } }

/-- `SilHal::setStatus`: the runner notes in the reply how the tick went, before it sends it. -/
def setStatus (hal : SilHal K) (armed failsafe imuValid : Bool) (est : Fin 3 → Flt K)
    (satShift : Flt K) : SilHal K :=
  { hal with
    out :=
      { hal.out with
        armed := if armed then 1 else 0
        failsafe := if failsafe then 1 else 0
        imuValid := if imuValid then 1 else 0
        rollEst := est 0
        pitchEst := est 1
        yawEst := est 2
        satShift := satShift } }

/-- `seq_++` of `SilHal::sendMsg`: every message takes the next sequence number, also one that does not go out. -/
def nextSeq (hal : SilHal K) : SilHal K × UInt32 := ({ hal with seq := hal.seq + 1 }, hal.seq)

end SilHal

end DroneMini
