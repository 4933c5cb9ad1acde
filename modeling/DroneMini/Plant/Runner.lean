import DroneMini.Hal.Codec
import DroneMini.Hal.Hello
import DroneMini.Lib.Until
import DroneMini.Plant.Rc

/-!
# The runner of the plant

`run` of `plant/runner.py` from the accepted connection to its end: the greeting (`hello`), one tick of the
loop (`tick`) and the goodbye (`run`). What the firmware does is a `FwScript`: what each `recv` and each
`sendall` meets. The rigid body, the IMU and the battery are opaque (`Craft`); the random generator of the
IMU is part of their state.

A run ends with a code or with an exception that escapes (`Ended`). `except FloatingPointError` is the
outcome `none` of `Craft.step`, and `_recv_msg` handles every `ProtocolError`. The local variables at the
end (`RunState`) hold the log, which the `finally` block closes with the flag `aborted`.
-/

namespace DroneMini

namespace SilProto

namespace MsgType

def HELLO : Int := 1
def ACK : Int := 2
def STATE : Int := 3
def FW_OUT : Int := 4
def BYE : Int := 5
def TELEM : Int := 6

end MsgType

def EXIT_CLEAN : Nat := 0
def EXIT_PROTO : Nat := 2
def EXIT_TIMEOUT : Nat := 3
def EXIT_NUMERICAL : Nat := 4

end SilProto

namespace PlantRunner

open Struct SilProto

def DT_US : Nat := 1000

/-- A message: its type, its sequence number and its body. -/
abbrev Msg := Int × Int × List UInt8

/-- An exception that leaves `run`: of `struct`, of the socket (also a timeout of a send), or a
`ValueError`. -/
inductive Escaped where
  | structError
  | osError
  | valueError (text : String)
  deriving DecidableEq, Repr

/-- How `run` ends: it returns an exit code, or an exception that it does not catch leaves it. -/
inductive Ended where
  | code (code : Nat)
  | raised (e : Escaped)
  deriving DecidableEq, Repr

/-- The errors that `_recv_msg` returns in place of a message: a timeout, a closed socket, or the text of a
violation. -/
inductive RecvErr where
  | timeout
  | closed
  | proto (text : String)

/-- `_recv_msg` in a build with some version: the message of a datagram, one of the errors that it returns, or
an exception that leaves it. -/
def recvMsgAt (version : Int) (o : RecvOutcome) : Except Escaped (Except RecvErr Msg) :=
  match o with
  | .wouldBlock => .ok (.error .timeout)
  | .failed => .error .osError
  | .data bytes =>
    let buf := bytes.take 4096
    if buf.isEmpty then .ok (.error .closed)
    else
      match unpackMsgAt version buf with
      | .error (.protocolError text) => .ok (.error (.proto text))
      | .error .structError => .error .structError
      | .ok m => .ok (.ok m)

/-- `conn.sendall` of a packed message; `none` is the error of `struct`. -/
def sendAll (msg : Option (List UInt8)) (o : SendOutcome) : Except Ended Unit :=
  match msg, o with
  | none, _ => .error (.raised .structError)
  | some _, .sent => .ok ()
  | some _, _ => .error (.raised .osError)

/-! ## The greeting -/

/-- The ACK of a plant with the constants `VERSION`, `DT_US` and `HELLO_SIZES`. -/
def ackMsgAt (version dtUs : Int) (helloSizes : List Int) : Option (List UInt8) :=
  (packHello dtUs helloSizes).bind (packMsgAt version MsgType.ACK 0)

/-- The greeting in `run`, of a plant with the constants `VERSION`, `DT_US` and `HELLO_SIZES`: the ACK it sends,
and whether the run goes on. -/
def helloAt (version dtUs : Int) (helloSizes : List Int) (r : RecvOutcome) (s : SendOutcome) :
    Option (List UInt8) × Except Ended Unit :=
  let ack := ackMsgAt version dtUs helloSizes
  match recvMsgAt version r with
  | .error e => (none, .error (.raised e))
  | .ok (.error _) => (none, .error (.code EXIT_PROTO))
  | .ok (.ok (typ, _, body)) =>
    if typ ≠ MsgType.HELLO then (none, .error (.code EXIT_PROTO))
    else
      match unpackHello body with
      | none => (none, .error (.raised .structError))
      | some (dt, sizes) =>
        if dt ≠ .int dtUs ∨ sizes ≠ helloSizes.map .int then
          match sendAll ack s with
          | .error e => (ack, .error e)
          | .ok () => (ack, .error (.code EXIT_PROTO))
        else (ack, sendAll ack s)

/-- The greeting in `run`, of a plant of some build. -/
def hello (b : Build) (r : RecvOutcome) (s : SendOutcome) : Option (List UInt8) × Except Ended Unit :=
  helloAt b.ver.toNat b.dtUs.toNat (sizeValues (Wire.fillHello b)) r s

/-! ## The loop -/

/-- What `run` uses of the rigid body, the IMU and the battery, with states `σ` and floats `F`. -/
structure Craft (σ F : Type) where
  /-- `plant.sense` and `icm.sample`: the rates and the accelerations. -/
  sense : σ → ((Fin 3 → F) × (Fin 3 → F)) × σ
  /-- `batt.step` on the sum of the duties: the voltage. -/
  battery : σ → List Value → F × σ
  /-- `plant.step`; `none` is a `FloatingPointError`. -/
  step : σ → List Value → F → Option σ
  finite : σ → Bool
  /-- What `struct` packs of a float. -/
  bits : F → UInt32

/-- The arguments of `run` that reach the loop: the number of ticks, the time from which the IMU is marked
invalid, and the scenario. -/
structure RunArgs where
  nTicks : Nat
  imuInvalidAfter : ℚ
  /-- `_frame` of the scenario: the channels and the flags. -/
  frame : Nat → Option (List Nat × Nat)

/-- A row of the log, with what the plant measured and what the firmware replied in that tick. -/
structure Row (F : Type) where
  tUs : Nat
  rollCmd : ℚ
  pitchCmd : ℚ
  yawCmd : ℚ
  thrCmd : ℚ
  gyro : Fin 3 → F
  acc : Fin 3 → F
  vbat : F
  /-- The columns that are copied from the message. -/
  out : OutDict

/-- The local variables of `run`, the log and what happened: the messages the loop received and how often
it stepped the plant. -/
structure RunState (σ F : Type) where
  craft : σ
  duty : List Value
  lastOutSeq : Int
  aborted : Bool
  rows : List (Row F)
  got : List Msg
  steps : Nat

/-- How the loop is left: by `break`, or because `run` ends there with an exit code or an exception. -/
inductive Left where
  | brk
  | ended (e : Ended)
  deriving DecidableEq, Repr

variable {σ F : Type}

/-- `RcScenario.raw` of a tick: the bytes of the frame, none where the scenario sends no frame. -/
def RunArgs.raw (a : RunArgs) (tick : Nat) : List UInt8 :=
  match a.frame tick with
  | none => []
  | some (ch, flags) => sbusEncode ch flags

/-- The channels that the log shows for the RC bytes of a tick, decoded from the frame. -/
def channels (raw : List UInt8) : Except String (List Nat) :=
  if raw.isEmpty then .ok (List.replicate 16 992) else (sbusDecode raw).map fun d => d.1

/-- The STATE message of a tick, as `pack_msg` writes it from what the plant measured. -/
def stateMsg (a : RunArgs) (tick : Nat) (gyro accel : Fin 3 → UInt32) (vbat : UInt32) :
    Option (List UInt8) :=
  let tUs := tick * DT_US
  let valid := !decide (0 < a.imuInvalidAfter ∧ a.imuInvalidAfter * 1000000 ≤ tUs)
  (packState tUs gyro accel (fun _ => 0) 0x41C80000 valid vbat 0 (a.raw tick)).bind
    (packMsg MsgType.STATE tick)

/-- What a tick measures before it sends the STATE message: the craft after the draws, the rates, the
accelerations and the voltage. -/
structure Measured (σ F : Type) where
  gyro : Fin 3 → F
  accel : Fin 3 → F
  vbat : F
  craft : σ

def measure (w : Craft σ F) (st : RunState σ F) : Measured σ F :=
  let ((gyro, accel), c) := w.sense st.craft
  let (vbat, c) := w.battery c st.duty
  ⟨gyro, accel, vbat, c⟩

/-- The row of a tick: what it measured and the reply that came back. -/
def rowOf (tick : Nat) (ch : List Nat) (m : Measured σ F) (out : OutDict) : Row F where
  tUs := tick * DT_US
  rollCmd := sbusToStick (ch.getD 0 0)
  pitchCmd := sbusToStick (ch.getD 1 0)
  yawCmd := sbusToStick (ch.getD 3 0)
  thrCmd := sbusToThrottle (ch.getD 2 0)
  gyro := m.gyro
  acc := m.accel
  vbat := m.vbat
  out := out

/-- The rest of a tick, from the received message on. -/
def reply (w : Craft σ F) (tick : Nat) (ch : List Nat) (m : Measured σ F) (st : RunState σ F) (msg : Msg) :
    (Left × RunState σ F) ⊕ RunState σ F :=
  let (typ, seq, body) := msg
  let st := { st with got := st.got ++ [msg] }
  if typ = MsgType.BYE then .inl (.brk, { st with aborted := false })
  else if typ ≠ MsgType.FW_OUT then .inl (.ended (.code EXIT_PROTO), st)
  else if seq ≤ st.lastOutSeq then .inl (.ended (.code EXIT_PROTO), st)
  else
    let st := { st with lastOutSeq := seq }
    match unpackOut body with
    | none => .inl (.ended (.raised .structError), st)
    | some out =>
      let st :=
        { st with
          duty := out.mot
          rows := st.rows ++ [rowOf tick ch m out]
          steps := st.steps + 1 }
      match w.step st.craft out.mot m.vbat with
      | none => .inl (.ended (.code EXIT_NUMERICAL), st)
      | some c =>
        if w.finite c then .inr { st with craft := c }
        else .inl (.ended (.code EXIT_NUMERICAL), { st with craft := c })

/-- One tick of the loop: the state for the next tick, or how the loop is left. -/
def tick (w : Craft σ F) (a : RunArgs) (x : Exchange) (tick : Nat) (st : RunState σ F) :
    (Left × RunState σ F) ⊕ RunState σ F :=
  let m := measure w st
  let st := { st with craft := m.craft }
  match channels (a.raw tick) with
  | .error text => .inl (.ended (.raised (.valueError text)), st)
  | .ok ch =>
    match sendAll (stateMsg a tick (w.bits ∘ m.gyro) (w.bits ∘ m.accel) (w.bits m.vbat)) x.send with
    | .error e => .inl (.ended e, st)
    | .ok () =>
      match recvMsgAt VERSION x.recv with
      | .error e => .inl (.ended (.raised e), st)
      | .ok (.error .timeout) => .inl (.ended (.code EXIT_TIMEOUT), st)
      | .ok (.error (.proto _)) => .inl (.ended (.code EXIT_PROTO), st)
      | .ok (.error .closed) =>
        if (a.nTicks : Int) - 1 ≤ tick then .inl (.brk, st) else .inl (.ended (.code EXIT_PROTO), st)
      | .ok (.ok msg) => reply w tick ch m st msg

/-! ## The run -/

/-- What the firmware does in a run: the HELLO, whether the ACK goes out, the ticks, and whether the BYE
goes out. -/
structure FwScript where
  hello : RecvOutcome
  ack : SendOutcome
  turns : Nat → Exchange
  bye : SendOutcome

/-- The local variables of `run` before the loop: four duties of zero, an empty log, and `aborted` still
true. -/
def begin (c : σ) : RunState σ F where
  craft := c
  duty := List.replicate 4 (.float 0)
  lastOutSeq := -1
  aborted := true
  rows := []
  got := []
  steps := 0

/-- The loop of `run`, through the ticks in order: it is left in one of them or comes to its end. -/
def loop (w : Craft σ F) (a : RunArgs) (turns : Nat → Exchange) (st : RunState σ F) (n : Nat) :
    (Left × RunState σ F) ⊕ RunState σ F :=
  runUntil (fun st k => tick w a (turns k) k st) st (List.range n)

/-- What follows the loop: `aborted` is cleared and the BYE goes out, unless the sending raises. -/
def finish (bye : SendOutcome) (st : RunState σ F) : Ended × RunState σ F :=
  let st := { st with aborted := false }
  match sendAll (packMsg MsgType.BYE 0 []) bye with
  | .error e => (e, st)
  | .ok () => (.code EXIT_CLEAN, st)

/-- `run`: how it ends, and its local variables if it came to the log. -/
def run (w : Craft σ F) (a : RunArgs) (s : FwScript) (c : σ) : Ended × Option (RunState σ F) :=
  match (helloAt VERSION DT_US HELLO_SIZES s.hello s.ack).2 with
  | .error e => (e, none)
  | .ok () =>
    match loop w a s.turns (begin c) a.nTicks with
    | .inl (.ended e, st) => (e, some st)
    | .inl (.brk, st) | .inr st => (finish s.bye st).map id some

/-- The constants of the plant are those of the firmware's build, the sizes that `struct.calcsize` finds included. -/
theorem plant_build : VERSION = (Wire.build.ver.toNat : Int) ∧ (DT_US : Int) = Wire.build.dtUs.toNat ∧
    HELLO_SIZES = sizeValues (Wire.fillHello Wire.build) := by decide

/-- The plant of `run` greets as a plant in the firmware's build does. -/
theorem helloAt_own (r : RecvOutcome) (s : SendOutcome) :
    helloAt VERSION DT_US HELLO_SIZES r s = hello Wire.build r s := by
  obtain ⟨hver, hdt, hsizes⟩ := plant_build
  rw [hello, ← hver, ← hdt, ← hsizes]

/-- `run` whose greeting is that of the firmware's build: the greeting first, then the loop, then what follows
it. -/
theorem run_eq (w : Craft σ F) (a : RunArgs) (s : FwScript) (c : σ) : run w a s c =
    match (hello Wire.build s.hello s.ack).2 with
    | .error e => (e, none)
    | .ok () =>
      match loop w a s.turns (begin c) a.nTicks with
      | .inl (.ended e, st) => (e, some st)
      | .inl (.brk, st) | .inr st => (finish s.bye st).map id some := by
  rw [run, helloAt_own]

/-- The ACK of a build is the message with its greeting. -/
theorem ackMsgAt_eq (b : Build) : ackMsgAt b.ver.toNat b.dtUs.toNat (sizeValues (Wire.fillHello b))
    = some (SilHal.helloMsg b .kAck 0) := by
  have hlen : (Wire.fillHello b).bytes.length ≤ 65535 := by
    rw [Wire.SilHello.length_bytes]
    decide
  have hpack : packHello b.dtUs.toNat (sizeValues (Wire.fillHello b)) = some (Wire.fillHello b).bytes :=
    packHello_eq (Wire.fillHello b)
  have htyp : MsgType.ACK = ((2 : UInt8).toNat : Int) := rfl
  have hseq : (0 : Int) = ((0 : UInt32).toNat : Int) := rfl
  rw [ackMsgAt, hpack, Option.bind_some, htyp, hseq, SilProto.packMsgAt_eq b.ver 2 0 hlen, SilHal.helloMsg]
  rfl

/-- A packed message goes out, or the sending raises an `OSError`; it is never the packing that fails. -/
theorem sendAll_some (msg : List UInt8) (o : SendOutcome) :
    sendAll (some msg) o = if o = .sent then .ok () else .error (.raised .osError) := by
  cases o <;> rfl

/-- The goodbye goes out and the run returns `EXIT_CLEAN`, or the sending raises; either way `aborted` is
already cleared. -/
theorem finish_eq (bye : SendOutcome) (st : RunState σ F) : finish bye st =
    (if bye = .sent then .code EXIT_CLEAN else .raised .osError, { st with aborted := false }) := by
  have htyp : MsgType.BYE = ((5 : UInt8).toNat : Int) := rfl
  have hseq : (0 : Int) = ((0 : UInt32).toNat : Int) := rfl
  have hlen : ([] : List UInt8).length ≤ 65535 := Nat.zero_le _
  have hsend : sendAll (packMsg MsgType.BYE 0 []) bye
      = if bye = .sent then .ok () else .error (.raised .osError) := by
    rw [htyp, hseq, SilProto.packMsg_eq 5 0 hlen, sendAll_some]
  unfold finish
  generalize sendAll _ _ = sent at hsend ⊢
  rw [hsend]
  cases bye <;> rfl

/-! ## What a receive brings -/

/-- What a receive brings: nothing in time, an error of the socket, the end of the stream, bytes that are no
message, or a message. -/
inductive Heard where
  | silence
  | reset
  | closed
  | garbled
  | msg (m : Msg)

def heard (o : RecvOutcome) : Heard :=
  match o with
  | .wouldBlock => .silence
  | .failed => .reset
  | .data [] => .closed
  | .data (b :: bs) =>
    match unpackMsg ((b :: bs).take 4096) with
    | .error _ => .garbled
    | .ok m => .msg m

/-- What `_recv_msg` makes of it; a message that is none comes with a text. -/
def Heard.result (text : String) : Heard → Except Escaped (Except RecvErr Msg)
  | .silence => .ok (.error .timeout)
  | .reset => .error .osError
  | .closed => .ok (.error .closed)
  | .garbled => .ok (.error (.proto text))
  | .msg m => .ok (.ok m)

/-- `unpack_msg` raises `ProtocolError` only: the lengths are checked before `struct` is asked. -/
theorem unpackMsgAt_ne_structError (version : Int) (buf : List UInt8) :
    unpackMsgAt version buf ≠ .error .structError := by
  unfold unpackMsgAt
  by_cases hlong : HDR_SIZE ≤ buf.length
  · rw [if_neg (Nat.not_lt.mpr hlong), unpack_hdr hlong]
    simp only [pack_hdr_zero hlong]
    split_ifs <;> simp
  · rw [if_pos (Nat.lt_of_not_le hlong)]
    simp

/-- `_recv_msg` returns what the receive brings, as `heard` sums it up. -/
theorem recvMsgAt_heard (o : RecvOutcome) : ∃ text, recvMsgAt VERSION o = (heard o).result text := by
  cases o with
  | wouldBlock => exact ⟨"", rfl⟩
  | failed => exact ⟨"", rfl⟩
  | data bytes =>
    cases bytes with
    | nil => exact ⟨"", rfl⟩
    | cons b bs =>
      have hne := unpackMsgAt_ne_structError VERSION ((b :: bs).take 4096)
      have hcons : ((b :: bs).take 4096).isEmpty = false := rfl
      simp only [recvMsgAt, hcons, Bool.false_eq_true, if_false, heard, unpackMsg]
      cases hm : unpackMsgAt VERSION ((b :: bs).take 4096) with
      | ok m => exact ⟨"", rfl⟩
      | error e =>
        cases e with
        | protocolError text => exact ⟨text, rfl⟩
        | structError => exact absurd hm hne

/-- A packed message is received as it was sent, with its type, sequence number and payload. -/
theorem heard_packed (type : UInt8) (seq : UInt32) {payload : List UInt8} (hlen : payload.length ≤ 4000) :
    heard (.data (Wire.packed type seq payload)) = .msg (type.toNat, seq.toNat, payload) := by
  have hsize : (Wire.packed type seq payload).length = Wire.Hdr.size + payload.length :=
    Wire.length_packedAt Wire.kProtoVersion type seq payload
  have htake : (Wire.packed type seq payload).take 4096 = Wire.packed type seq payload := by
    apply List.take_of_length_le
    rw [hsize, Wire.Hdr.size]
    omega
  have hlen' : payload.length ≤ 65535 := by omega
  obtain ⟨-, -, htype, -, hseq, -⟩ := Wire.packedAt_fields Wire.kProtoVersion type seq hlen'
  have hbody := Wire.body_packedAt Wire.kProtoVersion type seq hlen'
  have hok : unpackMsg (Wire.packed type seq payload) = .ok _ := SilProto.unpackMsg_ok_iff.mpr
    ⟨Wire.framedAt_packedAt Wire.kProtoVersion type seq hlen', rfl, rfl, rfl⟩
  rw [htype, hseq, hbody] at hok
  cases hp : Wire.packed type seq payload with
  | nil =>
    rw [hp, List.length_nil, Wire.Hdr.size] at hsize
    omega
  | cons b bs =>
    rw [hp] at htake hok
    simp only [heard, htake, hok]

/-! ## What a tick does -/

/-- The RC bytes that the scenario sends can always be decoded into channels for the log. -/
theorem channels_raw (a : RunArgs) (tick : Nat) : ∃ ch, channels (a.raw tick) = .ok ch := by
  unfold channels RunArgs.raw
  cases a.frame tick with
  | none => exact ⟨_, rfl⟩
  | some f =>
    have hempty : (sbusEncode f.1 f.2).isEmpty = false := rfl
    have hheader : (sbusEncode f.1 f.2).getD 0 0 = 0x0F := rfl
    simp only [hempty, Bool.false_eq_true, if_false, sbusDecode, length_sbusEncode, hheader, ne_eq,
      not_true_eq_false]
    exact ⟨_, rfl⟩

/-- A message carries its sequence number in 32 bits, and a larger one makes the packing fail. -/
theorem packMsg_of_large (typ : Int) {seq : Nat} (body : List UInt8) (h : 2 ^ 32 ≤ seq) :
    packMsg typ seq body = none := by
  have hseq : Code.u32.pack (.int (seq : Nat)) = none := by
    rw [Code.pack, packUnsigned, if_neg]
    omega
  simp [packMsg, packMsgAt, pack, HDR_FMT, hseq]

/-- The STATE message is packed while the tick is a sequence number. -/
theorem stateMsg_eq_some (a : RunArgs) {tick : Nat} (gyro accel : Fin 3 → UInt32) (vbat : UInt32)
    (h : tick < 2 ^ 32) : ∃ msg, stateMsg a tick gyro accel vbat = some msg := by
  have hraw : (a.raw tick).length ≤ 255 := by
    unfold RunArgs.raw
    cases a.frame tick with
    | none => decide
    | some f => exact (length_sbusEncode f.1 f.2).le.trans (by decide)
  have htime : (UInt64.ofNat (tick * DT_US)).toNat = tick * DT_US := by
    apply UInt64.toNat_ofNat_of_lt'
    show tick * 1000 < 2 ^ 64
    omega
  have hseq : (UInt32.ofNat tick).toNat = tick := UInt32.toNat_ofNat_of_lt' h
  unfold stateMsg
  have hstate := Wire.packState_eq (.ofNat (tick * DT_US)) gyro accel (fun _ => 0) 0x41C80000
    (!decide (0 < a.imuInvalidAfter ∧ a.imuInvalidAfter * 1000000 ≤ (tick * DT_US : Nat))) vbat 0 hraw
  have hlen := length_pack hstate
  have hmsg := SilProto.packMsg_eq 3 (.ofNat tick) (hlen.le.trans (by decide))
  rw [htime] at hstate
  rw [hseq] at hmsg
  exact ⟨_, Option.bind_eq_some_iff.mpr ⟨_, hstate, hmsg⟩⟩

/-- A tick from 2^32 on has no STATE message, since its number does not fit into the header. -/
theorem stateMsg_of_large (a : RunArgs) {tick : Nat} (gyro accel : Fin 3 → UInt32) (vbat : UInt32)
    (h : 2 ^ 32 ≤ tick) : stateMsg a tick gyro accel vbat = none := by
  unfold stateMsg
  exact Option.bind_eq_none_iff.mpr fun body _ => packMsg_of_large _ body h

/-- A reply is unpacked when it has the size of one. -/
theorem unpackOut_eq_none_iff {body : List UInt8} :
    unpackOut body = none ↔ body.length ≠ calcsize FW_OUT_FMT := by
  rw [← unpack_eq_none_iff, unpackOut, unpack]
  split_ifs <;> simp [items, FW_OUT_FMT]

/-- What `run` unpacks of a HELLO that has the size of one. -/
theorem unpackHello_eq_none_iff {body : List UInt8} :
    unpackHello body = none ↔ body.length ≠ calcsize HELLO_FMT := by
  rw [← unpack_eq_none_iff, unpackHello, unpack]
  split_ifs <;> simp [items, HELLO_FMT, List.replicate]

/-- The local variables of `run` once a tick has measured and before it sends. -/
def measured (w : Craft σ F) (st : RunState σ F) : RunState σ F :=
  { st with craft := (measure w st).craft }

/-- A tick whose STATE message is not packed or not sent ends with an exception. -/
theorem tick_of_unsent {w : Craft σ F} {a : RunArgs} {x : Exchange} {k : Nat} {st : RunState σ F}
    (h : ¬ (k < 2 ^ 32 ∧ x.send = .sent)) :
    ∃ e, tick w a x k st = .inl (.ended (.raised e), measured w st) := by
  obtain ⟨ch, hch⟩ := channels_raw a k
  obtain ⟨e, he⟩ : ∃ e, sendAll (stateMsg a k (w.bits ∘ (measure w st).gyro)
      (w.bits ∘ (measure w st).accel) (w.bits (measure w st).vbat)) x.send = .error (.raised e) := by
    by_cases hk : k < 2 ^ 32
    · obtain ⟨msg, hmsg⟩ := stateMsg_eq_some a (w.bits ∘ (measure w st).gyro)
        (w.bits ∘ (measure w st).accel) (w.bits (measure w st).vbat) hk
      have hsend : x.send ≠ .sent := fun hsend => h ⟨hk, hsend⟩
      rw [hmsg, sendAll.eq_3 _ _ hsend]
      exact ⟨_, rfl⟩
    · rw [stateMsg_of_large a _ _ _ (Nat.not_lt.mp hk), sendAll]
      exact ⟨_, rfl⟩
  refine ⟨e, ?_⟩
  unfold tick
  dsimp only
  generalize channels (a.raw k) = channels' at hch ⊢
  generalize sendAll _ _ = sent at he ⊢
  rw [hch, he]
  rfl

/-- What a tick does once its STATE message is sent, by the channels of its frame. -/
theorem tick_of_channels {w : Craft σ F} {a : RunArgs} {x : Exchange} {k : Nat} {ch : List Nat}
    (st : RunState σ F) (hch : channels (a.raw k) = .ok ch) (hk : k < 2 ^ 32) (hsent : x.send = .sent) :
    tick w a x k st =
      match heard x.recv with
      | .silence => .inl (.ended (.code EXIT_TIMEOUT), measured w st)
      | .reset => .inl (.ended (.raised .osError), measured w st)
      | .closed =>
        if (a.nTicks : Int) - 1 ≤ k then .inl (.brk, measured w st)
        else .inl (.ended (.code EXIT_PROTO), measured w st)
      | .garbled => .inl (.ended (.code EXIT_PROTO), measured w st)
      | .msg m => reply w k ch (measure w st) (measured w st) m := by
  obtain ⟨msg, hmsg⟩ := stateMsg_eq_some a (w.bits ∘ (measure w st).gyro) (w.bits ∘ (measure w st).accel)
    (w.bits (measure w st).vbat) hk
  have hsend : sendAll (stateMsg a k (w.bits ∘ (measure w st).gyro) (w.bits ∘ (measure w st).accel)
      (w.bits (measure w st).vbat)) x.send = .ok () := by
    rw [hmsg, hsent]
    rfl
  obtain ⟨text, hrecv⟩ := recvMsgAt_heard x.recv
  unfold tick
  dsimp only
  -- generalized: nothing may look into the packed message
  generalize channels (a.raw k) = channels' at hch ⊢
  generalize sendAll _ _ = sent at hsend ⊢
  rw [hch, hsend, hrecv]
  cases heard x.recv <;> rfl

/-- **What a tick does once its STATE message is sent.** -/
theorem tick_of_sent {w : Craft σ F} {a : RunArgs} {x : Exchange} {k : Nat} (st : RunState σ F)
    (hk : k < 2 ^ 32) (hsent : x.send = .sent) :
    ∃ ch, tick w a x k st =
      match heard x.recv with
      | .silence => .inl (.ended (.code EXIT_TIMEOUT), measured w st)
      | .reset => .inl (.ended (.raised .osError), measured w st)
      | .closed =>
        if (a.nTicks : Int) - 1 ≤ k then .inl (.brk, measured w st)
        else .inl (.ended (.code EXIT_PROTO), measured w st)
      | .garbled => .inl (.ended (.code EXIT_PROTO), measured w st)
      | .msg m => reply w k ch (measure w st) (measured w st) m := by
  obtain ⟨ch, hch⟩ := channels_raw a k
  exact ⟨ch, tick_of_channels st hch hk hsent⟩

/-- The plant leaves the finite numbers on a reply, either while it steps or after the step. -/
def diverges (w : Craft σ F) (m : Measured σ F) (body : List UInt8) : Bool :=
  match unpackOut body with
  | none => false
  | some out =>
    match w.step m.craft out.mot m.vbat with
    | none => true
    | some c => !w.finite c

/-- What a tick that goes on has done: it sent its STATE, took a FW_OUT with a later number than the last,
logged a row and stepped the plant. -/
structure GoesOn (w : Craft σ F) (x : Exchange) (k : Nat) (st st' : RunState σ F) (seq : Int)
    (body : List UInt8) (row : Row F) : Prop where
  small : k < 2 ^ 32
  sent : x.send = .sent
  heard : heard x.recv = .msg (MsgType.FW_OUT, seq, body)
  later : st.lastOutSeq < seq
  size : body.length = calcsize FW_OUT_FMT
  finite : diverges w (measure w st) body = false
  tUs : row.tUs = k * DT_US
  state : st'.lastOutSeq = seq ∧ st'.aborted = st.aborted ∧ st'.rows = st.rows ++ [row] ∧
    st'.got = st.got ++ [(MsgType.FW_OUT, seq, body)] ∧ st'.steps = st.steps + 1

/-- A BYE from the firmware clears `aborted` and ends the loop by `break`, with the log as it is. -/
theorem reply_of_bye (w : Craft σ F) (k : Nat) (ch : List Nat) (m : Measured σ F) (st : RunState σ F)
    (seq : Int) (body : List UInt8) : reply w k ch m st (MsgType.BYE, seq, body)
      = .inl (.brk, { st with got := st.got ++ [(MsgType.BYE, seq, body)], aborted := false }) := by
  rw [reply]
  exact if_pos rfl

/-- A message of another type, or a reply that is not later, is a violation. -/
theorem reply_of_wrong (w : Craft σ F) (k : Nat) (ch : List Nat) (m : Measured σ F) (st : RunState σ F)
    {typ seq : Int} (body : List UInt8) (hbye : typ ≠ MsgType.BYE)
    (hout : ¬ (typ = MsgType.FW_OUT ∧ st.lastOutSeq < seq)) : reply w k ch m st (typ, seq, body)
      = .inl (.ended (.code EXIT_PROTO), { st with got := st.got ++ [(typ, seq, body)] }) := by
  rw [reply]
  refine (if_neg hbye).trans ?_
  by_cases htyp : typ = MsgType.FW_OUT
  · exact (if_neg (not_not.mpr htyp)).trans (if_pos (Int.not_lt.mp fun hlater => hout ⟨htyp, hlater⟩))
  · exact if_pos htyp

/-- A reply that is later: it has the wrong size, or the plant leaves the finite numbers, or the loop goes
on. -/
theorem reply_of_out (w : Craft σ F) (k : Nat) (ch : List Nat) {m : Measured σ F} {st : RunState σ F}
    {seq : Int} (body : List UInt8) (hcraft : st.craft = m.craft) (hlater : st.lastOutSeq < seq) :
    (body.length ≠ calcsize FW_OUT_FMT → ∃ st',
      reply w k ch m st (MsgType.FW_OUT, seq, body) = .inl (.ended (.raised .structError), st') ∧
        st'.aborted = st.aborted) ∧
    (body.length = calcsize FW_OUT_FMT → diverges w m body = true → ∃ st',
      reply w k ch m st (MsgType.FW_OUT, seq, body) = .inl (.ended (.code EXIT_NUMERICAL), st') ∧
        st'.aborted = st.aborted) ∧
    (body.length = calcsize FW_OUT_FMT → diverges w m body = false → ∃ st' row,
      reply w k ch m st (MsgType.FW_OUT, seq, body) = .inr st' ∧ row.tUs = k * DT_US ∧
        st'.lastOutSeq = seq ∧ st'.aborted = st.aborted ∧ st'.rows = st.rows ++ [row] ∧
        st'.got = st.got ++ [(MsgType.FW_OUT, seq, body)] ∧ st'.steps = st.steps + 1) := by
  have hbye : MsgType.FW_OUT ≠ MsgType.BYE := by decide
  unfold reply diverges
  simp only [hbye, if_false, ne_eq, not_true_eq_false, Int.not_le.mpr hlater, hcraft]
  cases hout : unpackOut body with
  | none => exact ⟨fun _ => ⟨_, rfl, rfl⟩, fun h => absurd h (unpackOut_eq_none_iff.mp hout),
      fun h => absurd h (unpackOut_eq_none_iff.mp hout)⟩
  | some out =>
    have hsize : body.length = calcsize FW_OUT_FMT := by
      by_contra h
      rw [unpackOut_eq_none_iff.mpr h] at hout
      cases hout
    refine ⟨fun h => absurd hsize h, fun _ hdiv => ?_, fun _ hdiv => ?_⟩
    · dsimp only at hdiv ⊢
      cases hstep : w.step m.craft out.mot m.vbat with
      | none => exact ⟨_, rfl, rfl⟩
      | some c =>
        simp only [hstep, Bool.not_eq_true'] at hdiv
        simp only [hdiv, Bool.false_eq_true, if_false]
        exact ⟨_, rfl, rfl⟩
    · dsimp only at hdiv ⊢
      cases hstep : w.step m.craft out.mot m.vbat with
      | none => simp [hstep] at hdiv
      | some c =>
        simp only [hstep, Bool.not_eq_false'] at hdiv
        simp only [hdiv, if_true]
        exact ⟨_, rowOf k ch m out, rfl, rfl, rfl, rfl, rfl, rfl, rfl⟩

/-- Why a tick leaves the loop, and how: one constructor for each `break`, `return` or exception in its
body. -/
inductive Stops (w : Craft σ F) (a : RunArgs) (x : Exchange) (k : Nat) (st : RunState σ F) : Left → Prop
  | unsent (e : Escaped) (h : ¬ (k < 2 ^ 32 ∧ x.send = .sent)) : Stops w a x k st (.ended (.raised e))
  | silence (hsent : k < 2 ^ 32 ∧ x.send = .sent) (h : heard x.recv = .silence) :
      Stops w a x k st (.ended (.code EXIT_TIMEOUT))
  | reset (hsent : k < 2 ^ 32 ∧ x.send = .sent) (h : heard x.recv = .reset) :
      Stops w a x k st (.ended (.raised .osError))
  | closedLast (hsent : k < 2 ^ 32 ∧ x.send = .sent) (h : heard x.recv = .closed)
      (hlast : a.nTicks ≤ k + 1) : Stops w a x k st .brk
  | closedEarly (hsent : k < 2 ^ 32 ∧ x.send = .sent) (h : heard x.recv = .closed)
      (hlast : ¬ a.nTicks ≤ k + 1) : Stops w a x k st (.ended (.code EXIT_PROTO))
  | garbled (hsent : k < 2 ^ 32 ∧ x.send = .sent) (h : heard x.recv = .garbled) :
      Stops w a x k st (.ended (.code EXIT_PROTO))
  | bye (seq : Int) (body : List UInt8) (hsent : k < 2 ^ 32 ∧ x.send = .sent)
      (h : heard x.recv = .msg (MsgType.BYE, seq, body)) : Stops w a x k st .brk
  | wrong (typ seq : Int) (body : List UInt8) (hsent : k < 2 ^ 32 ∧ x.send = .sent)
      (h : heard x.recv = .msg (typ, seq, body)) (hbye : typ ≠ MsgType.BYE)
      (hout : ¬ (typ = MsgType.FW_OUT ∧ st.lastOutSeq < seq)) :
      Stops w a x k st (.ended (.code EXIT_PROTO))
  | size (seq : Int) (body : List UInt8) (hsent : k < 2 ^ 32 ∧ x.send = .sent)
      (h : heard x.recv = .msg (MsgType.FW_OUT, seq, body)) (hlater : st.lastOutSeq < seq)
      (hsize : body.length ≠ calcsize FW_OUT_FMT) : Stops w a x k st (.ended (.raised .structError))
  | diverges (seq : Int) (body : List UInt8) (hsent : k < 2 ^ 32 ∧ x.send = .sent)
      (h : heard x.recv = .msg (MsgType.FW_OUT, seq, body)) (hlater : st.lastOutSeq < seq)
      (hsize : body.length = calcsize FW_OUT_FMT) (hdiv : diverges w (measure w st) body = true) :
      Stops w a x k st (.ended (.code EXIT_NUMERICAL))

/-- What a tick that leaves the loop does to the history: a `break` receives no reply, adds no row and steps
nothing, and only a `break` touches the flag of the log. -/
structure Leaves (st st' : RunState σ F) (l : Left) : Prop where
  brk : l = .brk → ∃ ms : List Msg, (∀ m ∈ ms, m.1 ≠ MsgType.FW_OUT) ∧ st'.got = st.got ++ ms ∧
    st'.rows = st.rows ∧ st'.steps = st.steps
  aborted : l ≠ .brk → st'.aborted = st.aborted

theorem Leaves.of_ended {st st' : RunState σ F} {e : Ended} (h : st'.aborted = st.aborted) :
    Leaves st st' (.ended e) :=
  ⟨fun hl => (by cases hl), fun _ => h⟩

theorem Leaves.of_brk {st st' : RunState σ F} {ms : List Msg} (hms : ∀ m ∈ ms, m.1 ≠ MsgType.FW_OUT)
    (hgot : st'.got = st.got ++ ms) (hrows : st'.rows = st.rows) (hsteps : st'.steps = st.steps) :
    Leaves st st' .brk :=
  ⟨fun _ => ⟨ms, hms, hgot, hrows, hsteps⟩, fun hl => absurd rfl hl⟩

/-- **A tick goes on with a reply received and logged, or leaves the loop for one reason.** -/
theorem tick_cases (w : Craft σ F) (a : RunArgs) (x : Exchange) (k : Nat) (st : RunState σ F) :
    (∃ st' seq body row, tick w a x k st = .inr st' ∧ GoesOn w x k st st' seq body row) ∨
      ∃ l st', tick w a x k st = .inl (l, st') ∧ Stops w a x k st l ∧ Leaves st st' l := by
  by_cases hsend : k < 2 ^ 32 ∧ x.send = .sent
  swap
  · obtain ⟨e, he⟩ := tick_of_unsent (w := w) (a := a) (k := k) hsend
    exact .inr ⟨_, _, he, .unsent e hsend, .of_ended rfl⟩
  obtain ⟨ch, htick⟩ := tick_of_sent (w := w) (a := a) st hsend.1 hsend.2
  rw [htick]
  cases hh : heard x.recv with
  | silence => exact .inr ⟨_, _, rfl, .silence hsend hh, .of_ended rfl⟩
  | reset => exact .inr ⟨_, _, rfl, .reset hsend hh, .of_ended rfl⟩
  | garbled => exact .inr ⟨_, _, rfl, .garbled hsend hh, .of_ended rfl⟩
  | closed =>
    have hlast : (a.nTicks : Int) - 1 ≤ k ↔ a.nTicks ≤ k + 1 := by omega
    dsimp only
    split_ifs with hint
    · exact .inr ⟨_, _, rfl, .closedLast hsend hh (hlast.mp hint),
        @Leaves.of_brk _ _ st _ [] (by simp) (List.append_nil _).symm rfl rfl⟩
    · exact .inr ⟨_, _, rfl, .closedEarly hsend hh (fun h => hint (hlast.mpr h)), .of_ended rfl⟩
  | msg m =>
    obtain ⟨typ, seq, body⟩ := m
    dsimp only
    by_cases hbye : typ = MsgType.BYE
    · rw [hbye] at hh ⊢
      rw [reply_of_bye]
      exact .inr ⟨_, _, rfl, .bye seq body hsend hh,
        .of_brk (by simp [MsgType.BYE, MsgType.FW_OUT]) rfl rfl rfl⟩
    by_cases hout : typ = MsgType.FW_OUT ∧ st.lastOutSeq < seq
    swap
    · rw [reply_of_wrong w k ch _ (measured w st) body hbye hout]
      exact .inr ⟨_, _, rfl, .wrong typ seq body hsend hh hbye hout, .of_ended rfl⟩
    obtain ⟨rfl, hlater⟩ := hout
    obtain ⟨hwrong, hdiverges, hgood⟩ := @reply_of_out _ _ w k ch _ (measured w st) _ body rfl hlater
    by_cases hsize : body.length = calcsize FW_OUT_FMT
    swap
    · obtain ⟨_, hreply, haborted⟩ := hwrong hsize
      exact .inr ⟨_, _, hreply, .size seq body hsend hh hlater hsize, .of_ended haborted⟩
    cases hdiv : diverges w (measure w st) body with
    | true =>
      obtain ⟨_, hreply, haborted⟩ := hdiverges hsize hdiv
      exact .inr ⟨_, _, hreply, .diverges seq body hsend hh hlater hsize hdiv, .of_ended haborted⟩
    | false =>
      obtain ⟨st', row, hreply, htUs, hstate⟩ := hgood hsize hdiv
      exact .inl ⟨st', seq, body, row, hreply, hsend.1, hsend.2, hh, hlater, hsize, hdiv, htUs, hstate⟩

/-- **A tick that goes on has received and logged a reply.** -/
theorem tick_goes_on {w : Craft σ F} {a : RunArgs} {x : Exchange} {k : Nat} {st st' : RunState σ F}
    (h : tick w a x k st = .inr st') : ∃ seq body row, GoesOn w x k st st' seq body row := by
  rcases tick_cases w a x k st with ⟨st'', seq, body, row, htick, hgoes⟩ | ⟨l, st'', htick, -, -⟩
  · rw [h] at htick
    cases htick
    exact ⟨seq, body, row, hgoes⟩
  · rw [h] at htick
    cases htick

/-- A tick that leaves the loop has one of the reasons of `Stops`, and leaves the local variables as `Leaves`
says. -/
theorem tick_stops {w : Craft σ F} {a : RunArgs} {x : Exchange} {k : Nat} {st st' : RunState σ F} {l : Left}
    (h : tick w a x k st = .inl (l, st')) :
    Stops w a x k st l ∧ Leaves st st' l := by
  rcases tick_cases w a x k st with ⟨st'', seq, body, row, htick, -⟩ | ⟨l', st'', htick, hstops, hleaves⟩
  · rw [h] at htick
    cases htick
  · rw [h] at htick
    cases htick
    exact ⟨hstops, hleaves⟩

/-! ## What a run does -/

/-- How the greeting ends, by what the plant hears: an exit code, an exception, or a match that lets the run
begin. -/
theorem hello_eq (r : RecvOutcome) (o : SendOutcome) : (hello Wire.build r o).2 =
    match heard r with
    | .silence | .closed | .garbled => .error (.code EXIT_PROTO)
    | .reset => .error (.raised .osError)
    | .msg (typ, _, body) =>
      if typ ≠ MsgType.HELLO then .error (.code EXIT_PROTO)
      else if body.length ≠ calcsize HELLO_FMT then .error (.raised .structError)
      else if o ≠ .sent then .error (.raised .osError)
      else if body = (Wire.fillHello Wire.build).bytes then .ok ()
      else .error (.code EXIT_PROTO) := by
  obtain ⟨text, hrecv⟩ := recvMsgAt_heard r
  unfold hello helloAt
  rw [ackMsgAt_eq, ← plant_build.1, hrecv]
  dsimp only
  rw [sendAll_some]
  cases heard r with
  | silence | reset | closed | garbled => rfl
  | msg m =>
    obtain ⟨typ, seq, body⟩ := m
    simp only [Heard.result]
    by_cases htyp : typ ≠ MsgType.HELLO
    · rw [if_pos htyp, if_pos htyp]
    rw [if_neg htyp, if_neg htyp]
    by_cases hsize : body.length ≠ calcsize HELLO_FMT
    · rw [if_pos hsize, unpackHello_eq_none_iff.mpr hsize]
    rw [if_neg hsize]
    cases hun : unpackHello body with
    | none => exact absurd (unpackHello_eq_none_iff.mp hun) hsize
    | some p =>
      obtain ⟨dtUs, sizes⟩ := p
      have hown : body = (Wire.fillHello Wire.build).bytes ↔ ¬ (dtUs ≠ .int Wire.build.dtUs.toNat ∨
          sizes ≠ (sizeValues (Wire.fillHello Wire.build)).map .int) := by
        rw [← SilProto.unpackHello_eq_iff, hun, not_or, not_not, not_not, Option.some.injEq, Prod.mk.injEq]
        rfl
      dsimp only
      by_cases hbody : body = (Wire.fillHello Wire.build).bytes
      · rw [if_neg (hown.mp hbody), if_pos hbody]
        cases o <;> rfl
      · rw [if_pos (not_not.mp fun h => hbody (hown.mpr h)), if_neg hbody]
        cases o <;> rfl

/-- The firmware ends the run with a BYE in some tick. -/
def SaysBye (x : Exchange) : Prop := ∃ seq body, heard x.recv = .msg (MsgType.BYE, seq, body)

/-- How a run ends whose loop is left; a loop that comes to its end goes to the goodbye as a `break`
does. -/
def Left.ending (bye : SendOutcome) : Left → Ended
  | .ended e => e
  | .brk => if bye = .sent then .code EXIT_CLEAN else .raised .osError

/-- The local variables of `run` at its end, by how the loop was left. -/
def Left.leave (st : RunState σ F) : Left → RunState σ F
  | .ended _ => st
  | .brk => { st with aborted := false }

section Run
variable {w : Craft σ F} {a : RunArgs} {s : FwScript} {c : σ} {st : RunState σ F} {k : Nat}

/-- A run whose loop is left in some tick ends as that way of leaving says, with the variables that the tick
left. -/
theorem run_of_left {l : Left} {st' : RunState σ F} (hhello : (hello Wire.build s.hello s.ack).2 = .ok ())
    (hk : k < a.nTicks) (h : loop w a s.turns (begin c) k = .inr st)
    (htick : tick w a (s.turns k) k st = .inl (l, st')) :
    run w a s c = (l.ending s.bye, some (l.leave st')) := by
  have hstop : loop w a s.turns (begin c) a.nTicks = .inl (l, st') :=
    runUntil_range_stop_iff.mpr ⟨k, st, hk, h, htick⟩
  rw [run_eq, hhello]
  simp only [hstop]
  cases l with
  | ended e => rfl
  | brk =>
    dsimp only
    rw [finish_eq]
    rfl

/-- A run whose loop comes to its end sends the goodbye, as after a `break`. -/
theorem run_of_complete (hhello : (hello Wire.build s.hello s.ack).2 = .ok ())
    (h : loop w a s.turns (begin c) a.nTicks = .inr st) :
    run w a s c = (Left.ending s.bye .brk, some (Left.leave st .brk)) := by
  rw [run_eq, hhello]
  simp only [h]
  rw [finish_eq]
  rfl

end Run

end PlantRunner

end DroneMini
