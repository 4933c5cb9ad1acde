import DroneMini.Hal.Hello
import DroneMini.Lib.Until
import DroneMini.Sim.Gate

/-!
# The exit codes of the runner

`main` of `sim/main_sil.cpp` from the end of its argument parsing to its exit code: `SilHal::connectTo`,
`SilHal::helloAck` and the lockstep loop. What the transport does in the whole run is a `Script`.

The documented meaning of the codes is over an account of the same script that knows nothing of the HAL
and of the control tick: `stopped` listens to the connection and says what stopped the program (`Stop`),
`Stop.cause` which kind of stop that is, and `Documented` which code belongs to which kind.
`stopped_of_main` is the simulation between the two. The codes are the documented ones except for four
stops (`exitCode_documented_iff`).
-/

namespace DroneMini

namespace Wire

def kExitClean : Nat := 0
def kExitProto : Nat := 2
def kExitTimeout : Nat := 3

end Wire

/-- What the transport does in a run of the program. -/
structure Script where
  /-- Whether `::socket` gives a descriptor. -/
  socket : Bool
  /-- The name of the socket, as it stands after `--sock`. -/
  name : List UInt8
  /-- Which of the attempts to connect succeed, by their number. -/
  connect : Nat → Bool
  hello : SendOutcome
  ack : RecvOutcome
  turns : List Exchange

namespace SilHal

def kConnectRetries : Nat := 50

/-- `sizeof(sockaddr_un::sun_path)`: the name of a socket, with the byte before it, has to fit in here. -/
def sunPathSize : Nat := 108

/-- `SilHal::connectTo`: it fails without a socket, for a name that does not fit, and when fifty attempts in a
row do not succeed. -/
def connectTo (socket : Bool) (name : List UInt8) (connect : Nat → Bool) : IoResult :=
  if !socket then .kClosed
  else if sunPathSize - 1 < name.length then .kClosed
  else if (List.range kConnectRetries).any connect then .kOk
  else .kClosed

/-- There is a connection exactly if there is a socket, the name fits and one of the attempts succeeds. -/
theorem connectTo_ok_iff (socket : Bool) (name : List UInt8) (connect : Nat → Bool) :
    connectTo socket name connect = .kOk ↔ ¬ (socket = false ∨ sunPathSize ≤ name.length) ∧
      ¬ ∀ i < kConnectRetries, connect i = false := by
  have hlong : sunPathSize - 1 < name.length ↔ sunPathSize ≤ name.length := Iff.rfl
  have hany : (List.range kConnectRetries).any connect = true ↔
      ¬ ∀ i < kConnectRetries, connect i = false := by
    simp
  unfold connectTo
  simp only [hlong, hany]
  cases socket <;> split_ifs <;> simp_all

end SilHal

namespace Runner

variable {K : Type} [Field K] [LinearOrder K] [FloatEnv K]

/-- The body of the loop of `main`. It stops with an exit code, or without one when the control tick does
not return within the budget. -/
def body (fuel : Nat) (armTest : Bool) (r : Runner K) (x : Exchange) : Option Nat ⊕ Runner K :=
  match turn fuel armTest r ⟨x.recv, x.send = .sent⟩ with
  | none => .inl none
  | some (.exit code) => .inl (some code)
  | some (.reply r _) => .inr r

/-- `main`: the exit code, or the state in which the program waits for more. -/
def main (fuel : Nat) (a : Args K) (s : Script) : Option Nat ⊕ Runner K :=
  if SilHal.connectTo s.socket s.name s.connect ≠ .kOk then .inl (some 3)
  else
    match SilHal.helloAck Wire.build (SilHal.new : SilHal K) s.hello s.ack with
    | (.kOk, hal) => runUntil (body fuel a.armTest) { start a with hal } s.turns
    | _ => .inl (some 2)

/-! ## What the codes mean -/

inductive Phase where
  | hello
  | lockstep
  deriving DecidableEq, Repr

/-- What stops the program, as one who watches the transport would name it. -/
inductive Stop where
  /-- No socket, or a name that is too long for an address. -/
  | noSocket
  /-- None of the fifty attempts to connect succeeds, as when no server listens. -/
  | noServer
  | sendTimeout (p : Phase)
  | sendFailed (p : Phase)
  | recvTimeout (p : Phase)
  | closed (p : Phase)
  | violation (p : Phase)
  | bye
  deriving DecidableEq, Repr

/-- The kinds of a stop that the documented exit codes tell apart. -/
inductive Cause where
  | timeout
  | violation
  | clean
  | other
  deriving DecidableEq, Repr

/-- The kind of a stop. Giving up on the server after the last attempt is a timeout; the end of the
stream is a clean end once the builds are known to match. -/
def Stop.cause : Stop → Cause
  | .noServer | .sendTimeout _ | .recvTimeout _ => .timeout
  | .violation _ => .violation
  | .bye | .closed .lockstep => .clean
  | .noSocket | .sendFailed _ | .closed .hello => .other

/-- The documented codes: 3 is a timeout, a violation gives 2, and 0 is a clean end. -/
structure Documented (cause : Cause) (code : Nat) : Prop where
  timeout : code = Wire.kExitTimeout ↔ cause = .timeout
  violation : cause = .violation → code = Wire.kExitProto
  clean : code = Wire.kExitClean → cause = .clean

/-- The message in a datagram, as far as it fits into the receive buffer. -/
def message (bytes : List UInt8) : Option (Wire.Hdr × List UInt8) :=
  (Wire.unpackMsg (bytes.take SilHal.rxSize)).toOption

/-- What a listener that waits for the ACK makes of a receive: nothing, or what stops the program. -/
def hearAck : RecvOutcome → Option Stop
  | .wouldBlock => some (.recvTimeout .hello)
  | .failed | .data [] => some (.closed .hello)
  | .data bytes =>
    match message bytes with
    | none => some (.violation .hello)
    | some (h, payload) =>
      if h.type = Wire.MsgType.kAck.code ∧ h.len.toNat = Wire.SilHello.size ∧
          Wire.SilHello.ofBytes payload = Wire.fillHello Wire.build then none
      else some (.violation .hello)

/-- The sequence number and the time of the last state, if there was one. -/
abbrev Last := Option (UInt32 × UInt64)

/-- A state is later than the last one in both. -/
def Later (last : Last) (seq : UInt32) (tUs : UInt64) : Prop :=
  ∀ m ∈ last, m.1 < seq ∧ m.2 < tUs

instance (last : Last) (seq : UInt32) (tUs : UInt64) : Decidable (Later last seq tUs) :=
  inferInstanceAs (Decidable (∀ m ∈ last, m.1 < seq ∧ m.2 < tUs))

/-- What a listener that waits for a state makes of a receive: the state, or what stops the program. An
error of the connection is an end of the stream. -/
def hear (last : Last) : RecvOutcome → Stop ⊕ (UInt32 × UInt64)
  | .wouldBlock => .inl (.recvTimeout .lockstep)
  | .failed | .data [] => .inl (.closed .lockstep)
  | .data bytes =>
    match message bytes with
    | none => .inl (.violation .lockstep)
    | some (h, payload) =>
      let tUs := (Wire.StateRc.ofBytes payload).imu.tUs
      if h.type = Wire.MsgType.kBye.code then .inl .bye
      else if h.type = Wire.MsgType.kState.code ∧ h.len.toNat = Wire.StateRc.size ∧ Later last h.seq tUs
      then .inr (h.seq, tUs)
      else .inl (.violation .lockstep)

/-- What one who listens makes of one exchange: the last state it accepted from then on, or what stops the
program. -/
def hearExchange (last : Last) (x : Exchange) : Stop ⊕ Last :=
  match hear last x.recv with
  | .inl stop => .inl stop
  | .inr m =>
    match x.send with
    | .sent => .inr (some m)
    | .wouldBlock => .inl (.sendTimeout .lockstep)
    | .failed => .inl (.sendFailed .lockstep)

/-- What stops the program before the lockstep, if anything: the socket, the connection, the HELLO or the
ACK. -/
def greeted (s : Script) : Option Stop :=
  if s.socket = false ∨ SilHal.sunPathSize ≤ s.name.length then some .noSocket
  else if ∀ i < SilHal.kConnectRetries, s.connect i = false then some .noServer
  else
    match s.hello with
    | .wouldBlock => some (.sendTimeout .hello)
    | .failed => some (.sendFailed .hello)
    | .sent => hearAck s.ack

/-- What stops the program in a run, if anything: the greeting, or else the first exchange that does. -/
def stopped (s : Script) : Option Stop :=
  match greeted s with
  | some stop => some stop
  | none =>
    match runUntil hearExchange none s.turns with
    | .inl stop => some stop
    | .inr _ => none

/-- What the transport reports for a stop, and the exit code of the program. -/
def Stop.result : Stop → IoResult
  | .sendTimeout _ | .recvTimeout _ => .kTimeout
  | .violation _ => .kProto
  | _ => .kClosed

def Stop.exitCode : Stop → Nat
  | .noSocket | .noServer | .recvTimeout .lockstep => 3
  | .bye | .closed .lockstep => 0
  | _ => 2

/-! ## The listener hears what the HAL accepts -/

/-- What the HAL keeps of the states it accepted: the number and the time of the last one, if there is one. -/
def lastOf (hal : SilHal K) : Last :=
  if hal.haveState then some (hal.lastStateSeq, hal.lastStateUs) else none

omit [Field K] [LinearOrder K] [FloatEnv K] in
/-- The replay check of the HAL refuses exactly what is not later than the last state in both number and
time. -/
theorem later_lastOf {hal : SilHal K} {seq : UInt32} {tUs : UInt64} : Later (lastOf hal) seq tUs ↔
    ¬ (hal.haveState = true ∧ (seq ≤ hal.lastStateSeq ∨ tUs ≤ hal.lastStateUs)) := by
  unfold Later lastOf
  cases hal.haveState with
  | false => simp
  | true => simp [not_or, UInt32.not_le, UInt64.not_le]

omit [Field K] [LinearOrder K] [FloatEnv K] in
/-- `SilHal::recvState` on a message, with its checks in one place. -/
theorem recvState_of_message {hal : SilHal K} {o : RecvOutcome} {h : Wire.Hdr} {payload : List UInt8}
    (hm : SilHal.recvInto o = .ok (h, payload)) : hal.recvState o =
      if h.type = Wire.MsgType.kBye.code then (.kClosed, hal)
      else if h.type = Wire.MsgType.kState.code ∧ h.len.toNat = Wire.StateRc.size ∧
          Later (lastOf hal) h.seq (Wire.StateRc.ofBytes payload).imu.tUs then
        (.kOk, { hal with
          lastStateSeq := h.seq
          lastStateUs := (Wire.StateRc.ofBytes payload).imu.tUs
          haveState := true
          state := .ofBytes payload })
      else (.kProto, hal) := by
  unfold SilHal.recvState
  rw [hm]
  simp only [later_lastOf]
  by_cases hbye : h.type = Wire.MsgType.kBye.code
  · rw [if_pos hbye, if_pos hbye]
  rw [if_neg hbye, if_neg hbye]
  by_cases hstate : h.type = Wire.MsgType.kState.code ∧ h.len.toNat = Wire.StateRc.size
  · obtain ⟨htype, hlen⟩ := hstate
    simp only [htype, hlen, ne_eq, not_true_eq_false, or_self, if_false, true_and, ite_not]
  · rw [if_pos (not_and_or.mp hstate), if_neg fun hall => hstate ⟨hall.1, hall.2.1⟩]

omit [Field K] [LinearOrder K] [FloatEnv K] in
/-- **`SilHal::recvState` accepts the states the listener hears**, and reports the listener's stops. -/
theorem recvState_hear (hal : SilHal K) (o : RecvOutcome) :
    (∀ stop, hear (lastOf hal) o = .inl stop → hal.recvState o = (stop.result, hal)) ∧
      ∀ m, hear (lastOf hal) o = .inr m → ∃ hal', hal.recvState o = (.kOk, hal') ∧ lastOf hal' = some m := by
  have hnone {r : IoResult} (hr : SilHal.recvInto o = .error r) : hal.recvState o = (r, hal) := by
    unfold SilHal.recvState
    rw [hr]
  cases o with
  | wouldBlock => exact ⟨fun stop h => by cases h; exact hnone rfl, fun m h => by cases h⟩
  | failed => exact ⟨fun stop h => by cases h; exact hnone rfl, fun m h => by cases h⟩
  | data bytes =>
    cases bytes with
    | nil => exact ⟨fun stop h => by cases h; exact hnone rfl, fun m h => by cases h⟩
    | cons b bs =>
      cases hm : Wire.unpackMsg ((b :: bs).take SilHal.rxSize) with
      | error e =>
        have hmsg : message (b :: bs) = none := by rw [message, hm, Except.toOption]
        have hr : SilHal.recvInto (.data (b :: bs)) = .error .kProto := by
          rw [SilHal.recvInto_data (List.cons_ne_nil b bs), hm, Except.mapError]
        simp only [hear, hmsg]
        exact ⟨fun stop h => by cases h; exact hnone hr, fun m h => by cases h⟩
      | ok msg =>
        obtain ⟨h, payload⟩ := msg
        have hmsg : message (b :: bs) = some (h, payload) := by rw [message, hm, Except.toOption]
        have hr : SilHal.recvInto (.data (b :: bs)) = .ok (h, payload) := by
          rw [SilHal.recvInto_data (List.cons_ne_nil b bs), hm, Except.mapError]
        rw [recvState_of_message hr]
        simp only [hear, hmsg]
        split_ifs with hbye hlater
        · exact ⟨fun stop h => by cases h; rfl, fun m h => by cases h⟩
        · exact ⟨fun stop h => (by cases h), fun m h => by cases h; exact ⟨_, rfl, rfl⟩⟩
        · exact ⟨fun stop h => by cases h; rfl, fun m h => by cases h⟩

/-! ## The program stops where the listener does -/

/-- One who listens in the lockstep stops for a timeout, the end of the stream, a violation or a goodbye. -/
theorem hear_stop {last : Last} {o : RecvOutcome} {stop : Stop} (h : hear last o = .inl stop) :
    stop = .recvTimeout .lockstep ∨ stop = .closed .lockstep ∨ stop = .violation .lockstep ∨ stop = .bye := by
  unfold hear at h
  split at h
  · cases h
    exact .inl rfl
  · cases h
    exact .inr (.inl rfl)
  · cases h
    exact .inr (.inl rfl)
  · split at h
    · cases h
      exact .inr (.inr (.inl rfl))
    · dsimp only at h
      split_ifs at h
      · cases h
        exact .inr (.inr (.inr rfl))
      · cases h
        exact .inr (.inr (.inl rfl))

/-- A turn in which the HAL reports a stop of the listener. -/
theorem body_of_heard {fuel : Nat} {armTest : Bool} {r : Runner K} {x : Exchange} {stop : Stop}
    (h : hear (lastOf r.hal) x.recv = .inl stop) :
    body fuel armTest r x = .inl (some stop.exitCode) := by
  have hrecv := (recvState_hear r.hal x.recv).1 stop h
  unfold body turn
  rcases hear_stop h with rfl | rfl | rfl | rfl
  all_goals
    rw [hrecv]
    rfl

/-- A turn whose state the HAL accepts: the control tick runs out of budget, or the reply is sent or
not. -/
theorem body_of_accepted (fuel : Nat) (armTest : Bool) {r : Runner K} {x : Exchange}
    {m : UInt32 × UInt64} (h : hear (lastOf r.hal) x.recv = .inr m) :
    body fuel armTest r x = .inl none ∨
      (x.send ≠ .sent ∧ body fuel armTest r x = .inl (some 2)) ∨
      (x.send = .sent ∧ ∃ r', body fuel armTest r x = .inr r' ∧ lastOf r'.hal = some m) := by
  obtain ⟨hal, hrecv, hlast⟩ := (recvState_hear r.hal x.recv).2 m h
  unfold body turn
  rw [hrecv]
  cases htick : ControlLoop.tick fuel r.ctx ⟨hal.reads, armTest⟩ with
  | none => exact .inl (by simp [htick])
  | some p =>
    by_cases hsent : x.send = .sent
    · refine .inr (.inr ⟨hsent, ?_⟩)
      simp only [htick, Option.bind_eq_bind, Option.bind_some, hsent, decide_true, if_true]
      refine ⟨_, rfl, ?_⟩
      rw [← hlast, foldl_call]
      rfl
    · exact .inr (.inl ⟨hsent, by simp [htick, hsent]⟩)

/-- **One turn of the program stops for what the listener stops for.** -/
theorem body_stop {fuel : Nat} {armTest : Bool} {r : Runner K} {x : Exchange} {code : Nat}
    (h : body fuel armTest r x = .inl (some code)) :
    ∃ stop, hearExchange (lastOf r.hal) x = .inl stop ∧ stop.exitCode = code := by
  unfold hearExchange
  cases hh : hear (lastOf r.hal) x.recv with
  | inl stop =>
    rw [body_of_heard hh] at h
    cases h
    exact ⟨stop, rfl, rfl⟩
  | inr m =>
    rcases body_of_accepted fuel armTest hh with hnone | ⟨hsent, hbody⟩ | ⟨_, r', hbody, _⟩
    · rw [hnone] at h
      cases h
    · rw [hbody] at h
      cases h
      cases hs : x.send with
      | sent => exact absurd hs hsent
      | wouldBlock => exact ⟨_, rfl, rfl⟩
      | failed => exact ⟨_, rfl, rfl⟩
    · rw [hbody] at h
      cases h

/-- One turn of the program goes on when the listener does. -/
theorem body_goes_on {fuel : Nat} {armTest : Bool} {r r' : Runner K} {x : Exchange}
    (h : body fuel armTest r x = .inr r') : hearExchange (lastOf r.hal) x = .inr (lastOf r'.hal) := by
  unfold hearExchange
  cases hh : hear (lastOf r.hal) x.recv with
  | inl stop =>
    rw [body_of_heard hh] at h
    cases h
  | inr m =>
    rcases body_of_accepted fuel armTest hh with hnone | ⟨_, hbody⟩ | ⟨hsent, r'', hbody, hlast⟩
    · rw [hnone] at h
      cases h
    · rw [hbody] at h
      cases h
    · rw [hbody] at h
      cases h
      simp only [hsent, hlast]

omit [LinearOrder K] [FloatEnv K] in
/-- The runner has a new HAL that has sent its HELLO. -/
theorem helloAck_eq (s : SendOutcome) (r : RecvOutcome) :
    SilHal.helloAck Wire.build (SilHal.new : SilHal K) s r
      = (if s = .sent then SilHal.recvAck Wire.build r else .kClosed, SilHal.new.nextSeq.1) := by
  unfold SilHal.helloAck SilHal.sendHello
  rw [SilHal.sendMsgAt_hello]
  cases s <;> rfl

/-- What the program makes of the answer to its HELLO. -/
theorem recvAck_hear {o : RecvOutcome} :
    SilHal.recvAck Wire.build o = .kOk ↔ hearAck o = none := by
  have hver : SilHal.recvIntoAt Wire.build.ver o = SilHal.recvInto o := rfl
  unfold SilHal.recvAck
  rw [hver]
  cases o with
  | wouldBlock => simp [SilHal.recvInto, SilHal.recvIntoAt, hearAck]
  | failed => simp [SilHal.recvInto, SilHal.recvIntoAt, hearAck]
  | data bytes =>
    cases bytes with
    | nil => simp [SilHal.recvInto, SilHal.recvIntoAt, hearAck]
    | cons b bs =>
      cases hm : Wire.unpackMsg ((b :: bs).take SilHal.rxSize) with
      | error e =>
        rw [SilHal.recvInto_data (List.cons_ne_nil b bs), hm, Except.mapError]
        simp [hearAck, message, hm, Except.toOption]
      | ok msg =>
        obtain ⟨h, payload⟩ := msg
        have hmsg : message (b :: bs) = some (h, payload) := by rw [message, hm, Except.toOption]
        have hr : SilHal.recvInto (.data (b :: bs)) = .ok (h, payload) := by
          rw [SilHal.recvInto_data (List.cons_ne_nil b bs), hm, Except.mapError]
        simp only [hr, hearAck, hmsg, Wire.helloMatches_iff]
        by_cases htype : h.type = Wire.MsgType.kAck.code ∧ h.len.toNat = Wire.SilHello.size
        · obtain ⟨htype, hlen⟩ := htype
          simp only [htype, hlen, ne_eq, not_true_eq_false, or_self, if_false, true_and,
            eq_comm (a := Wire.fillHello _)]
          split_ifs <;> simp
        · rw [if_pos (not_and_or.mp htype), if_neg fun hall => htype ⟨hall.1, hall.2.1⟩]
          simp

/-- A greeting that fails is a violation for the program, whatever stopped it. -/
theorem hearAck_code {o : RecvOutcome} {stop : Stop} (h : hearAck o = some stop) : stop.exitCode = 2 := by
  unfold hearAck at h
  split at h
  · cases h
    rfl
  · cases h
    rfl
  · cases h
    rfl
  · split at h
    · cases h
      rfl
    · split_ifs at h
      cases h
      rfl

/-- **What stops the program before the lockstep**, and the code it then exits with. -/
theorem main_greeted {fuel : Nat} {a : Args K} {s : Script} :
    (∀ stop, greeted s = some stop → main fuel a s = .inl (some stop.exitCode)) ∧
      (greeted s = none → main fuel a s = runUntil (body fuel a.armTest) (start a) s.turns) := by
  have hconnect := SilHal.connectTo_ok_iff s.socket s.name s.connect
  unfold main greeted
  rw [helloAck_eq]
  by_cases hsocket : s.socket = false ∨ SilHal.sunPathSize ≤ s.name.length
  · rw [if_pos fun h => (hconnect.mp h).1 hsocket, if_pos hsocket]
    exact ⟨fun stop h => by cases h; rfl, fun h => by cases h⟩
  by_cases hserver : ∀ i < SilHal.kConnectRetries, s.connect i = false
  · rw [if_pos fun h => (hconnect.mp h).2 hserver, if_neg hsocket, if_pos hserver]
    exact ⟨fun stop h => by cases h; rfl, fun h => by cases h⟩
  rw [if_neg (not_not.mpr (hconnect.mpr ⟨hsocket, hserver⟩)), if_neg hsocket, if_neg hserver]
  cases hhello : s.hello with
  | wouldBlock => exact ⟨fun stop h => by cases h; rfl, fun h => by cases h⟩
  | failed => exact ⟨fun stop h => by cases h; rfl, fun h => by cases h⟩
  | sent =>
    simp only [if_true]
    cases hack : hearAck s.ack with
    | none =>
      rw [recvAck_hear.mpr hack]
      exact ⟨fun stop h => (by cases h), fun _ => rfl⟩
    | some stop =>
      have hne : SilHal.recvAck Wire.build s.ack ≠ .kOk := fun h => by
        rw [recvAck_hear.mp h] at hack
        cases hack
      refine ⟨fun stop' h => ?_, fun h => by cases h⟩
      cases h
      rw [hearAck_code hack]
      split
      · next hok => exact absurd (congrArg Prod.fst hok) hne
      · rfl

/-- **The program stops for what the listener stops for**, with the code of that stop. -/
theorem stopped_of_main {fuel : Nat} {a : Args K} {s : Script} {code : Nat}
    (h : main fuel a s = .inl (some code)) : ∃ stop, stopped s = some stop ∧ stop.exitCode = code := by
  unfold stopped
  cases hg : greeted s with
  | some stop =>
    rw [main_greeted.1 stop hg] at h
    cases h
    exact ⟨stop, rfl, rfl⟩
  | none =>
    rw [main_greeted.2 hg] at h
    obtain ⟨stop, hstop, hcode⟩ := runUntil_sim (R := fun r last => last = lastOf r.hal)
      (Q := fun stop : Stop => stop.exitCode = code) (fun r last x hlast hb => by
        rw [hlast]
        exact body_stop hb)
      (fun r last x r' hlast hb => ⟨_, by rw [hlast]; exact body_goes_on hb, rfl⟩) rfl h
    refine ⟨stop, ?_, hcode⟩
    have hstart : lastOf (start a).hal = none := rfl
    rw [hstart] at hstop
    rw [hstop]

/-! ## When the codes are the documented ones -/

/-- The stops that the codes do not tell: a socket that fails before there is a connection, a HELLO or a
reply that cannot be sent in time, and an ACK that does not come. -/
def Stop.Masked (stop : Stop) : Prop :=
  stop = .noSocket ∨ (∃ p, stop = .sendTimeout p) ∨ stop = .recvTimeout .hello

/-- The code of a stop is the documented one unless the stop is masked. -/
theorem Stop.documented_iff (stop : Stop) : Documented stop.cause stop.exitCode ↔ ¬ stop.Masked := by
  have hand (cause : Cause) (code : Nat) : Documented cause code ↔ (code = 3 ↔ cause = .timeout) ∧
      (cause = .violation → code = 2) ∧ (code = 0 → cause = .clean) :=
    ⟨fun h => ⟨h.timeout, h.violation, h.clean⟩, fun h => ⟨h.1, h.2.1, h.2.2⟩⟩
  rw [hand, Stop.Masked]
  cases stop with
  | noSocket | noServer | bye => simp [Stop.cause, Stop.exitCode]
  | sendTimeout p | sendFailed p | recvTimeout p | closed p | violation p =>
    cases p <;> simp [Stop.cause, Stop.exitCode]

/-- **The exit code is the documented one exactly when the program is not stopped** by a socket that
cannot be opened or a name too long for it, by a timeout of a send or by a timeout in the greeting. -/
theorem exitCode_documented_iff {fuel : Nat} {a : Args K} {s : Script} {code : Nat}
    (h : main fuel a s = .inl (some code)) :
    ∃ stop, stopped s = some stop ∧ (Documented stop.cause code ↔ ¬ stop.Masked) := by
  obtain ⟨stop, hstop, rfl⟩ := stopped_of_main h
  exact ⟨stop, hstop, stop.documented_iff⟩

/-- The goodbye with which a server ends the lockstep: a BYE without a payload. -/
def byeMsg : List UInt8 := (Wire.packMsg SilHal.rxSize Wire.MsgType.kBye.code 0 []).getD []

/-- A server that accepts the connection, answers the HELLO and says goodbye. -/
def goodbye : Script where
  socket := true
  name := []
  connect := fun _ => true
  hello := .sent
  ack := .data (SilHal.helloMsg Wire.build .kAck 0)
  turns := [⟨.data byeMsg, .sent⟩]

/-- The goodbye of a server that answers is a clean end. -/
theorem exitCode_documented_goodbye : ∃ stop, stopped goodbye = some stop ∧
    (Documented stop.cause Wire.kExitClean ↔ ¬ stop.Masked) := by
  have hgreeted : greeted goodbye = none := by
    rw [greeted, if_neg (by decide), if_neg (by decide)]
    exact recvAck_hear.mp ((SilHal.recvAck_helloMsg _ _ _).mpr rfl)
  have hbye : hear (lastOf (start openLoop).hal) (.data byeMsg) = .inl .bye := by decide +kernel
  have hbody : body 0 true (start openLoop) ⟨.data byeMsg, .sent⟩ = .inl (some Wire.kExitClean) :=
    @body_of_heard ℚ _ _ _ 0 true (start openLoop) ⟨.data byeMsg, .sent⟩ .bye hbye
  have hmain : main 0 openLoop goodbye = .inl (some Wire.kExitClean) := by
    rw [main_greeted.2 hgreeted]
    exact runUntil_cons_inl hbody
  exact exitCode_documented_iff hmain

/-- A server that accepts the connection and then says nothing, so that the wait for the ACK times out. -/
def silent : Script := { goodbye with ack := .wouldBlock }

/-- A server that does not answer the HELLO in time is a timeout, and the exit code is 2. -/
theorem not_exitCode_documented :
    ¬ ∀ (fuel : Nat) (a : Args ℚ) (s : Script) (code : Nat), main fuel a s = .inl (some code) →
      ∃ stop, stopped s = some stop ∧ Documented stop.cause code := by
  intro h
  have hgreeted : greeted silent = some (.recvTimeout .hello) := by decide
  have hmain := (@main_greeted ℚ _ _ _ 0 openLoop silent).1 _ hgreeted
  obtain ⟨stop, hstop, hdoc⟩ := h 0 openLoop silent _ hmain
  have hcause : stop = .recvTimeout .hello := by
    unfold stopped at hstop
    rw [hgreeted] at hstop
    exact (Option.some.inj hstop).symm
  rw [hcause] at hdoc
  exact absurd (hdoc.timeout.mpr rfl) (by decide)

end Runner

end DroneMini
