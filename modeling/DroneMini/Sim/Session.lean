import DroneMini.Lib.Duplex
import DroneMini.Sim.ClosedLoop
import DroneMini.Sim.Handshake

/-!
# The session of the two programs

`plant.runner.run` and `main` of `sim_runner` as the two parties of a connection, from the accepted connection
until both have left it. Each is a party of `Duplex`: every `recv` and every send is a move of its own, so a
run of the system is an interleaving of the two programs. Nobody is late: a `recv` waits until there is
something to receive or the peer has left.

When the two meet each other, every run takes at most `4 * nTicks + 7` moves, nobody waits for ever, and what
they leave behind is what the closed loop without a wire computes (`session_concludes`). That each party is the
program it is made from, whatever it meets, is shown in `Sim.Programs`.
-/

namespace DroneMini

namespace Session

open PlantRunner

variable {σ F K : Type} [Field K] [LinearOrder K] [FloatEnv K] (s : Setup σ F K)

/-- What a program makes of a receive: an empty datagram is the end of the stream. -/
def received (msg : Option (List UInt8)) : RecvOutcome := .data (msg.getD [])

/-- What a program makes of a send: the message goes out, or the connection fails. -/
def sending (ok : Bool) : SendOutcome := if ok then .sent else .failed

/-! ## The plant -/

/-- Where `run` is: it waits for the HELLO, answers it, sends a STATE, waits for the reply, says goodbye, or
has returned. -/
inductive Plant (σ F : Type) where
  | hello
  | answer (ack : List UInt8) (heard : RecvOutcome)
  | turn (k : Nat) (msg : List UInt8) (st : RunState σ F)
  | await (k : Nat) (st : RunState σ F)
  | bye (msg : List UInt8) (st : RunState σ F)
  | ended (e : Ended) (st : Option (RunState σ F))

namespace Plant

-- irreducible: a definitional unfolding would compute the checksum of the message
/-- The STATE message that the plant packs for a tick, from what its craft measures then. -/
def stateOf (k : Nat) (st : RunState σ F) : Option (List UInt8) :=
  let m := measure s.craft st
  stateMsg s.run k (s.craft.bits ∘ m.gyro) (s.craft.bits ∘ m.accel) (s.craft.bits m.vbat)

/-- Where the plant is after its loop: about to send the goodbye. -/
@[irreducible] def leave (st : RunState σ F) : Plant σ F :=
  match SilProto.packMsg SilProto.MsgType.BYE 0 [] with
  | some msg => .bye msg st
  | none => .ended (finish .sent st).1 (some (finish .sent st).2)

/-- Where the plant is before a tick, about to send its STATE message, or after the last one. -/
@[irreducible] def enter (k : Nat) (st : RunState σ F) : Plant σ F :=
  if k < s.run.nTicks then
    match stateOf s k st with
    | some msg => .turn k msg st
    | none => .ended (.raised .structError) (some (measured s.craft st))
  else leave st

/-- Where the plant is after a tick, by whether the tick went on or how it left the loop. -/
def after (k : Nat) : (Left × RunState σ F) ⊕ RunState σ F → Plant σ F
  | .inr st => enter s (k + 1) st
  | .inl (.brk, st) => leave st
  | .inl (.ended e, st) => .ended e (some st)

/-- Where the plant is after the greeting: at the end, or before the first tick. -/
def greeted : Except Ended Unit → Plant σ F
  | .error e => .ended e none
  | .ok () => enter s 0 (begin s.start)

/-- What the plant does next, as the body of `run` has it: it receives, it sends, or it is gone. -/
def act : Plant σ F → Act (List UInt8) (Plant σ F)
  | .hello => .recv fun msg =>
      match PlantRunner.hello Wire.build (received msg) .sent with
      | (some ack, _) => .answer ack (received msg)
      | (none, res) => greeted s res
  | .answer ack heard => .send ack fun ok => greeted s (PlantRunner.hello Wire.build heard (sending ok)).2
  | .turn k msg st => .send msg fun ok =>
      if ok then .await k st else after s k (tick s.craft s.run ⟨.failed, .failed⟩ k st)
  | .await k st => .recv fun msg => after s k (tick s.craft s.run ⟨received msg, .sent⟩ k st)
  | .bye msg st => .send msg fun ok => .ended (finish (sending ok) st).1 (some (finish (sending ok) st).2)
  | .ended _ _ => .gone

end Plant

/-! ## The firmware -/

/-- Where `main` is: it sends its HELLO, waits for the ACK, waits for a STATE, sends the reply, says goodbye,
has returned, or is in a control tick that does not return. -/
inductive Firmware (K : Type) where
  | hello (msg : List UInt8) (hal : SilHal K)
  | greeted (hal : SilHal K)
  | loop (r : Runner K)
  | reply (msg : List UInt8) (r : Runner K)
  | bye (msg : List UInt8)
  | exited (code : Nat)
  | hung

namespace Firmware

/-- Where the firmware is after the connection: about to send its HELLO. -/
@[irreducible] def boot : Firmware K :=
  match (SilHal.new : SilHal K).sendHello Wire.build .sent with
  | (_, some msg, hal) => .hello msg hal
  | (_, none, _) => .exited 2

/-- The message that the firmware packs for a reply, if it fits into the buffer. -/
@[irreducible] def outMsg (o : FwOut K) : Option (List UInt8) :=
  Wire.packMsg 256 Wire.MsgType.kFwOut.code o.seq (o.out.map s.bits).bytes

/-- Where the firmware is after a clean end of its loop: about to send the goodbye. -/
@[irreducible] def leave (r : Runner K) : Firmware K :=
  match (r.hal.sendMsg .kBye [] .sent).2.1 with
  | some msg => .bye msg
  | none => .exited 0

/-- Where the firmware is after a turn, by whether the turn returned, and with a reply or an exit code. -/
def after (r : Runner K) : Option (Turn K) → Firmware K
  | none => .hung
  | some (.exit code) => if code = 0 then leave r else .exited code
  | some (.reply r o) =>
    match outMsg s o with
    | some msg => .reply msg r
    | none => .exited 2

/-- What the firmware does next, as the body of `main` has it: it receives, it sends, it is gone, or it is
busy for good. -/
def act : Firmware K → Act (List UInt8) (Firmware K)
  | .hello msg hal => .send msg fun ok => if ok then .greeted hal else .exited 2
  | .greeted hal => .recv fun msg =>
      if SilHal.recvAck Wire.build (received msg) = .kOk then .loop { Runner.start s.fw with hal }
      else .exited 2
  | .loop r => .recv fun msg => after s r (Runner.turn s.fuel s.fw.armTest r ⟨received msg, true⟩)
  | .reply msg r => .send msg fun ok => if ok then .loop r else .exited 2
  | .bye msg => .send msg fun _ => .exited 0
  | .exited _ => .gone
  | .hung => .busy

end Firmware

/-! ## The system -/

/-- The two programs of a session and the messages between them. -/
abbrev State (σ F K : Type) := Duplex (Plant σ F) (Firmware K) (List UInt8)

/-- A session begins when both are connected: the plant waits for the HELLO that the firmware is about to
send. -/
def init : State σ F K := ⟨.hello, .boot, [], []⟩

/-- A move of one of the two programs, with what it meets: the outcome of a receive or of a send. -/
abbrev step : State σ F K → Duplex.Side → State σ F K → Met (List UInt8) → Prop :=
  Duplex.step (Plant.act s) (Firmware.act s)

/-! ## The two meet -/

/-- The messages that the two programs exchange before the first tick and after the last one. -/
def helloMsg : List UInt8 := SilHal.helloMsg Wire.build .kHello 0

def ackMsg : List UInt8 := SilHal.helloMsg Wire.build .kAck 0

def byeMsg : List UInt8 := Wire.packed Wire.MsgType.kBye.code 0 []

/-- The STATE message of a tick, by the state of the closed loop. -/
def stateMsg (k : Nat) (y : ClosedLoop σ F K) : List UInt8 :=
  ClosedLoop.statement s k (ClosedLoop.measure s y)

/-- The state in which the closed loop comes to a tick. -/
def Before (k : Nat) (y : ClosedLoop σ F K) : Prop :=
  runUntil (ClosedLoop.tick s) (ClosedLoop.begin s) (List.range k) = .inr y

/-- The two programs before a tick: they are where the closed loop is when it comes to that tick. -/
structure At (k : Nat) (y : ClosedLoop σ F K) (st : RunState σ F) (r : Runner K) : Prop where
  before : Before s k y
  same : ClosedLoop.Matches k y st r

/-- What a session leaves behind: the return value of the plant with its log and its craft, as the closed
loop has them. The log is marked as aborted when the craft leaves the finite numbers. -/
def Outcome (e : Ended) (st : RunState σ F) : Prop :=
  match ClosedLoop.run s with
  | .inr y => e = .code SilProto.EXIT_CLEAN ∧ st.aborted = false ∧ st.rows = y.rows ∧ st.craft = y.craft
  | .inl (.diverges y) =>
    e = .code SilProto.EXIT_NUMERICAL ∧ st.aborted = true ∧ st.rows = y.rows ∧ st.craft = y.craft
  | .inl .hangs => False

variable {s}

/-- Before a tick, the plant that is where the closed loop is sends the STATE message of that tick. -/
theorem At.enter {k : Nat} {y : ClosedLoop σ F K} {st : RunState σ F} {r : Runner K} (h : At s k y st r)
    (hk : k < s.run.nTicks) : Plant.enter s k st = .turn k (stateMsg s k y) st := by
  have hmsg : Plant.stateOf s k st = some (stateMsg s k y) := by
    unfold Plant.stateOf
    rw [h.same.measure]
    exact ClosedLoop.stateMsg_eq hk _
  unfold Plant.enter
  rw [if_pos hk, hmsg]

omit [LinearOrder K] [FloatEnv K] in
/-- After the connection, the firmware begins with the HELLO of its build. -/
theorem boot_eq : (Firmware.boot : Firmware K)
    = .hello (SilHal.helloMsg Wire.build .kHello 0) SilHal.new.nextSeq.1 := by
  unfold Firmware.boot SilHal.sendHello
  rw [SilHal.sendMsgAt_hello]
  rfl

omit [Field K] [LinearOrder K] [FloatEnv K] in
/-- After the last tick, the plant sends its goodbye. -/
theorem leave_eq (st : RunState σ F) : Plant.leave st = .bye byeMsg st := by
  have hmsg : SilProto.packMsg SilProto.MsgType.BYE 0 [] = some byeMsg :=
    SilProto.packMsg_eq Wire.MsgType.kBye.code 0 (Nat.zero_le _)
  unfold Plant.leave
  rw [hmsg]

omit [Field K] [LinearOrder K] [FloatEnv K] in
/-- For every reply, the firmware packs and sends the FW_OUT message that the closed loop has for it. -/
theorem outMsg_eq (o : FwOut K) : Firmware.outMsg s o = some (ClosedLoop.replyMsg s o) := by
  have hsize := ClosedLoop.length_outBytes (o.out.map s.bits)
  unfold Firmware.outMsg
  exact Wire.packMsg_eq _ _ (by rw [hsize]; decide) (by rw [hsize]; decide)

/-- The firmware ends cleanly when the plant has said goodbye or has left. -/
theorem turn_of_end (r : Runner K) {msg : Option (List UInt8)} (h : msg = some byeMsg ∨ msg = none) :
    Runner.turn s.fuel s.fw.armTest r ⟨received msg, true⟩ = some (.exit 0) := by
  have hrecv : r.hal.recvState (received msg) = (.kClosed, r.hal) := by
    rcases h with rfl | rfl
    · obtain ⟨hdr, hrecv, htype, -⟩ := SilHal.recvInto_packed Wire.MsgType.kBye.code 0
        (show ([] : List UInt8).length ≤ 242 from Nat.zero_le _)
      rw [received, Option.getD_some, byeMsg, Runner.recvState_of_message hrecv, if_pos htype]
    · rfl
  unfold Runner.turn
  dsimp only
  rw [hrecv]

omit [Field K] [LinearOrder K] [FloatEnv K] in
/-- After a clean end of its loop, the firmware says goodbye. -/
theorem firmware_leave_eq (r : Runner K) : ∃ msg, Firmware.leave r = .bye msg := by
  have hpack : (r.hal.sendMsg .kBye [] .sent).2.1
      = some (Wire.packed Wire.MsgType.kBye.code r.hal.seq []) := by
    unfold SilHal.sendMsg SilHal.sendMsgAt SilHal.nextSeq
    dsimp only
    rw [Wire.packMsgAt_eq _ _ _ (by decide) (by decide)]
  unfold Firmware.leave
  rw [hpack]
  exact ⟨_, rfl⟩

variable (s)

/-- The states of a session, by stages: the greeting takes four moves and a tick another four. The firmware
may be behind with its ACK while the first STATE is sent (`early`). -/
inductive Known : Nat → State σ F K → Prop
  | ready : Known 0 ⟨.hello, .hello helloMsg SilHal.new.nextSeq.1, [], []⟩
  | asked : Known 1 ⟨.hello, .greeted SilHal.new.nextSeq.1, [helloMsg], []⟩
  | answering : Known 2 ⟨.answer ackMsg (.data helloMsg), .greeted SilHal.new.nextSeq.1, [], []⟩
  | answered : Known 3 ⟨.turn 0 (stateMsg s 0 (ClosedLoop.begin s)) (begin s.start),
      .greeted SilHal.new.nextSeq.1, [], [ackMsg]⟩
  | early : Known 4 ⟨.await 0 (begin s.start), .greeted SilHal.new.nextSeq.1, [],
      [ackMsg, stateMsg s 0 (ClosedLoop.begin s)]⟩
  | before (k : Nat) (y : ClosedLoop σ F K) (st : RunState σ F) (r : Runner K) (hk : k < s.run.nTicks)
      (h : At s k y st r) : Known (4 * k + 4) ⟨.turn k (stateMsg s k y) st, .loop r, [], []⟩
  | stated (k : Nat) (y : ClosedLoop σ F K) (st : RunState σ F) (r : Runner K) (hk : k < s.run.nTicks)
      (h : At s k y st r) : Known (4 * k + 5) ⟨.await k st, .loop r, [], [stateMsg s k y]⟩
  | replying (k : Nat) (y : ClosedLoop σ F K) (st : RunState σ F) (r r' : Runner K)
      (ctx : FlightContext K) (t : TickOutput K) (o : FwOut K) (hk : k < s.run.nTicks) (h : At s k y st r)
      (htick : ControlLoop.tick s.fuel y.ctx ⟨ClosedLoop.reads s k (ClosedLoop.measure s y), s.fw.armTest⟩
        = some (ctx, t)) (ho : ClosedLoop.Replied k ctx t r' o) :
      Known (4 * k + 6) ⟨.await k st, .reply (ClosedLoop.replyMsg s o) r', [], []⟩
  | replied (k : Nat) (y : ClosedLoop σ F K) (st : RunState σ F) (r r' : Runner K)
      (ctx : FlightContext K) (t : TickOutput K) (o : FwOut K) (hk : k < s.run.nTicks) (h : At s k y st r)
      (htick : ControlLoop.tick s.fuel y.ctx ⟨ClosedLoop.reads s k (ClosedLoop.measure s y), s.fw.armTest⟩
        = some (ctx, t)) (ho : ClosedLoop.Replied k ctx t r' o) :
      Known (4 * k + 7) ⟨.await k st, .loop r', [ClosedLoop.replyMsg s o], []⟩
  | hung (k : Nat) (st : RunState σ F) (hk : k < s.run.nTicks) (h : ClosedLoop.run s = .inl .hangs) :
      Known (4 * k + 6) ⟨.await k st, .hung, [], []⟩
  | looped (y : ClosedLoop σ F K) (st : RunState σ F) (r : Runner K) (h : At s s.run.nTicks y st r) :
      Known (4 * s.run.nTicks + 4) ⟨.bye byeMsg st, .loop r, [], []⟩
  | left (i : Nat) (e : Ended) (st : RunState σ F) (r : Runner K) (queue : List (List UInt8))
      (hi : i ≤ 4 * s.run.nTicks + 5) (h : Outcome s e st) (hqueue : queue = [byeMsg] ∨ queue = []) :
      Known i ⟨.ended e (some st), .loop r, [], queue⟩
  | leaving (i : Nat) (e : Ended) (st : RunState σ F) (msg : List UInt8) (hi : i ≤ 4 * s.run.nTicks + 6)
      (h : Outcome s e st) : Known i ⟨.ended e (some st), .bye msg, [], []⟩
  | parted (i : Nat) (e : Ended) (st : RunState σ F) (hi : i ≤ 4 * s.run.nTicks + 7) (h : Outcome s e st) :
      Known i ⟨.ended e (some st), .exited 0, [], []⟩

variable {s}

theorem at_begin : At s 0 (ClosedLoop.begin s) (begin s.start) (Runner.start s.fw) :=
  ⟨rfl, ClosedLoop.matches_begin s⟩

/-- A tick that goes on takes the closed loop from before it to before the next one. -/
theorem Before.next {k : Nat} {y y' : ClosedLoop σ F K} (h : Before s k y)
    (htick : ClosedLoop.tick s y k = .inr y') : Before s (k + 1) y' := by
  rw [Before, List.range_succ]
  exact (runUntil_append h).trans (runUntil_cons_inr htick)

/-- A tick that stops the closed loop stops the whole run of it there. -/
theorem Before.stop {k : Nat} {y : ClosedLoop σ F K} (h : Before s k y) (hk : k < s.run.nTicks)
    {stop : ClosedLoop.Stop σ F K} (htick : ClosedLoop.tick s y k = .inl stop) :
    ClosedLoop.run s = .inl stop :=
  runUntil_range_stop_iff.mpr ⟨k, y, hk, h, htick⟩

/-- The turn of the firmware on a STATE message leads the session to the next stage, whatever the control tick
comes to. -/
theorem At.turn {k : Nat} {y : ClosedLoop σ F K} {st : RunState σ F} {r : Runner K} (h : At s k y st r)
    (hk : k < s.run.nTicks) : Known s (4 * k + 6)
      ⟨.await k st, Firmware.after s r
        (Runner.turn s.fuel s.fw.armTest r ⟨received (some (stateMsg s k y)), true⟩), [], []⟩ := by
  obtain ⟨hhangs, hreplies⟩ := h.same.turn hk
  rw [received, Option.getD_some, stateMsg]
  cases htick : ControlLoop.tick s.fuel y.ctx
    ⟨ClosedLoop.reads s k (ClosedLoop.measure s y), s.fw.armTest⟩ with
  | none =>
    rw [hhangs htick]
    refine .hung k st hk (h.before.stop hk ?_)
    rw [ClosedLoop.tick, htick]
  | some p =>
    obtain ⟨ctx, t⟩ := p
    obtain ⟨r', o, hturn, ho⟩ := hreplies ctx t htick
    rw [hturn, Firmware.after, outMsg_eq]
    exact .replying k y st r r' ctx t o hk h htick ho

/-- The tick of the plant on a reply leads the session to the next stage, whether the craft moves on or
diverges. -/
theorem At.reply {k : Nat} {y : ClosedLoop σ F K} {st : RunState σ F} {r r' : Runner K}
    {ctx : FlightContext K} {t : TickOutput K} {o : FwOut K} (h : At s k y st r) (hk : k < s.run.nTicks)
    (htick : ControlLoop.tick s.fuel y.ctx ⟨ClosedLoop.reads s k (ClosedLoop.measure s y), s.fw.armTest⟩
      = some (ctx, t)) (ho : ClosedLoop.Replied k ctx t r' o) : Known s (4 * k + 8)
      ⟨Plant.after s k (tick s.craft s.run ⟨received (some (ClosedLoop.replyMsg s o)), .sent⟩ k st),
        .loop r', [], []⟩ := by
  obtain ⟨hgoes, hstops⟩ := h.same.reply hk ho
  have hloop : ClosedLoop.tick s y k
      = ClosedLoop.move s k y ctx (Wire.outDict ((ClosedLoop.shown ctx t.calls).map s.bits)) := by
    rw [ClosedLoop.tick, htick]
  rw [received, Option.getD_some]
  cases hmove : ClosedLoop.move s k y ctx (Wire.outDict ((ClosedLoop.shown ctx t.calls).map s.bits)) with
  | inr y' =>
    obtain ⟨st', hreply, hsame⟩ := hgoes y' hmove
    have hat : At s (k + 1) y' st' r' := ⟨h.before.next (hloop.trans hmove), hsame⟩
    have hstage : 4 * k + 8 = 4 * (k + 1) + 4 := by omega
    rw [hreply, Plant.after, hstage]
    by_cases hlast : k + 1 < s.run.nTicks
    · rw [hat.enter hlast]
      exact .before (k + 1) y' st' r' hlast hat
    · have hall : k + 1 = s.run.nTicks := by omega
      have hend : Plant.enter s (k + 1) st' = .bye byeMsg st' := by
        unfold Plant.enter
        rw [if_neg hlast, leave_eq]
      rw [hend]
      rw [hall] at hat ⊢
      exact .looped y' st' r' hat
  | inl stop =>
    obtain ⟨y', st', rfl, hreply, hcraft, hrows, haborted⟩ := hstops stop hmove
    have hrun := h.before.stop hk (hloop.trans hmove)
    have houtcome : Outcome s (.code SilProto.EXIT_NUMERICAL) st' := by
      rw [Outcome, hrun]
      exact ⟨rfl, haborted, hrows, hcraft⟩
    rw [hreply, Plant.after]
    exact .left _ _ st' r' [] (by omega) houtcome (.inr rfl)

/-- **Every move leads to the next stage**, so a session has no other way to go than through its stages. -/
theorem Known.next {i : Nat} {x x' : State σ F K} {side : Duplex.Side} {met : Met (List UInt8)}
    (h : Known s i x) (hmv : step s x side x' met) : Known s (i + 1) x' := by
  have hhello : PlantRunner.hello Wire.build (received (some helloMsg)) .sent = (some ackMsg, .ok ()) :=
    (Handshake.plant_hello Wire.build Wire.build 0 .sent).2 rfl
  have hack : SilHal.recvAck Wire.build (received (some ackMsg)) = .kOk :=
    (SilHal.recvAck_helloMsg Wire.build Wire.build 0).mpr rfl
  have hfirst := s.nTicks_pos
  cases h with
  | ready =>
    cases side with
    | left => cases hmv
    | right =>
      obtain rfl := Duplex.right_send hmv rfl rfl
      exact .asked
  | asked =>
    cases side with
    | right => cases hmv
    | left =>
      obtain rfl := Duplex.left_recv hmv rfl rfl
      rw [hhello]
      exact .answering
  | answering =>
    cases side with
    | right => cases hmv
    | left =>
      have hturn : Plant.greeted s (PlantRunner.hello Wire.build (.data helloMsg) (sending true)).2
          = .turn 0 (stateMsg s 0 (ClosedLoop.begin s)) (begin s.start) := by
        have hok : PlantRunner.hello Wire.build (.data helloMsg) (sending true) = (some ackMsg, .ok ()) :=
          hhello
        rw [hok]
        exact at_begin.enter hfirst
      obtain rfl := Duplex.left_send hmv rfl rfl
      rw [hturn]
      exact .answered
  | answered =>
    cases side with
    | left =>
      obtain rfl := Duplex.left_send hmv rfl rfl
      exact .early
    | right =>
      obtain rfl := Duplex.right_recv hmv rfl rfl
      rw [if_pos hack]
      exact .before 0 _ _ _ hfirst at_begin
  | early =>
    cases side with
    | left => cases hmv
    | right =>
      obtain rfl := Duplex.right_recv hmv rfl rfl
      rw [if_pos hack]
      exact .stated 0 _ _ _ hfirst at_begin
  | before k y st r hk h =>
    cases side with
    | right => cases hmv
    | left =>
      obtain rfl := Duplex.left_send hmv rfl rfl
      exact .stated k y st r hk h
  | stated k y st r hk h =>
    cases side with
    | left => cases hmv
    | right =>
      obtain rfl := Duplex.right_recv hmv rfl rfl
      exact h.turn hk
  | replying k y st r r' ctx t o hk h htick ho =>
    cases side with
    | left => cases hmv
    | right =>
      obtain rfl := Duplex.right_send hmv rfl rfl
      exact .replied k y st r r' ctx t o hk h htick ho
  | replied k y st r r' ctx t o hk h htick ho =>
    cases side with
    | right => cases hmv
    | left =>
      obtain rfl := Duplex.left_recv hmv rfl rfl
      exact h.reply hk htick ho
  | hung k st hk h => cases side <;> cases hmv
  | looped y st r h =>
    cases side with
    | right => cases hmv
    | left =>
      obtain rfl := Duplex.left_send hmv rfl rfl
      have hrun : ClosedLoop.run s = .inr y := h.before
      refine .left _ _ _ r [byeMsg] (by omega) ?_ (.inl rfl)
      rw [Outcome, hrun, finish_eq]
      exact ⟨rfl, rfl, h.same.rows, h.same.craft⟩
  | left i e st r queue hi h hqueue =>
    cases side with
    | left => cases hmv
    | right =>
      have hend (msg : Option (List UInt8)) (hmsg : msg = some byeMsg ∨ msg = none) :
          Known s (i + 1) ⟨.ended e (some st), Firmware.after s r
            (Runner.turn s.fuel s.fw.armTest r ⟨received msg, true⟩), [], []⟩ := by
        obtain ⟨bye, hbye⟩ := firmware_leave_eq r
        rw [turn_of_end r hmsg, Firmware.after, if_pos rfl, hbye]
        exact .leaving (i + 1) e st bye (by omega) h
      rcases hqueue with rfl | rfl
      · obtain rfl := Duplex.right_recv hmv rfl rfl
        exact hend _ (.inl rfl)
      · obtain rfl := Duplex.right_end hmv rfl rfl
        exact hend _ (.inr rfl)
  | leaving i e st msg hi h =>
    cases side with
    | left => cases hmv
    | right =>
      obtain rfl := Duplex.right_refused hmv rfl rfl
      exact .parted (i + 1) e st (by omega) h
  | parted i e st hi h => cases side <;> cases hmv

/-- A stage is one of at most `4 * nTicks + 8`. -/
theorem Known.le {i : Nat} {x : State σ F K} (h : Known s i x) : i ≤ 4 * s.run.nTicks + 7 := by
  cases h with
  | ready | asked | answering | answered | early => omega
  | before k | stated k | replying k | replied k | hung k => omega
  | looped | left | leaving | parted => omega

/-- The two programs at the end of a session: both have returned, or the firmware is in a control tick that
does not return and the plant waits for it. -/
def Settled (s : Setup σ F K) (x : State σ F K) : Prop :=
  match ClosedLoop.run s with
  | .inl .hangs => ∃ k st, x = ⟨.await k st, .hung, [], []⟩
  | _ => ∃ e st, x = ⟨.ended e (some st), .exited 0, [], []⟩ ∧ Outcome s e st

theorem Outcome.settled {e : Ended} {st : RunState σ F} (h : Outcome s e st) :
    Settled s ⟨.ended e (some st), .exited 0, [], []⟩ := by
  unfold Settled
  cases hrun : ClosedLoop.run s with
  | inr y => exact ⟨e, st, rfl, h⟩
  | inl stop =>
    cases stop with
    | hangs =>
      rw [Outcome, hrun] at h
      exact h.elim
    | diverges y => exact ⟨e, st, rfl, h⟩

/-- **Nobody waits for ever**: only at the end, or with a control tick that does not return, is there no
move. -/
theorem Known.settled {i : Nat} {x : State σ F K} (h : Known s i x)
    (hstill : ∀ side x' met, ¬ step s x side x' met) : Settled s x := by
  cases h with
  | ready => exact absurd rfl (hstill .right _ _)
  | asked => exact absurd rfl (hstill .left _ _)
  | answering => exact absurd rfl (hstill .left _ _)
  | answered => exact absurd rfl (hstill .left _ _)
  | early => exact absurd rfl (hstill .right _ _)
  | before => exact absurd rfl (hstill .left _ _)
  | stated => exact absurd rfl (hstill .right _ _)
  | replying => exact absurd rfl (hstill .right _ _)
  | replied => exact absurd rfl (hstill .left _ _)
  | looped => exact absurd rfl (hstill .left _ _)
  | left i e st r queue hi h hqueue =>
    rcases hqueue with rfl | rfl
    · exact absurd rfl (hstill .right _ _)
    · exact absurd rfl (hstill .right _ _)
  | leaving => exact absurd rfl (hstill .right _ _)
  | parted i e st hi h => exact h.settled
  | hung k st hk h =>
    rw [Settled, h]
    exact ⟨k, st, rfl⟩

/-- **What a session comes to**: it takes so many moves at most, wherever it is it can come to an end, and at
its end both programs have returned and the plant has the log and the craft of the closed loop, unless a
control tick does not return. -/
structure Concludes (s : Setup σ F K) : Prop where
  bounded : ∀ es x, Run (step s) init es x → es.length ≤ 4 * s.run.nTicks + 7
  ends : ∀ x, Reach (step s) init x →
    ∃ z, Reach (step s) x z ∧ ∀ side z' met, ¬ step s z side z' met
  outcome : ∀ x, Reach (step s) init x → (∀ side x' met, ¬ step s x side x' met) → Settled s x

/-- A session begins at the first of its stages. -/
theorem known_init : Known s 0 init := by
  rw [init, boot_eq]
  exact .ready

/-- The states of a session are those of some stage. -/
theorem known_of_reach {x : State σ F K} (h : Reach (step s) init x) : ∃ i, Known s i x := by
  obtain ⟨es, hrun⟩ := h
  exact ⟨_, hrun.stage known_init fun _ _ _ _ _ => Known.next⟩

/-- A plant that has returned leaves what the closed loop computes. -/
theorem Known.outcome {i : Nat} {x : State σ F K} (h : Known s i x) {e : Ended} {st : RunState σ F}
    (hended : x.left = .ended e (some st)) : Outcome s e st := by
  cases h with
  | left i e st r queue hi h | leaving i e st msg hi h | parted i e st hi h =>
    cases hended
    exact h
  | ready | asked | answering | answered | early | before | stated | replying | replied | hung | looped =>
    cases hended

/-- In every session whose plant has returned with a log, the plant has what the closed loop has. -/
theorem outcome_of_ended {x : State σ F K} (h : Reach (step s) init x) {e : Ended} {st : RunState σ F}
    (hended : x.left = .ended e (some st)) : Outcome s e st := by
  obtain ⟨i, hknown⟩ := known_of_reach h
  exact hknown.outcome hended

/-- The log of a plant that has returned is that of the closed loop. -/
theorem rows_of_ended {x : State σ F K} (h : Reach (step s) init x) {e : Ended} {st : RunState σ F}
    (hended : x.left = .ended e (some st)) : ∃ y, ClosedLoop.Stops s y ∧ st.rows = y.rows := by
  have houtcome := outcome_of_ended h hended
  unfold ClosedLoop.Stops
  cases hrun : ClosedLoop.run s with
  | inr y =>
    rw [Outcome, hrun] at houtcome
    exact ⟨y, .inl rfl, houtcome.2.2.1⟩
  | inl stop =>
    cases stop with
    | hangs =>
      rw [Outcome, hrun] at houtcome
      exact houtcome.elim
    | diverges y =>
      rw [Outcome, hrun] at houtcome
      exact ⟨y, .inr rfl, houtcome.2.2.1⟩

/-- A closed loop over all ticks is the outcome of some session. -/
theorem exists_ended {y : ClosedLoop σ F K} (h : ClosedLoop.run s = .inr y) :
    ∃ x e st, Reach (step s) init x ∧ x.left = .ended e (some st) ∧ st.rows = y.rows := by
  obtain ⟨x, hreach, hstill⟩ := Reach.rests (I := Known s) (fun _ _ => Known.le)
    (fun _ _ _ _ _ => Known.next) known_init
  obtain ⟨i, hknown⟩ := known_of_reach hreach
  have hsettled := hknown.settled hstill
  rw [Settled, h] at hsettled
  obtain ⟨e, st, rfl, houtcome⟩ := hsettled
  rw [Outcome, h] at houtcome
  exact ⟨_, e, st, hreach, rfl, houtcome.2.2.1⟩

/-- **Every session of the two programs concludes as the closed loop does.** -/
theorem session_concludes (s : Setup σ F K) : Concludes s where
  bounded es x hrun := by
    have hstage := (hrun.stage known_init fun _ _ _ _ _ => Known.next).le
    omega
  ends x h := by
    obtain ⟨i, hknown⟩ := known_of_reach h
    exact Reach.rests (I := Known s) (fun _ _ => Known.le) (fun _ _ _ _ _ => Known.next) hknown
  outcome x h hstill := by
    obtain ⟨i, hknown⟩ := known_of_reach h
    exact hknown.settled hstill

end Session

end DroneMini
