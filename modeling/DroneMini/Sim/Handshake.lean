import DroneMini.Lib.Run
import DroneMini.Plant.Runner

/-!
# The handshake of two builds

The greeting as a system of two parties: `SilHal::helloAck` as the client, and `plant.runner.run` or
`SilHal::serveHello` as the server, in builds of any version, period and sizes. Each direction is a queue
of messages. A receive takes the oldest message, or reports the end of the stream when there is none and
the peer has closed; a send fails when the peer has closed. A party that enters its loop stays, one that
does not closes. A server in its loop may send more messages at any time, so they may stand behind its ACK
before the client has read that.

`Agree` says that the two enter together, and with the same build only. With the plant as the server they
always agree; `SilHal::serveHello` does not compare what it receives (`agree_iff`).
-/

namespace DroneMini

namespace Handshake

open Wire

variable {K : Type}

/-! ## The system -/

/-- The two servers of the repository: the loop of the plant in Python, and `SilHal::serveHello` in C++. -/
inductive Server where
  | plant
  | serveHello
  deriving DecidableEq, Repr

/-- The two parties of a handshake: which server the client meets, and the build and the HAL of each. -/
structure Parties (K : Type) where
  server : Server
  clientBuild : Build
  serverBuild : Build
  clientHal : SilHal K
  serverHal : SilHal K

/-- Where a party is: before its first message, waiting for one, in its loop, or gone. -/
inductive Phase where
  | ready
  | waiting
  | entered
  | closed
  deriving DecidableEq, Repr

structure State where
  client : Phase
  server : Phase
  toServer : List (List UInt8)
  toClient : List (List UInt8)

/-- Both are connected, and the client is about to send its HELLO. -/
def init : State := ⟨.ready, .waiting, [], []⟩

/-- What a receive returns, and what is left of the queue; nothing while it blocks. -/
def receive (queue : List (List UInt8)) (peer : Phase) : Option (RecvOutcome × List (List UInt8)) :=
  match queue with
  | m :: rest => some (.data m, rest)
  | [] => if peer = .closed then some (.data [], []) else none

/-- What a send comes to: it fails once the peer has closed, and goes through before. -/
def sendTo (peer : Phase) : SendOutcome := if peer = .closed then .failed else .sent

/-- The phase after a greeting that is or is not a success. -/
def outcome (ok : Bool) : Phase := if ok then .entered else .closed

/-- What a server makes of a receive: the message it sends, and whether it enters its loop. -/
def answer (p : Parties K) (o : RecvOutcome) (s : SendOutcome) : Option (List UInt8) × Bool :=
  match p.server with
  | .plant =>
    let (ack, ended) := PlantRunner.hello p.serverBuild o s
    (ack, ended.isOk)
  | .serveHello =>
    let (r, ack, _) := p.serverHal.serveHello p.serverBuild o s
    (ack, r = .kOk)

inductive Move where
  /-- The client, which has not sent anything yet, sends its HELLO. -/
  | hello
  /-- The server takes a message or the end of the stream, answers it, and enters its loop or closes. -/
  | serve
  /-- The client takes a message or the end of the stream, and enters its loop or closes. -/
  | ack
  /-- The server, once in its loop, sends some message of it. -/
  | send (m : List UInt8)

/-- The messages that get through to the peer: the one there is, if the send succeeds. -/
def through (msg : Option (List UInt8)) (s : SendOutcome) : List (List UInt8) :=
  if s = .sent then msg.toList else []

/-- The state after a move; none where the party has nothing to do or its receive blocks. -/
def next (p : Parties K) (st : State) : Move → Option State
  | .hello =>
    if st.client = .ready then
      let s := sendTo st.server
      let (r, msg, _) := p.clientHal.sendHello p.clientBuild s
      if r = .kOk then some { st with client := .waiting, toServer := st.toServer ++ through msg s }
      else some { st with client := .closed }
    else none
  | .serve =>
    if st.server = .waiting then
      (receive st.toServer st.client).map fun (o, rest) =>
        let s := sendTo st.client
        let (msg, ok) := answer p o s
        { st with server := outcome ok, toServer := rest, toClient := st.toClient ++ through msg s }
    else none
  | .ack =>
    if st.client = .waiting then
      (receive st.toClient st.server).map fun (o, rest) =>
        { st with client := outcome (SilHal.recvAck p.clientBuild o = .kOk), toClient := rest }
    else none
  | .send m =>
    if st.server = .entered then some { st with toClient := st.toClient ++ [m] } else none

/-- The handshake as a transition system, in which each move that is possible may come next. -/
def step (p : Parties K) (st : State) (mv : Move) (st' : State) (_ : Unit) : Prop :=
  next p st mv = some st'

/-- A party has settled: it has entered its loop, or it is gone. -/
def Phase.Settled (ph : Phase) : Prop := ph = .entered ∨ ph = .closed

/-- **Agreement**: from every state of a run both parties can settle; once they have, the server is in its
loop if and only if the client is; and they are both in their loops with the same build only. -/
structure Agree (p : Parties K) : Prop where
  settles : ∀ st, Reach (step p) init st →
    ∃ st', Reach (step p) st st' ∧ st'.client.Settled ∧ st'.server.Settled
  same : ∀ st, Reach (step p) init st → st.client.Settled → st.server.Settled →
    (st.server = .entered ↔ st.client = .entered)
  builds : ∀ st, Reach (step p) init st → st.server = .entered → st.client = .entered →
    p.clientBuild = p.serverBuild

/-! ## The greetings of the two servers -/

/-- What `_recv_msg` makes of a greeting: its message at the same version, an error at another. -/
theorem recvMsgAt_helloMsg (ver : UInt8) (b : Build) (type : MsgType) (seq : UInt32) :
    (ver = b.ver → PlantRunner.recvMsgAt ver.toNat (.data (SilHal.helloMsg b type seq))
      = .ok (.ok (type.code.toNat, seq.toNat, (fillHello b).bytes))) ∧
    (ver ≠ b.ver → ∃ text, PlantRunner.recvMsgAt ver.toNat (.data (SilHal.helloMsg b type seq))
      = .ok (.error (.proto text))) := by
  have hlen : (fillHello b).bytes.length ≤ 65535 := by
    rw [SilHello.length_bytes]
    decide
  have hsize := SilHal.length_helloMsg b type seq
  have htake : (SilHal.helloMsg b type seq).take 4096 = SilHal.helloMsg b type seq :=
    List.take_of_length_le (by omega)
  have hempty : (SilHal.helloMsg b type seq).isEmpty = false := by
    rw [List.isEmpty_eq_false_iff, ← List.length_pos_iff]
    omega
  obtain ⟨-, hver, htype, -, hseq, -⟩ := packedAt_fields b.ver type.code seq hlen
  unfold PlantRunner.recvMsgAt
  simp only [htake, hempty, Bool.false_eq_true, if_false]
  constructor
  · rintro rfl
    have hok := SilProto.unpackMsgAt_ok_iff.mpr
      ⟨framedAt_packedAt b.ver type.code seq hlen, rfl, rfl, rfl⟩
    rw [htype, hseq, body_packedAt b.ver type.code seq hlen] at hok
    rw [SilHal.helloMsg, hok]
  · intro hne
    cases hm : SilProto.unpackMsgAt ver.toNat (SilHal.helloMsg b type seq) with
    | error e =>
      cases e with
      | protocolError text => exact ⟨text, rfl⟩
      | structError => exact absurd hm (PlantRunner.unpackMsgAt_ne_structError _ _)
    | ok m =>
      obtain ⟨typ, seq', payload⟩ := m
      have hframed := (SilProto.unpackMsgAt_ok_iff.mp hm).1
      exact absurd (UInt8.toNat_inj.mp (hframed.ver.symm.trans hver)) hne

/-- Two builds are the same when their versions and their greetings are. -/
theorem build_eq_iff {b c : Build} : b = c ↔ b.ver = c.ver ∧ (fillHello b).bytes = (fillHello c).bytes := by
  constructor
  · rintro rfl
    exact ⟨rfl, rfl⟩
  · rintro ⟨hver, hbytes⟩
    have hhello : fillHello b = fillHello c := by
      rw [← SilHello.ofBytes_bytes (fillHello b), hbytes, SilHello.ofBytes_bytes]
    cases b
    cases c
    simp_all [fillHello]

/-- **The plant goes on with the HELLO of its own build only**; it answers every HELLO of its version. -/
theorem plant_hello (b c : Build) (seq : UInt32) (o : SendOutcome) :
    (b.ver ≠ c.ver → PlantRunner.hello b (.data (SilHal.helloMsg c .kHello seq)) o
      = (none, .error (.code SilProto.EXIT_PROTO))) ∧
    (b.ver = c.ver → PlantRunner.hello b (.data (SilHal.helloMsg c .kHello seq)) .sent
      = (some (SilHal.helloMsg b .kAck 0),
        if c = b then .ok () else .error (.code SilProto.EXIT_PROTO))) := by
  obtain ⟨hsame, hother⟩ := recvMsgAt_helloMsg b.ver c .kHello seq
  constructor
  · intro hne
    obtain ⟨text, hrecv⟩ := hother hne
    rw [PlantRunner.hello, PlantRunner.helloAt, hrecv]
  · intro hver
    have htyp : (MsgType.kHello.code.toNat : Int) = SilProto.MsgType.HELLO := rfl
    have hsent : PlantRunner.sendAll (some (SilHal.helloMsg b .kAck 0)) .sent = .ok () := rfl
    have hown : c = b ↔ ¬ (Struct.Value.int (fillHello c).dtUs.toNat ≠ .int b.dtUs.toNat ∨
        (SilProto.sizeValues (fillHello c)).map Struct.Value.int
          ≠ (SilProto.sizeValues (fillHello b)).map Struct.Value.int) := by
      have hiff := @SilProto.unpackHello_eq_iff (fillHello b) (fillHello c).bytes
      rw [SilProto.unpackHello_eq, Option.some.injEq, Prod.mk.injEq] at hiff
      rw [build_eq_iff, and_iff_right hver.symm, ← hiff, not_or, not_not, not_not]
      rfl
    rw [PlantRunner.hello, PlantRunner.helloAt, PlantRunner.ackMsgAt_eq, hsame hver]
    dsimp only
    rw [if_neg (not_not.mpr htyp), SilProto.unpackHello_eq, hsent]
    dsimp only
    by_cases hbuild : c = b
    · rw [if_neg (hown.mp hbuild), if_pos hbuild]
    · rw [if_pos (not_not.mp fun h => hbuild (hown.mpr h)), if_neg hbuild]

/-- `SilHal::serveHello` goes on with every HELLO of its own version, whatever sizes it names, and fails on
one of another version. -/
theorem serveHello_hello (hal : SilHal K) (b c : Build) (seq : UInt32) (o : SendOutcome) :
    (b.ver ≠ c.ver → hal.serveHello b (.data (SilHal.helloMsg c .kHello seq)) o = (.kClosed, none, hal)) ∧
    (b.ver = c.ver → hal.serveHello b (.data (SilHal.helloMsg c .kHello seq)) .sent
      = (.kOk, some (SilHal.helloMsg b .kAck hal.seq), hal.nextSeq.1)) := by
  obtain ⟨hsame, hother⟩ := SilHal.recvIntoAt_helloMsg b.ver c .kHello seq
  constructor
  · intro hne
    rw [SilHal.serveHello, hother hne]
  · intro hver
    obtain ⟨h, hrecv, htype, hlen⟩ := hsame hver
    rw [SilHal.serveHello, hrecv]
    dsimp only
    rw [if_neg (by simp [htype, hlen]), SilHal.sendMsgAt_hello]
    rfl

/-! ## What a handshake comes to -/

section Parties
variable (p : Parties K)

/-- The two messages of a handshake: the HELLO that the client sends and the ACK that the server answers it
with. -/
def hello : List UInt8 := SilHal.helloMsg p.clientBuild .kHello p.clientHal.seq

def ack : List UInt8 :=
  SilHal.helloMsg p.serverBuild .kAck (match p.server with | .plant => 0 | .serveHello => p.serverHal.seq)

/-- The server enters its loop: the versions are the same, and so are the builds if it compares them. -/
def ServerEnters : Prop :=
  p.serverBuild.ver = p.clientBuild.ver ∧ (p.server = .plant → p.clientBuild = p.serverBuild)

instance : Decidable (ServerEnters p) :=
  inferInstanceAs (Decidable (_ ∧ (p.server = .plant → p.clientBuild = p.serverBuild)))

/-- Where the server ends up, what it answers, and where the client ends up. -/
def serverEnd : Phase := outcome (ServerEnters p)

def answers : List (List UInt8) := if p.serverBuild.ver = p.clientBuild.ver then [ack p] else []

def clientEnd : Phase := outcome (p.clientBuild = p.serverBuild)

/-- What the server makes of the client's HELLO: an ACK if the versions agree, and whether it enters its
loop. -/
theorem answer_hello : answer p (.data (hello p)) .sent
    = (if p.serverBuild.ver = p.clientBuild.ver then some (ack p) else none, decide (ServerEnters p)) := by
  obtain ⟨server, c, b, clientHal, serverHal⟩ := p
  cases server with
  | plant =>
    obtain ⟨hother, hsame⟩ := plant_hello b c clientHal.seq .sent
    unfold answer hello ack ServerEnters
    by_cases hver : b.ver = c.ver
    · simp only [hsame hver, hver]
      by_cases hbuild : c = b
      · simp [hbuild, Except.isOk, Except.toBool]
      · simp [hbuild, Except.isOk, Except.toBool]
    · simp [hother hver, hver, Except.isOk, Except.toBool]
  | serveHello =>
    obtain ⟨hother, hsame⟩ := serveHello_hello serverHal b c clientHal.seq .sent
    unfold answer hello ack ServerEnters
    by_cases hver : b.ver = c.ver
    · simp [hsame hver, hver]
    · simp [hother hver, hver]

/-- The messages that the server's answer puts on the way: an ACK if the versions agree, and otherwise
none. -/
theorem through_answer :
    through (if p.serverBuild.ver = p.clientBuild.ver then some (ack p) else none) .sent = answers p := by
  rw [through, if_pos rfl, answers]
  split_ifs <;> rfl

/-- What the client makes of the first message of the server. -/
theorem recvAck_ack :
    outcome (SilHal.recvAck p.clientBuild (.data (ack p)) = .kOk) = clientEnd p := by
  rw [clientEnd, ack]
  simp only [SilHal.recvAck_helloMsg]

/-- The states that a handshake can be in: nothing sent, the HELLO on its way, answered, and settled. -/
inductive Known : State → Prop
  | ready : Known init
  | asked : Known ⟨.waiting, .waiting, [hello p], []⟩
  | answered (more : List (List UInt8)) (h : more ≠ [] → ServerEnters p) :
      Known ⟨.waiting, serverEnd p, [], answers p ++ more⟩
  | settled (queue : List (List UInt8)) : Known ⟨clientEnd p, serverEnd p, [], queue⟩

variable {p}

/-! ## The moves -/

/-- From the start, the client's move puts its HELLO on the way to the server. -/
theorem next_hello : next p init .hello = some ⟨.waiting, .waiting, [hello p], []⟩ := by
  have hsend : p.clientHal.sendHello p.clientBuild .sent
      = (.kOk, some (hello p), p.clientHal.nextSeq.1) := SilHal.sendMsgAt_hello _ _ _ _
  have hopen : sendTo init.server = .sent := rfl
  rw [next, if_pos (show init.client = .ready from rfl), hopen]
  dsimp only
  rw [hsend]
  rfl

/-- With the HELLO on its way, the server's move takes it and puts the answer on the way back. -/
theorem next_serve : next p ⟨.waiting, .waiting, [hello p], []⟩ .serve
    = some ⟨.waiting, serverEnd p, [], answers p ++ []⟩ := by
  have hopen : sendTo .waiting = .sent := rfl
  rw [next]
  dsimp only
  rw [if_pos rfl, receive, Option.map_some, hopen]
  dsimp only
  rw [answer_hello, through_answer, List.append_nil]
  rfl

/-- A client that has something to receive takes it, and enters its loop exactly if `recvAck` accepts it. -/
theorem next_ack {st : State} {o : RecvOutcome} {rest : List (List UInt8)} (hclient : st.client = .waiting)
    (hrecv : receive st.toClient st.server = some (o, rest)) : next p st .ack
      = some { st with
          client := outcome (SilHal.recvAck p.clientBuild o = .kOk)
          toClient := rest } := by
  rw [next, if_pos hclient, hrecv, Option.map_some]

/-- Once the server has answered, the client receives the ACK or the end of the stream, which takes it where
the builds decide that it ends. -/
theorem receive_answers {more : List (List UInt8)} (h : more ≠ [] → ServerEnters p) :
    ∃ o rest, receive (answers p ++ more) (serverEnd p) = some (o, rest) ∧
      outcome (SilHal.recvAck p.clientBuild o = .kOk) = clientEnd p := by
  by_cases hver : p.serverBuild.ver = p.clientBuild.ver
  · refine ⟨.data (ack p), more, ?_, recvAck_ack p⟩
    rw [answers, if_pos hver]
    rfl
  · -- the server has refused: there is nothing to read and nothing to come
    have hrefused : ¬ ServerEnters p := fun hs => hver hs.1
    have hbuild : p.clientBuild ≠ p.serverBuild := by
      intro heq
      exact hver (congrArg Build.ver heq.symm)
    have hnil : more = [] := by
      by_contra hne
      exact hrefused (h hne)
    refine ⟨.data [], [], ?_, ?_⟩
    · rw [answers, if_neg hver, hnil, serverEnd, decide_eq_false hrefused]
      rfl
    · rw [clientEnd, decide_eq_false hbuild]
      rfl

theorem outcome_settled (ok : Bool) : (outcome ok).Settled := by
  cases ok
  · exact .inr rfl
  · exact .inl rfl

theorem outcome_eq_entered {ok : Bool} : outcome ok = .entered ↔ ok = true := by
  cases ok <;> simp [outcome]

theorem Phase.Settled.ne {ph : Phase} (h : ph.Settled) : ph ≠ .ready ∧ ph ≠ .waiting := by
  rcases h with rfl | rfl <;> decide

/-- When a move is possible; a message of the loop goes to the end of its queue. -/
theorem next_enabled {st st' : State} {mv : Move} (h : next p st mv = some st') :
    match mv with
    | .hello => st.client = .ready
    | .serve => st.server = .waiting
    | .ack => st.client = .waiting
    | .send m => st.server = .entered ∧ st' = { st with toClient := st.toClient ++ [m] } := by
  cases mv with
  | hello | serve | ack =>
    by_contra hnot
    rw [next, if_neg hnot] at h
    cases h
  | send m =>
    rw [next] at h
    split_ifs at h with hentered
    cases h
    exact ⟨hentered, rfl⟩

/-- **What one move makes of a state of the handshake.** -/
theorem Known.next {st st' : State} {mv : Move} (h : Known p st) (hmv : next p st mv = some st') :
    Known p st' := by
  have henabled := next_enabled hmv
  have hserver : (serverEnd p).Settled := outcome_settled _
  have hclient : (clientEnd p).Settled := outcome_settled _
  cases h with
  | ready =>
    cases mv with
    | hello =>
      rw [next_hello] at hmv
      cases hmv
      exact .asked
    | serve => cases hmv
    | ack => cases henabled
    | send => cases henabled.1
  | asked =>
    cases mv with
    | hello | ack => cases hmv
    | serve =>
      rw [next_serve] at hmv
      cases hmv
      exact .answered [] (by simp)
    | send => cases henabled.1
  | answered more hmore =>
    cases mv with
    | hello => cases henabled
    | serve => exact absurd henabled hserver.ne.2
    | ack =>
      obtain ⟨o, rest, hrecv, hend⟩ := receive_answers hmore
      rw [next_ack rfl hrecv, hend] at hmv
      cases hmv
      exact .settled rest
    | send m =>
      obtain ⟨hentered, rfl⟩ := henabled
      have henters : ServerEnters p := of_decide_eq_true (outcome_eq_entered.mp hentered)
      dsimp only
      rw [List.append_assoc]
      exact .answered (more ++ [m]) fun _ => henters
  | settled queue =>
    cases mv with
    | hello => exact absurd henabled hclient.ne.1
    | serve => exact absurd henabled hserver.ne.2
    | ack => exact absurd henabled hclient.ne.2
    | send m =>
      obtain ⟨-, rfl⟩ := henabled
      exact .settled (queue ++ [m])

/-- **Every state of a run is one of the handshake.** -/
theorem known_of_reach {st : State} (h : Reach (step p) init st) : Known p st :=
  h.invariant .ready fun _ _ _ _ hknown hmv => hknown.next hmv

/-- Every state of the handshake can settle: what is left of greeting, answer and acknowledgement happens. -/
theorem Known.settles {st : State} (h : Known p st) :
    ∃ queue, Reach (step p) st ⟨clientEnd p, serverEnd p, [], queue⟩ := by
  have hanswered (more : List (List UInt8)) (hmore : more ≠ [] → ServerEnters p) :
      ∃ queue, Reach (step p) ⟨.waiting, serverEnd p, [], answers p ++ more⟩
        ⟨clientEnd p, serverEnd p, [], queue⟩ := by
    obtain ⟨o, rest, hrecv, hend⟩ := receive_answers hmore
    have hack : step p ⟨.waiting, serverEnd p, [], answers p ++ more⟩ .ack
        ⟨clientEnd p, serverEnd p, [], rest⟩ () := by
      rw [step, next_ack rfl hrecv, hend]
    exact ⟨rest, .single hack⟩
  have hasked : ∃ queue, Reach (step p) ⟨.waiting, .waiting, [hello p], []⟩
      ⟨clientEnd p, serverEnd p, [], queue⟩ := by
    have hserve : step p ⟨.waiting, .waiting, [hello p], []⟩ .serve
        ⟨.waiting, serverEnd p, [], answers p ++ []⟩ () := next_serve
    obtain ⟨queue, hreach⟩ := hanswered [] (by simp)
    exact ⟨queue, .trans (.single hserve) hreach⟩
  cases h with
  | ready =>
    have hhello : step p init .hello ⟨.waiting, .waiting, [hello p], []⟩ () := next_hello
    obtain ⟨queue, hreach⟩ := hasked
    exact ⟨queue, .trans (.single hhello) hreach⟩
  | asked => exact hasked
  | answered more hmore => exact hanswered more hmore
  | settled queue => exact ⟨queue, .refl _⟩

/-- When both parties have settled, each is where the builds alone decide that it ends. -/
theorem Known.ends {st : State} (h : Known p st) (hclient : st.client.Settled)
    (hserver : st.server.Settled) : st.client = clientEnd p ∧ st.server = serverEnd p := by
  cases h with
  | ready => exact absurd rfl hclient.ne.1
  | asked | answered => exact absurd rfl hclient.ne.2
  | settled queue => exact ⟨rfl, rfl⟩

/-! ## Agreement -/

variable (p)

/-- The parties agree when the server goes on with the build of the client only. -/
theorem agree_iff_enters : Agree p ↔ (ServerEnters p ↔ p.clientBuild = p.serverBuild) := by
  have hserverEnd : serverEnd p = .entered ↔ ServerEnters p := outcome_eq_entered.trans decide_eq_true_iff
  have hclientEnd : clientEnd p = .entered ↔ p.clientBuild = p.serverBuild :=
    outcome_eq_entered.trans decide_eq_true_iff
  constructor
  · intro h
    obtain ⟨queue, hreach⟩ := (Known.ready (p := p)).settles
    have hsame := h.same _ hreach (outcome_settled _) (outcome_settled _)
    exact hserverEnd.symm.trans (hsame.trans hclientEnd)
  · intro h
    refine ⟨fun st hst => ?_, fun st hst hclient hserver => ?_, fun st hst hserver hclient => ?_⟩
    · obtain ⟨queue, hreach⟩ := (known_of_reach hst).settles
      exact ⟨_, hreach, outcome_settled _, outcome_settled _⟩
    · obtain ⟨hc, hs⟩ := (known_of_reach hst).ends hclient hserver
      rw [hc, hs]
      exact hserverEnd.trans (h.trans hclientEnd.symm)
    · obtain ⟨hc, -⟩ := (known_of_reach hst).ends (.inl hclient) (.inl hserver)
      exact hclientEnd.mp (hc.symm.trans hclient)

/-- **The two parties agree exactly when the server compares what it receives, or has nothing to compare
it for**: a client of another version is not understood, and one of the same build is welcome. -/
theorem agree_iff : Agree p ↔
    p.server = .plant ∨ p.clientBuild.ver ≠ p.serverBuild.ver ∨ p.clientBuild = p.serverBuild := by
  rw [agree_iff_enters, ServerEnters]
  by_cases hbuild : p.clientBuild = p.serverBuild
  · simp [hbuild]
  · by_cases hver : p.clientBuild.ver = p.serverBuild.ver
    · cases hserver : p.server <;> simp [hbuild, hver]
    · have hver' : p.serverBuild.ver ≠ p.clientBuild.ver := fun h => hver h.symm
      simp [hbuild, hver, hver']

end Parties

/-- Two parties that do not fit: a client whose `SilImu` has another size meets `SilHal::serveHello`. -/
def mismatched : Parties ℚ where
  server := .serveHello
  clientBuild := { build with sizes := ![48, 26, 16, 87, 40, 88, 14] }
  serverBuild := build
  clientHal := SilHal.new
  serverHal := SilHal.new

/-- The server enters its loop with a client of other sizes, which refuses it. -/
theorem not_agree : ¬ ∀ p : Parties ℚ, Agree p := by
  intro h
  have hagree := (agree_iff_enters mismatched).mp (h mismatched)
  have hsizes : mismatched.clientBuild ≠ mismatched.serverBuild := by decide
  exact hsizes (hagree.mp ⟨rfl, nofun⟩)

end Handshake

end DroneMini
