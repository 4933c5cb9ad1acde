import DroneMini.Sim.Session

/-!
# Each party of a session is its program

The parties of `Session` take a program apart into its sends and receives. Here a party runs alone, against
anything that a peer can do: the list of what it met is the only input. Read as a script of its program
(`plantScript`, `firmwareScript`), that list makes the program end as the party does (`session_programs`).

Both proofs keep one invariant along the run of the party (`Plant.Real`, `Firmware.Real`): its program, on the
script of what was met so far and of anything after it, has come to the same place.
-/

namespace DroneMini

namespace Session

open PlantRunner

variable {σ F K : Type} [Field K] [LinearOrder K] [FloatEnv K]

/-! ## Scripts of what was met -/

/-- What the receive at a place of the list brought. A receive that is not there fails. -/
def heardAt (mets : List (Met (List UInt8))) (i : Nat) : RecvOutcome :=
  match mets[i]? with
  | some (.got msg) => received msg
  | _ => .failed

/-- What became of the send at a place of the list. A send that is not there fails. -/
def sentAt (mets : List (Met (List UInt8))) (i : Nat) : SendOutcome :=
  match mets[i]? with
  | some (.sent ok) => sending ok
  | _ => .failed

/-- The exchange of a tick of the plant, which sends first: the HELLO and the ACK are before it, and two moves
for each earlier tick. -/
def plantTurn (mets : List (Met (List UInt8))) (k : Nat) : Exchange :=
  ⟨heardAt mets (2 * k + 3), sentAt mets (2 * k + 2)⟩

/-- What the plant met, as a script of `run`. The goodbye is the last move. -/
def plantScript (mets : List (Met (List UInt8))) : FwScript where
  hello := heardAt mets 0
  ack := sentAt mets 1
  turns := plantTurn mets
  bye := sentAt mets (mets.length - 1)

/-- The exchange of a turn of the firmware, which receives first. -/
def firmwareTurn (mets : List (Met (List UInt8))) (k : Nat) : Exchange :=
  ⟨heardAt mets (2 * k + 2), sentAt mets (2 * k + 3)⟩

/-- What the firmware met, as a script of `main` with a server that accepts the connection. -/
def firmwareScript (mets : List (Met (List UInt8))) : Script where
  socket := true
  name := []
  connect _ := true
  hello := sentAt mets 0
  ack := heardAt mets 1
  turns := (List.range ((mets.length - 1) / 2)).map (firmwareTurn mets)

section At
variable {mets : List (Met (List UInt8))} {i : Nat}

/-- A receive that was met is heard as the message that it got, or as the end of the stream. -/
theorem heardAt_of_got {msg : Option (List UInt8)} (h : mets[i]? = some (.got msg)) :
    heardAt mets i = received msg := by
  rw [heardAt, h]

/-- A send that was met is known to have gone out or not. -/
theorem sentAt_of_sent {ok : Bool} (h : mets[i]? = some (.sent ok)) : sentAt mets i = sending ok := by
  rw [sentAt, h]

/-- A receive that was not met yet counts as one that failed. -/
theorem heardAt_of_le (h : mets.length ≤ i) : heardAt mets i = .failed := by
  rw [heardAt, List.getElem?_eq_none h]

/-- A send that was not met yet counts as one that failed. -/
theorem sentAt_of_le (h : mets.length ≤ i) : sentAt mets i = .failed := by
  rw [sentAt, List.getElem?_eq_none h]

/-- What was met stays where it is when more is met. -/
theorem met_append {m : Met (List UInt8)} (h : mets[i]? = some m) (later : List (Met (List UInt8))) :
    (mets ++ later)[i]? = some m := by
  rw [List.getElem?_append_left (List.getElem?_eq_some_iff.mp h).1, h]

/-- The last thing that was met stands at the end of the list. -/
theorem met_concat (m : Met (List UInt8)) (h : mets.length = i) : (mets ++ [m])[i]? = some m := by
  rw [← h, List.getElem?_append_right (Nat.le_refl _), Nat.sub_self]
  rfl

end At

/-! ## The plant -/

variable (s : Setup σ F K)

/-- On a script of what was met and of anything after it, `run` passes the greeting and reaches a tick. -/
def Reaches (mets : List (Met (List UInt8))) (k : Nat) (st : RunState σ F) : Prop :=
  ∀ later, (PlantRunner.hello Wire.build (heardAt (mets ++ later) 0) (sentAt (mets ++ later) 1)).2 = .ok () ∧
    loop s.craft s.run (plantTurn (mets ++ later)) (begin s.start) k = .inr st

/-- A plant that is where `run` is on the script of what the plant met. -/
def Plant.Real (mets : List (Met (List UInt8))) : Plant σ F → Prop
  | .hello => mets = []
  | .answer _ heard => ∃ msg, mets = [.got msg] ∧ heard = received msg
  | .turn k _ st => mets.length = 2 * k + 2 ∧ k < s.run.nTicks ∧ Reaches s mets k st
  | .await k st => mets.length = 2 * k + 3 ∧ mets[2 * k + 2]? = some (.sent true) ∧ k < s.run.nTicks ∧
      Reaches s mets k st
  | .bye _ st => ∀ later bye, run s.craft s.run { plantScript (mets ++ later) with bye } s.start
      = ((finish bye st).1, some (finish bye st).2)
  | .ended e st => run s.craft s.run (plantScript mets) s.start = (e, st)

variable {s} {mets : List (Met (List UInt8))}

omit [Field K] [LinearOrder K] [FloatEnv K] in
/-- A tick that `run` reaches on what was met is still reached when more is met. -/
theorem Reaches.append {k : Nat} {st : RunState σ F} (h : Reaches s mets k st)
    (more : List (Met (List UInt8))) : Reaches s (mets ++ more) k st := by
  intro later
  rw [List.append_assoc]
  exact h (more ++ later)

omit [Field K] [LinearOrder K] [FloatEnv K] in
/-- A `break` leads the plant to the goodbye, where it is again as `run` is on the script. -/
theorem Plant.real_leave {st : RunState σ F}
    (h : ∀ later bye, run s.craft s.run { plantScript (mets ++ later) with bye } s.start
      = (Left.ending bye .brk, some (Left.leave st .brk))) : Plant.Real s mets (Plant.leave st) := by
  rw [leave_eq]
  intro later bye
  rw [h later bye, finish_eq]
  rfl

omit [Field K] [LinearOrder K] [FloatEnv K] in
/-- Before a tick, or after the last one, the plant is where `run` is. -/
theorem Plant.real_enter {k : Nat} {st : RunState σ F} (hlen : mets.length = 2 * k + 2)
    (hk : k ≤ s.run.nTicks) (h : Reaches s mets k st) : Plant.Real s mets (Plant.enter s k st) := by
  unfold Plant.enter
  split_ifs with hlt
  · cases hmsg : Plant.stateOf s k st with
    | some msg => exact ⟨hlen, hlt, h⟩
    | none =>
      obtain ⟨hhello, hloop⟩ := h []
      obtain ⟨ch, hch⟩ := channels_raw s.run k
      have htick : tick s.craft s.run (plantTurn mets k) k st
          = .inl (.ended (.raised .structError), measured s.craft st) := by
        unfold Plant.stateOf at hmsg
        unfold tick
        dsimp only at hmsg ⊢
        rw [hch, hmsg]
        rfl
      rw [List.append_nil] at hhello hloop
      exact run_of_left (s := plantScript mets) hhello hlt hloop htick
  · obtain rfl : k = s.run.nTicks := by omega
    exact Plant.real_leave fun later bye =>
      run_of_complete (s := { plantScript (mets ++ later) with bye }) (h later).1 (h later).2

omit [Field K] [LinearOrder K] [FloatEnv K] in
/-- After a tick whose exchange was met the plant is where `run` is. -/
theorem Plant.real_after {k : Nat} {st : RunState σ F} {x : Exchange} (hlen : mets.length = 2 * (k + 1) + 2)
    (hk : k < s.run.nTicks) (h : Reaches s mets k st) (hx : ∀ later, plantTurn (mets ++ later) k = x) :
    Plant.Real s mets (Plant.after s k (tick s.craft s.run x k st)) := by
  have htick (later : List (Met (List UInt8))) : tick s.craft s.run (plantTurn (mets ++ later) k) k st
      = tick s.craft s.run x k st := by rw [hx later]
  cases hres : tick s.craft s.run x k st with
  | inr st' =>
    refine Plant.real_enter hlen hk fun later => ⟨(h later).1, ?_⟩
    rw [loop, List.range_succ]
    exact (runUntil_append (h later).2).trans (runUntil_cons_inr ((htick later).trans hres))
  | inl left =>
    obtain ⟨l, st'⟩ := left
    cases l with
    | brk =>
      exact Plant.real_leave fun later bye => run_of_left (s := { plantScript (mets ++ later) with bye })
        (h later).1 hk (h later).2 ((htick later).trans hres)
    | ended e =>
      have hnow := h []
      have htick := htick []
      rw [List.append_nil] at hnow htick
      exact run_of_left (s := plantScript mets) hnow.1 hk hnow.2 (htick.trans hres)

omit [Field K] [LinearOrder K] [FloatEnv K] in
/-- After a tick whose STATE message does not go out the plant is where `run` is. -/
theorem Plant.real_unsent {k : Nat} {st : RunState σ F} (hk : k < s.run.nTicks) (h : Reaches s mets k st)
    (hturn : plantTurn mets k = ⟨.failed, .failed⟩) :
    Plant.Real s mets (Plant.after s k (tick s.craft s.run ⟨.failed, .failed⟩ k st)) := by
  obtain ⟨e, he⟩ : ∃ e, tick s.craft s.run ⟨.failed, .failed⟩ k st
      = .inl (.ended (.raised e), measured s.craft st) := tick_of_unsent (by simp)
  obtain ⟨hhello, hloop⟩ := h []
  rw [List.append_nil] at hhello hloop
  have htick : tick s.craft s.run (plantTurn mets k) k st = .inl (.ended (.raised e), measured s.craft st) := by
    rw [hturn, he]
  rw [he]
  exact run_of_left (s := plantScript mets) hhello hk hloop htick

/-- A HELLO that is not answered ends the run, whatever would become of an answer. -/
theorem hello_of_none {r : RecvOutcome} {o : SendOutcome} (h : (PlantRunner.hello Wire.build r o).1 = none) :
    ∃ e, ∀ o', PlantRunner.hello Wire.build r o' = (none, .error e) := by
  unfold PlantRunner.hello helloAt at h ⊢
  rw [ackMsgAt_eq] at h ⊢
  cases hrecv : recvMsgAt Wire.build.ver.toNat r with
  | error e => exact ⟨_, fun _ => rfl⟩
  | ok res =>
    cases res with
    | error e => exact ⟨_, fun _ => rfl⟩
    | ok m =>
      obtain ⟨typ, seq, body⟩ := m
      simp only [hrecv] at h ⊢
      by_cases htyp : typ ≠ SilProto.MsgType.HELLO
      · simp only [if_pos htyp]
        exact ⟨_, fun _ => rfl⟩
      · simp only [if_neg htyp] at h ⊢
        cases hbody : SilProto.unpackHello body with
        | none => exact ⟨_, fun _ => rfl⟩
        | some p =>
          obtain ⟨dtUs, sizes⟩ := p
          rw [hbody] at h
          dsimp only at h
          split_ifs at h
          cases hsend : sendAll (some (SilHal.helloMsg Wire.build .kAck 0)) o with
          | error e =>
            rw [hsend] at h
            cases h
          | ok u =>
            rw [hsend] at h
            cases h

omit [Field K] [LinearOrder K] [FloatEnv K] in
/-- **Whatever the plant meets next, it stays where `run` is.** -/
theorem Plant.real_step {p p' : Plant σ F} {met : Met (List UInt8)} (h : Plant.Real s mets p)
    (hstep : (Plant.act s p).after met = some p') : Plant.Real s (mets ++ [met]) p' := by
  cases p with
  | hello =>
    cases met with
    | sent ok => cases hstep
    | got msg =>
      cases hstep
      obtain rfl : mets = [] := h
      dsimp only
      split
      · next heq => exact ⟨msg, rfl, rfl⟩
      · next res heq =>
        obtain ⟨e, he⟩ := hello_of_none (congrArg Prod.fst heq)
        obtain rfl : res = .error e := congrArg Prod.snd (heq.symm.trans (he .sent))
        show run s.craft s.run (plantScript [.got msg]) s.start = (e, none)
        have hres : (PlantRunner.hello Wire.build (plantScript [.got msg]).hello
            (plantScript [.got msg]).ack).2 = .error e := congrArg Prod.snd (he _)
        rw [run_eq, hres]
  | answer ack heard =>
    cases met with
    | got msg => cases hstep
    | sent ok =>
      cases hstep
      obtain ⟨msg, rfl, rfl⟩ := h
      dsimp only
      cases hres : (PlantRunner.hello Wire.build (received msg) (sending ok)).2 with
      | error e =>
        show run s.craft s.run (plantScript [.got msg, .sent ok]) s.start = (e, none)
        have hres' : (PlantRunner.hello Wire.build (plantScript [.got msg, .sent ok]).hello
            (plantScript [.got msg, .sent ok]).ack).2 = .error e := hres
        rw [run_eq, hres']
      | ok u =>
        have hreach : Reaches s [.got msg, .sent ok] 0 (begin s.start) := fun later => ⟨hres, rfl⟩
        exact Plant.real_enter rfl (Nat.zero_le _) hreach
  | turn k msg st =>
    cases met with
    | got msg => cases hstep
    | sent ok =>
      cases hstep
      obtain ⟨hlen, hk, hreach⟩ := h
      have hmet := met_concat (.sent ok) hlen
      cases ok with
      | true => exact ⟨by rw [List.length_append, hlen]; rfl, hmet, hk, hreach.append _⟩
      | false =>
        -- the STATE message does not go out, and no receive follows
        have hturn : plantTurn (mets ++ [.sent false]) k = ⟨.failed, .failed⟩ := by
          rw [plantTurn, sentAt_of_sent hmet, heardAt_of_le (by rw [List.length_append, hlen]; rfl)]
          rfl
        exact Plant.real_unsent hk (hreach.append _) hturn
  | await k st =>
    cases met with
    | sent ok => cases hstep
    | got msg =>
      cases hstep
      obtain ⟨hlen, hsent, hk, hreach⟩ := h
      refine Plant.real_after ?_ hk (hreach.append _) fun later => ?_
      · rw [List.length_append, hlen]
        rfl
      · rw [plantTurn, heardAt_of_got (met_append (met_concat _ hlen) later),
          sentAt_of_sent (met_append (met_append hsent _) later)]
        rfl
  | bye msg st =>
    cases met with
    | got msg => cases hstep
    | sent ok =>
      cases hstep
      have hbye : (plantScript (mets ++ [.sent ok])).bye = sending ok := by
        rw [plantScript, List.length_append]
        exact sentAt_of_sent (met_concat _ rfl)
      have hrun := h [.sent ok] (sending ok)
      rw [← hbye] at hrun
      show run s.craft s.run (plantScript (mets ++ [.sent ok])) s.start
        = ((finish (sending ok) st).1, some (finish (sending ok) st).2)
      rw [← hbye]
      exact hrun
  | ended e st => cases met <;> cases hstep

/-! ## The firmware -/

variable (s)

/-- On a script of what was met and of anything after it, `main` passes the greeting and comes to a state of its
loop after a number of turns. -/
def Arrives (mets : List (Met (List UInt8))) (k : Nat) (r : Runner K) : Prop :=
  ∀ later, sentAt (mets ++ later) 0 = .sent ∧ Runner.hearAck (heardAt (mets ++ later) 1) = none ∧
    runUntil (Runner.body s.fuel s.fw.armTest) (Runner.start s.fw)
      ((List.range k).map (firmwareTurn (mets ++ later))) = .inr r

/-- A firmware that is where `main` is on the script of what the firmware met. -/
def Firmware.Real (mets : List (Met (List UInt8))) : Firmware K → Prop
  | .hello _ hal => mets = [] ∧ hal = SilHal.new.nextSeq.1
  | .greeted hal => mets = [.sent true] ∧ hal = SilHal.new.nextSeq.1
  | .loop r => ∃ k, mets.length = 2 * k + 2 ∧ Arrives s mets k r
  | .reply _ r' => ∃ k r msg o, mets.length = 2 * k + 3 ∧ mets[2 * k + 2]? = some (.got msg) ∧
      Arrives s mets k r ∧ Runner.turn s.fuel s.fw.armTest r ⟨received msg, true⟩ = some (.reply r' o)
  | .bye _ => ∀ met, Runner.main s.fuel s.fw (firmwareScript (mets ++ [met])) = .inl (some 0)
  | .exited code => Runner.main s.fuel s.fw (firmwareScript mets) = .inl (some code)
  | .hung => Runner.main s.fuel s.fw (firmwareScript mets) = .inl none

variable {s}

/-- A turn that `main` comes to on what was met is still come to when more is met. -/
theorem Arrives.append {k : Nat} {r : Runner K} (h : Arrives s mets k r) (more : List (Met (List UInt8))) :
    Arrives s (mets ++ more) k r := by
  intro later
  rw [List.append_assoc]
  exact h (more ++ later)

/-- On a script whose greeting succeeds, `main` is its loop over the turns of the script. -/
theorem main_of_greeted (hsent : sentAt mets 0 = .sent) (hack : Runner.hearAck (heardAt mets 1) = none) :
    Runner.main s.fuel s.fw (firmwareScript mets) = runUntil (Runner.body s.fuel s.fw.armTest)
      (Runner.start s.fw) ((List.range ((mets.length - 1) / 2)).map (firmwareTurn mets)) := by
  have hretry : ¬ ∀ i < SilHal.kConnectRetries, (fun _ : Nat => true) i = false := by
    intro hnone
    cases hnone 0 (by decide)
  have hgreeted : Runner.greeted (firmwareScript mets) = none := by
    rw [Runner.greeted, if_neg (by simp [firmwareScript, SilHal.sunPathSize])]
    refine (if_neg hretry).trans ?_
    have hhello : (firmwareScript mets).hello = .sent := hsent
    rw [hhello]
    exact hack
  exact Runner.main_greeted.2 hgreeted

/-- A turn that stops the loop stops `main`, when it is the last one of the script. -/
theorem Arrives.stops {k : Nat} {r : Runner K} {code : Option Nat} (h : Arrives s mets k r)
    (hlen : (mets.length - 1) / 2 = k + 1)
    (hbody : Runner.body s.fuel s.fw.armTest r (firmwareTurn mets k) = .inl code) :
    Runner.main s.fuel s.fw (firmwareScript mets) = .inl code := by
  obtain ⟨hsent, hack, hloop⟩ := h []
  rw [List.append_nil] at hsent hack hloop
  rw [main_of_greeted hsent hack, hlen, List.range_succ, List.map_append, List.map_singleton]
  exact (runUntil_append hloop).trans (runUntil_cons_inl hbody)

/-- A turn that goes on leads to the next one. -/
theorem Arrives.next {k : Nat} {r r' : Runner K} {x : Exchange} (h : Arrives s mets k r)
    (hx : ∀ later, firmwareTurn (mets ++ later) k = x)
    (hbody : Runner.body s.fuel s.fw.armTest r x = .inr r') : Arrives s mets (k + 1) r' := by
  intro later
  obtain ⟨hsent, hack, hloop⟩ := h later
  refine ⟨hsent, hack, ?_⟩
  rw [List.range_succ, List.map_append, List.map_singleton, hx later]
  exact (runUntil_append hloop).trans (runUntil_cons_inr hbody)

/-- A firmware that has not greeted the server exits with 2. -/
theorem main_of_refused (h : sentAt mets 0 = .sent → SilHal.recvAck Wire.build (heardAt mets 1) ≠ .kOk) :
    Runner.main s.fuel s.fw (firmwareScript mets) = .inl (some 2) := by
  have hconnect : SilHal.connectTo true [] (fun _ => true) = .kOk := by decide
  have hfailed : (SilHal.helloAck Wire.build (SilHal.new : SilHal K) (sentAt mets 0) (heardAt mets 1)).1
      ≠ .kOk := by
    rw [Runner.helloAck_eq]
    cases hsent : sentAt mets 0 with
    | sent => exact h hsent
    | wouldBlock | failed => simp
  unfold Runner.main firmwareScript
  dsimp only
  rw [if_neg (not_not.mpr hconnect)]
  split
  · next heq =>
    rw [heq] at hfailed
    exact absurd rfl hfailed
  · rfl

/-- A turn that stops the program stops it whatever would become of a reply. -/
theorem body_of_exit {r : Runner K} {recv : RecvOutcome} {code : Nat} (send : SendOutcome)
    (h : Runner.turn s.fuel s.fw.armTest r ⟨recv, true⟩ = some (.exit code)) :
    Runner.body s.fuel s.fw.armTest r ⟨recv, send⟩ = .inl (some code) := by
  unfold Runner.body
  dsimp only
  cases hsent : decide (send = .sent) with
  | true => rw [h]
  | false => rw [Runner.turn_of_unsent, h, Option.map_some, Turn.unsent]

/-- A turn whose control tick does not return hangs the program whatever would become of a reply. -/
theorem body_of_hung {r : Runner K} {recv : RecvOutcome} (send : SendOutcome)
    (h : Runner.turn s.fuel s.fw.armTest r ⟨recv, true⟩ = none) :
    Runner.body s.fuel s.fw.armTest r ⟨recv, send⟩ = .inl none := by
  unfold Runner.body
  dsimp only
  cases hsent : decide (send = .sent) with
  | true => rw [h]
  | false => rw [Runner.turn_of_unsent, h, Option.map_none]

/-- A turn whose reply does not go out stops the program with 2. -/
theorem body_of_unsent {r r' : Runner K} {recv : RecvOutcome} {send : SendOutcome} {o : FwOut K}
    (hsend : send ≠ .sent) (h : Runner.turn s.fuel s.fw.armTest r ⟨recv, true⟩ = some (.reply r' o)) :
    Runner.body s.fuel s.fw.armTest r ⟨recv, send⟩ = .inl (some 2) := by
  unfold Runner.body
  dsimp only
  rw [decide_eq_false hsend, Runner.turn_of_unsent, h, Option.map_some, Turn.unsent]

/-- After a receive, the firmware is as `main` is on the script of what was met, whether the turn replies,
exits or hangs. -/
theorem Firmware.real_after {k : Nat} {r : Runner K} {msg : Option (List UInt8)}
    (hlen : mets.length = 2 * k + 3) (hmet : mets[2 * k + 2]? = some (.got msg)) (h : Arrives s mets k r) :
    Firmware.Real s mets
      (Firmware.after s r (Runner.turn s.fuel s.fw.armTest r ⟨received msg, true⟩)) := by
  have hnow : firmwareTurn mets k = ⟨received msg, .failed⟩ := by
    rw [firmwareTurn, heardAt_of_got hmet, sentAt_of_le hlen.le]
  have hstops {code : Option Nat}
      (hbody : Runner.body s.fuel s.fw.armTest r ⟨received msg, .failed⟩ = .inl code) :
      Runner.main s.fuel s.fw (firmwareScript mets) = .inl code :=
    h.stops (by omega) (hnow ▸ hbody)
  cases hturn : Runner.turn s.fuel s.fw.armTest r ⟨received msg, true⟩ with
  | none => exact hstops (body_of_hung _ hturn)
  | some t =>
    cases t with
    | exit code =>
      unfold Firmware.after
      dsimp only
      split_ifs with hcode
      · rw [hcode] at hturn
        unfold Firmware.leave
        split
        · -- the goodbye follows, whatever becomes of it
          intro met
          refine (h.append [met]).stops (by rw [List.length_append, hlen, List.length_singleton]; omega) ?_
          rw [firmwareTurn, heardAt_of_got (met_append hmet _)]
          exact body_of_exit _ hturn
        · exact hstops (body_of_exit _ hturn)
      · exact hstops (body_of_exit _ hturn)
    | reply r' o =>
      unfold Firmware.after
      dsimp only
      cases Firmware.outMsg s o with
      | some out => exact ⟨k, r, msg, o, hlen, hmet, h, hturn⟩
      | none => exact hstops (body_of_unsent (by decide) hturn)

/-- **Whatever the firmware meets next, it stays where `main` is.** -/
theorem Firmware.real_step {p p' : Firmware K} {met : Met (List UInt8)} (h : Firmware.Real s mets p)
    (hstep : (Firmware.act s p).after met = some p') : Firmware.Real s (mets ++ [met]) p' := by
  cases p with
  | hello msg hal =>
    cases met with
    | got msg => cases hstep
    | sent ok =>
      cases hstep
      obtain ⟨rfl, rfl⟩ := h
      cases ok with
      | true => exact ⟨rfl, rfl⟩
      | false => exact main_of_refused fun hsent => by cases hsent
  | greeted hal =>
    cases met with
    | sent ok => cases hstep
    | got msg =>
      cases hstep
      obtain ⟨rfl, rfl⟩ := h
      dsimp only
      split_ifs with hack
      · refine ⟨0, rfl, fun later => ⟨rfl, ?_, rfl⟩⟩
        exact Runner.recvAck_hear.mp hack
      · exact main_of_refused fun _ => hack
  | loop r =>
    cases met with
    | sent ok => cases hstep
    | got msg =>
      cases hstep
      obtain ⟨k, hlen, harrives⟩ := h
      exact Firmware.real_after (by rw [List.length_append, hlen]; rfl) (met_concat _ hlen)
        (harrives.append _)
  | reply msg r' =>
    cases met with
    | got msg => cases hstep
    | sent ok =>
      cases hstep
      obtain ⟨k, r, recv, o, hlen, hmet, harrives, hturn⟩ := h
      have hx (later : List (Met (List UInt8))) :
          firmwareTurn (mets ++ [.sent ok] ++ later) k = ⟨received recv, sending ok⟩ := by
        rw [firmwareTurn, heardAt_of_got (met_append (met_append hmet _) later),
          sentAt_of_sent (met_append (met_concat _ hlen) later)]
      have hlen' : (mets ++ [Met.sent ok]).length = 2 * (k + 1) + 2 := by
        rw [List.length_append, hlen]
        rfl
      cases ok with
      | true =>
        refine ⟨k + 1, hlen', (harrives.append _).next hx ?_⟩
        unfold Runner.body
        dsimp only
        rw [decide_eq_true (by rfl), hturn]
      | false =>
        refine (harrives.append _).stops (by rw [hlen']; omega) ?_
        have hnow := hx []
        rw [List.append_nil] at hnow
        rw [hnow]
        exact body_of_unsent (by simp [sending]) hturn
  | bye msg =>
    cases met with
    | got msg => cases hstep
    | sent ok =>
      cases hstep
      exact h _
  | exited code => cases met <;> cases hstep
  | hung => cases met <;> cases hstep

/-! ## The parties are the programs -/

omit [Field K] [LinearOrder K] [FloatEnv K] in
/-- A plant alone is where `run` is, after anything that it met. -/
theorem plant_real {es : List (Event (Plant σ F) (Met (List UInt8)) Unit)} {p : Plant σ F}
    (h : Run (Duplex.alone (Plant.act s)) .hello es p) : Plant.Real s (es.map Event.inp) p := by
  refine h.history (P := fun es p => Plant.Real s (es.map Event.inp) p) rfl fun hist e hpre hs => ?_
  rw [List.map_append, List.map_singleton]
  exact Plant.real_step hpre hs

/-- A firmware alone is where `main` is, after anything that it met. -/
theorem firmware_real {es : List (Event (Firmware K) (Met (List UInt8)) Unit)} {p : Firmware K}
    (h : Run (Duplex.alone (Firmware.act s)) .boot es p) : Firmware.Real s (es.map Event.inp) p := by
  refine h.history (P := fun es p => Firmware.Real s (es.map Event.inp) p) ?_ fun hist e hpre hs => ?_
  · rw [boot_eq]
    exact ⟨rfl, rfl⟩
  · rw [List.map_append, List.map_singleton]
    exact Firmware.real_step hpre hs

/-- **The parties are the programs.** A party alone, against any peer, ends as its program does on the script of
what the party met: the plant with the result and the local variables of `run`, the firmware with the exit code
of `main`, or in a control tick that does not return. So do the two parties of every session, each on the
script of its own moves. -/
structure Programs (s : Setup σ F K) : Prop where
  plant : ∀ es e st, Run (Duplex.alone (Plant.act s)) .hello es (.ended e st) →
    run s.craft s.run (plantScript (es.map Event.inp)) s.start = (e, st)
  firmware : ∀ es code, Run (Duplex.alone (Firmware.act s)) .boot es (.exited code) →
    Runner.main s.fuel s.fw (firmwareScript (es.map Event.inp)) = .inl (some code)
  hung : ∀ es, Run (Duplex.alone (Firmware.act s)) .boot es .hung →
    Runner.main s.fuel s.fw (firmwareScript (es.map Event.inp)) = .inl none
  session : ∀ es x, Run (step s) init es x →
    (∀ e st, x.left = .ended e st →
      run s.craft s.run (plantScript ((es.filterMap Duplex.leftOf).map Event.inp)) s.start = (e, st)) ∧
    ∀ code, x.right = .exited code →
      Runner.main s.fuel s.fw (firmwareScript ((es.filterMap Duplex.rightOf).map Event.inp))
        = .inl (some code)

/-- Every setup has two such programs: each returns what the function it stands for returns on its own
script. -/
theorem session_programs (s : Setup σ F K) : Programs s where
  plant _ _ _ h := plant_real h
  firmware _ _ h := firmware_real h
  hung _ h := firmware_real h
  session es x h := by
    have hleft := plant_real (Duplex.run_left h)
    have hright := firmware_real (Duplex.run_right h)
    refine ⟨fun e st hx => ?_, fun code hx => ?_⟩
    · rw [hx] at hleft
      exact hleft
    · rw [hx] at hright
      exact hright

end Session

end DroneMini
