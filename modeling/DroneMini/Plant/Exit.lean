import DroneMini.Plant.Runner

/-!
# The exit codes of the plant

Which code a run of the plant is due is read off what the firmware does, turn by turn: `dueHello` for the
greeting, `dueTurn` for a tick in a given state, `due` for the run. The firmware stays silent past the
timeout, it breaks the protocol (a malformed, mis-sized, mis-typed or out-of-order message, or an early
close), it drives the plant out of the finite numbers, or none of these (`Due`).

`run` returns the code it is due unless something happens that it does not handle (`Handled`), and
exactly then (`exitCode_due_iff`).
-/

namespace DroneMini

namespace PlantRunner

open Struct SilProto

variable {σ F : Type}

/-! ## The code a run is due -/

/-- Why a run is over, in terms of what the plant was due to notice first. -/
inductive Due where
  | silence
  | violation
  | numerical
  | finished
  deriving DecidableEq, Repr

def Due.code : Due → Nat
  | silence => EXIT_TIMEOUT
  | violation => EXIT_PROTO
  | numerical => EXIT_NUMERICAL
  | finished => EXIT_CLEAN

/-- What a send is due when it fails: the firmware does not read in time, or it has closed. -/
def dueSend : SendOutcome → Option Due
  | .sent => none
  | .wouldBlock => some .silence
  | .failed => some .violation

/-- What the greeting is due; nothing when the HELLO is that of the same build. -/
def dueHello (s : FwScript) : Option Due :=
  match heard s.hello with
  | .silence => some .silence
  | .reset | .closed | .garbled => some .violation
  | .msg (typ, _, body) =>
    if typ = MsgType.HELLO ∧ body = (Wire.fillHello Wire.build).bytes then dueSend s.ack
    else some .violation

/-- What a tick is due; nothing when it brings a later reply and the plant stays finite. A BYE without a
body is a regular end. -/
def dueTurn (w : Craft σ F) (x : Exchange) (st : RunState σ F) : Option Due :=
  match dueSend x.send with
  | some d => some d
  | none =>
    match heard x.recv with
    | .silence => some .silence
    | .reset | .closed | .garbled => some .violation
    | .msg (typ, seq, body) =>
      if typ = MsgType.BYE ∧ body = [] then some .finished
      else if typ = MsgType.FW_OUT ∧ st.lastOutSeq < seq ∧ body.length = calcsize FW_OUT_FMT then
        if diverges w (measure w st) body then some .numerical else none
      else some .violation

/-- The local variables that a tick leaves behind, taken as they were if the tick does not go on. -/
def next (w : Craft σ F) (a : RunArgs) (x : Exchange) (k : Nat) (st : RunState σ F) : RunState σ F :=
  match tick w a x k st with
  | .inl (_, st') => st'
  | .inr st' => st'

/-- The loop judged tick by tick: the first tick that something is due in decides. -/
def dueLoop (w : Craft σ F) (a : RunArgs) (turns : Nat → Exchange) (st : RunState σ F) (n : Nat) :
    Due ⊕ RunState σ F :=
  runUntil (fun st k =>
    match dueTurn w (turns k) st with
    | some d => .inl d
    | none => .inr (next w a (turns k) k st)) st (List.range n)

/-- What a run is due: whatever the greeting gives rise to, or else the first tick of the loop. -/
def due (w : Craft σ F) (a : RunArgs) (s : FwScript) (c : σ) : Due :=
  match dueHello s with
  | some d => d
  | none =>
    match dueLoop w a s.turns (begin c) a.nTicks with
    | .inl d => d
    | .inr _ => .finished

/-! ## What `run` does not handle -/

/-- The greeting is handled: the firmware is not silent, the socket reports no error, a HELLO has the size
of one and its answer goes out. -/
structure HelloHandled (s : FwScript) : Prop where
  spoken : heard s.hello ≠ .silence
  noReset : heard s.hello ≠ .reset
  size : ∀ seq body, heard s.hello = .msg (MsgType.HELLO, seq, body) → body.length = calcsize HELLO_FMT
  answered : ∀ seq body, heard s.hello = .msg (MsgType.HELLO, seq, body) → s.ack = .sent

/-- A tick is handled: its number is a sequence number, the STATE message goes out, the socket reports no
error, the firmware does not close in the last tick, a later reply has the size of one and a BYE has no
body. -/
structure TurnHandled (a : RunArgs) (x : Exchange) (k : Nat) (st : RunState σ F) : Prop where
  sent : k < 2 ^ 32 ∧ x.send = .sent
  noReset : heard x.recv ≠ .reset
  notLast : heard x.recv = .closed → k + 1 < a.nTicks
  size : ∀ seq body, heard x.recv = .msg (MsgType.FW_OUT, seq, body) → st.lastOutSeq < seq →
    body.length = calcsize FW_OUT_FMT
  bye : ∀ seq body, heard x.recv = .msg (MsgType.BYE, seq, body) → body = []

/-- Everything that happens in a run is handled: the greeting, every tick that the loop comes to, and the
goodbye when it comes to that. -/
structure Handled (w : Craft σ F) (a : RunArgs) (s : FwScript) (c : σ) : Prop where
  hello : HelloHandled s
  turns : dueHello s = none → ∀ k st, k < a.nTicks → loop w a s.turns (begin c) k = .inr st →
    TurnHandled a (s.turns k) k st
  goodbye : dueHello s = none → ∀ k st, loop w a s.turns (begin c) k = .inr st →
    k = a.nTicks ∨ (k < a.nTicks ∧ SaysBye (s.turns k)) → s.bye = .sent

/-! ## The greeting -/

/-- A greeting that is handled ends with the code it is due, or the run goes on. -/
theorem HelloHandled.hello {s : FwScript} (h : HelloHandled s) : (hello Wire.build s.hello s.ack).2 =
    match dueHello s with
    | some d => .error (.code d.code)
    | none => .ok () := by
  rw [hello_eq, dueHello]
  cases hh : heard s.hello with
  | silence => exact absurd hh h.spoken
  | reset => exact absurd hh h.noReset
  | closed | garbled => rfl
  | msg m =>
    obtain ⟨typ, seq, body⟩ := m
    dsimp only
    by_cases htyp : typ = MsgType.HELLO
    · rw [htyp] at hh
      have hsize := h.size seq body hh
      have hack := h.answered seq body hh
      rw [if_neg (not_not.mpr htyp), if_neg (not_not.mpr hsize), if_neg (not_not.mpr hack), hack]
      by_cases hbody : body = (Wire.fillHello Wire.build).bytes
      · rw [if_pos hbody, if_pos ⟨htyp, hbody⟩]
        rfl
      · rw [if_neg hbody, if_neg fun h => hbody h.2]
        rfl
    · rw [if_pos htyp, if_neg fun h => htyp h.1]
      rfl

/-- A greeting that is not handled raises, or is a timeout with the code of a violation. -/
theorem hello_of_not_handled {s : FwScript} (h : ¬ HelloHandled s) :
    (∃ e, (hello Wire.build s.hello s.ack).2 = .error (.raised e)) ∨
      ((hello Wire.build s.hello s.ack).2 = .error (.code EXIT_PROTO) ∧ dueHello s = some .silence) := by
  rw [hello_eq, dueHello]
  cases hh : heard s.hello with
  | silence => exact .inr ⟨rfl, rfl⟩
  | reset => exact .inl ⟨_, rfl⟩
  | closed | garbled =>
    exact absurd ⟨by simp [hh], by simp [hh], by simp [hh], by simp [hh]⟩ h
  | msg m =>
    obtain ⟨typ, seq, body⟩ := m
    dsimp only
    by_cases htyp : typ = MsgType.HELLO
    · by_cases hsize : body.length = calcsize HELLO_FMT
      · by_cases hack : s.ack = .sent
        · refine absurd ⟨by simp [hh], by simp [hh], fun seq' body' h' => ?_, fun _ _ _ => hack⟩ h
          rw [hh] at h'
          cases h'
          exact hsize
        · rw [if_neg (not_not.mpr htyp), if_neg (not_not.mpr hsize), if_pos hack]
          exact .inl ⟨_, rfl⟩
      · rw [if_neg (not_not.mpr htyp), if_pos hsize]
        exact .inl ⟨_, rfl⟩
    · refine absurd ⟨by simp [hh], by simp [hh], fun seq' body' h' => ?_, fun seq' body' h' => ?_⟩ h
      all_goals
        rw [hh] at h'
        cases h'
        exact absurd rfl htyp

/-! ## The ticks -/

/-- What is due for a message in a tick: a BYE, a message that is no fitting OUT, a reply that diverges, or
nothing. -/
theorem dueTurn_msg {w : Craft σ F} {x : Exchange} {st : RunState σ F} {typ seq : Int} {body : List UInt8}
    (hsent : x.send = .sent) (h : heard x.recv = .msg (typ, seq, body)) : dueTurn w x st =
      if typ = MsgType.BYE ∧ body = [] then some .finished
      else if typ = MsgType.FW_OUT ∧ st.lastOutSeq < seq ∧ body.length = calcsize FW_OUT_FMT then
        if diverges w (measure w st) body then some .numerical else none
      else some .violation := by
  rw [dueTurn, hsent, dueSend]
  simp only [h]

/-- A tick that goes on is handled, and nothing is due. -/
theorem GoesOn.due {w : Craft σ F} {x : Exchange} {k : Nat} {st st' : RunState σ F} {seq : Int}
    {body : List UInt8} {row : Row F} (h : GoesOn w x k st st' seq body row) (a : RunArgs) :
    dueTurn w x st = none ∧ TurnHandled a x k st := by
  have hbye : MsgType.FW_OUT ≠ MsgType.BYE := by decide
  constructor
  · rw [dueTurn_msg h.sent h.heard, if_neg fun hb => hbye hb.1, if_pos ⟨rfl, h.later, h.size⟩, h.finite]
    rfl
  · refine ⟨⟨h.small, h.sent⟩, by simp [h.heard], by simp [h.heard], fun seq' body' hh _ => ?_,
      fun seq' body' hh => ?_⟩
    all_goals
      rw [h.heard] at hh
      cases hh
    exact h.size

/-- A tick whose receive brings no message is handled when the socket reports no error and the firmware does
not close in the last tick. -/
theorem turnHandled_of_no_msg {a : RunArgs} {x : Exchange} {k : Nat} {st : RunState σ F}
    (hsent : k < 2 ^ 32 ∧ x.send = .sent) (hmsg : ∀ m, heard x.recv ≠ .msg m)
    (hreset : heard x.recv ≠ .reset) (hlast : heard x.recv = .closed → k + 1 < a.nTicks) :
    TurnHandled a x k st :=
  ⟨hsent, hreset, hlast, fun _ _ h => absurd h (hmsg _), fun _ _ h => absurd h (hmsg _)⟩

/-- A tick that brings a message is handled when the message is. -/
theorem turnHandled_of_msg {a : RunArgs} {x : Exchange} {k : Nat} {st : RunState σ F} {typ seq : Int}
    {body : List UInt8} (hsent : k < 2 ^ 32 ∧ x.send = .sent) (hmsg : heard x.recv = .msg (typ, seq, body))
    (hsize : typ = MsgType.FW_OUT → st.lastOutSeq < seq → body.length = calcsize FW_OUT_FMT)
    (hbye : typ = MsgType.BYE → body = []) : TurnHandled a x k st := by
  refine ⟨hsent, by simp [hmsg], by simp [hmsg], fun seq' body' h => ?_, fun seq' body' h => ?_⟩
  all_goals
    rw [hmsg] at h
    cases h
  · exact hsize rfl
  · exact hbye rfl

/-- A tick that is handled leaves the loop with the code it is due, or with a BYE. -/
theorem Stops.due {w : Craft σ F} {a : RunArgs} {x : Exchange} {k : Nat} {st : RunState σ F} {l : Left}
    (h : Stops w a x k st l) (hh : TurnHandled a x k st) : ∃ d, dueTurn w x st = some d ∧
      (l = .ended (.code d.code) ∧ ¬ SaysBye x ∨ l = .brk ∧ d = .finished ∧ SaysBye x) := by
  have hquiet {y : Heard} (hy : heard x.recv = y) (hmsg : ∀ m, y ≠ .msg m) : ¬ SaysBye x := by
    rintro ⟨seq, body, hm⟩
    exact hmsg _ (hy.symm.trans hm)
  have hother {typ seq : Int} {body : List UInt8} (hy : heard x.recv = .msg (typ, seq, body))
      (htyp : typ ≠ MsgType.BYE) : ¬ SaysBye x := by
    rintro ⟨seq', body', hm⟩
    rw [hy] at hm
    cases hm
    exact htyp rfl
  cases h with
  | unsent e hsend => exact absurd hh.sent hsend
  | silence hsent hy =>
    refine ⟨.silence, by simp [dueTurn, hsent.2, dueSend, hy], .inl ⟨rfl, hquiet hy (by simp)⟩⟩
  | reset hsent hy => exact absurd hy hh.noReset
  | closedLast hsent hy hlast => exact absurd (hh.notLast hy) (Nat.not_lt.mpr hlast)
  | closedEarly hsent hy hlast =>
    refine ⟨.violation, by simp [dueTurn, hsent.2, dueSend, hy], .inl ⟨rfl, hquiet hy (by simp)⟩⟩
  | garbled hsent hy =>
    refine ⟨.violation, by simp [dueTurn, hsent.2, dueSend, hy], .inl ⟨rfl, hquiet hy (by simp)⟩⟩
  | bye seq body hsent hy =>
    refine ⟨.finished, ?_, .inr ⟨rfl, rfl, seq, body, hy⟩⟩
    rw [dueTurn_msg hsent.2 hy, if_pos ⟨rfl, hh.bye seq body hy⟩]
  | wrong typ seq body hsent hy hbye hout =>
    refine ⟨.violation, ?_, .inl ⟨rfl, hother hy hbye⟩⟩
    rw [dueTurn_msg hsent.2 hy, if_neg fun hb => hbye hb.1, if_neg fun ho => hout ⟨ho.1, ho.2.1⟩]
  | size seq body hsent hy hlater hsize => exact absurd (hh.size seq body hy hlater) hsize
  | diverges seq body hsent hy hlater hsize hdiv =>
    have hbye : MsgType.FW_OUT ≠ MsgType.BYE := by decide
    refine ⟨.numerical, ?_, .inl ⟨rfl, hother hy hbye⟩⟩
    rw [dueTurn_msg hsent.2 hy, if_neg fun hb => hbye hb.1, if_pos ⟨rfl, hlater, hsize⟩, hdiv]
    rfl

/-- A tick that is not handled raises, or ends the loop on a violation. -/
theorem Stops.of_not_handled {w : Craft σ F} {a : RunArgs} {x : Exchange} {k : Nat} {st : RunState σ F}
    {l : Left} (h : Stops w a x k st l) (hh : ¬ TurnHandled a x k st) :
    (∃ e, l = .ended (.raised e)) ∨ (l = .brk ∧ dueTurn w x st = some .violation) := by
  have hbye : MsgType.FW_OUT ≠ MsgType.BYE := by decide
  cases h with
  | unsent e hsend => exact .inl ⟨e, rfl⟩
  | silence hsent hy | garbled hsent hy =>
    exact absurd (turnHandled_of_no_msg hsent (by simp [hy]) (by simp [hy]) (by simp [hy])) hh
  | reset hsent hy => exact .inl ⟨_, rfl⟩
  | closedLast hsent hy hlast => exact .inr ⟨rfl, by simp [dueTurn, hsent.2, dueSend, hy]⟩
  | closedEarly hsent hy hlast =>
    exact absurd (turnHandled_of_no_msg hsent (by simp [hy]) (by simp [hy])
      fun _ => Nat.not_le.mp hlast) hh
  | bye seq body hsent hy =>
    by_cases hbody : body = []
    · exact absurd (turnHandled_of_msg hsent hy (fun h => absurd h.symm hbye) fun _ => hbody) hh
    · refine .inr ⟨rfl, ?_⟩
      rw [dueTurn_msg hsent.2 hy, if_neg fun hb => hbody hb.2, if_neg fun ho => hbye ho.1.symm]
  | wrong typ seq body hsent hy htyp hout =>
    exact absurd (turnHandled_of_msg hsent hy (fun h hl => absurd ⟨h, hl⟩ hout) fun h => absurd h htyp) hh
  | size seq body hsent hy hlater hsize => exact .inl ⟨_, rfl⟩
  | diverges seq body hsent hy hlater hsize hdiv =>
    exact absurd (turnHandled_of_msg hsent hy (fun _ _ => hsize) fun h => absurd h hbye) hh

/-! ## The run -/

section Run
variable {w : Craft σ F} {a : RunArgs} {s : FwScript} {c : σ} {st : RunState σ F} {k : Nat}

/-- The judged loop comes to the states of the loop. -/
theorem dueLoop_of_loop (h : loop w a s.turns (begin c) k = .inr st) :
    dueLoop w a s.turns (begin c) k = .inr st := by
  refine runUntil_mono (fun t i u hu => ?_) h
  obtain ⟨seq, body, row, hgoes⟩ := tick_goes_on hu
  rw [(hgoes.due a).1, next, hu]

/-- What is due in a tick that the loop comes to is due in the run. -/
theorem due_of_turn {d : Due} (hhello : dueHello s = none) (hk : k < a.nTicks)
    (h : loop w a s.turns (begin c) k = .inr st) (hd : dueTurn w (s.turns k) st = some d) :
    due w a s c = d := by
  have hstop : dueLoop w a s.turns (begin c) a.nTicks = .inl d :=
    runUntil_range_stop_iff.mpr ⟨k, st, hk, dueLoop_of_loop h, by rw [hd]⟩
  rw [due, hhello]
  simp only [hstop]

/-- A run whose loop comes to its end is handled when its goodbye goes out. -/
theorem handled_of_complete (hhello : HelloHandled s) (hnone : dueHello s = none)
    (h : loop w a s.turns (begin c) a.nTicks = .inr st) : Handled w a s c ↔ s.bye = .sent := by
  refine ⟨fun hall => hall.goodbye hnone _ st h (.inl rfl), fun hbye => ⟨hhello, fun _ k t hk ht => ?_,
    fun _ _ _ _ _ => hbye⟩⟩
  obtain ⟨u, hu⟩ := runUntil_range_goes_on h hk ht
  obtain ⟨seq, body, row, hgoes⟩ := tick_goes_on hu
  exact (hgoes.due a).2

/-- A run whose loop is left in some tick is handled when that tick is, and the goodbye that a BYE brings
goes out. -/
theorem handled_of_left {l : Left} {st' : RunState σ F} (hhello : HelloHandled s)
    (hnone : dueHello s = none) (hk : k < a.nTicks) (h : loop w a s.turns (begin c) k = .inr st)
    (htick : tick w a (s.turns k) k st = .inl (l, st')) : Handled w a s c ↔
      TurnHandled a (s.turns k) k st ∧ (SaysBye (s.turns k) → s.bye = .sent) := by
  constructor
  · exact fun hall => ⟨hall.turns hnone k st hk h, fun hbye => hall.goodbye hnone k st h (.inr ⟨hk, hbye⟩)⟩
  · rintro ⟨hturn, hbye⟩
    refine ⟨hhello, fun _ j t _ ht => ?_, fun _ j t ht hend => ?_⟩
    · rcases runUntil_range_reached h htick ht with ⟨rfl, rfl⟩ | ⟨u, hu⟩
      · exact hturn
      · obtain ⟨seq, body, row, hgoes⟩ := tick_goes_on hu
        exact (hgoes.due a).2
    · rcases hend with rfl | ⟨_, seq, body, hsays⟩
      · have hstop : loop w a s.turns (begin c) a.nTicks = .inl (l, st') :=
          runUntil_range_stop_iff.mpr ⟨k, st, hk, h, htick⟩
        rw [hstop] at ht
        cases ht
      · rcases runUntil_range_reached h htick ht with ⟨rfl, rfl⟩ | ⟨u, hu⟩
        · exact hbye ⟨seq, body, hsays⟩
        · obtain ⟨seq', body', row, hgoes⟩ := tick_goes_on hu
          rw [hgoes.heard] at hsays
          cases hsays

/-- **`run` returns the code it is due exactly when everything that happens is handled.** -/
theorem exitCode_due_iff : (run w a s c).1 = .code (due w a s c).code ↔ Handled w a s c := by
  by_cases hhello : HelloHandled s
  swap
  -- the greeting raises, or it is silent
  · refine iff_of_false (fun h => ?_) fun h => hhello h.hello
    rcases hello_of_not_handled hhello with ⟨e, he⟩ | ⟨hcode, hdue⟩
    · rw [run_eq, he] at h
      cases h
    · rw [run_eq, hcode, due, hdue] at h
      cases h
  have hends := hhello.hello
  cases hd : dueHello s with
  | some d =>
    rw [hd] at hends
    refine iff_of_true ?_ ⟨hhello, fun h => ?_, fun h => ?_⟩
    · rw [run_eq, hends, due, hd]
    all_goals
      rw [hd] at h
      cases h
  | none =>
    rw [hd] at hends
    cases hloop : loop w a s.turns (begin c) a.nTicks with
    | inr st =>
      -- every tick goes on
      have hdue : due w a s c = .finished := by
        rw [due, hd]
        simp only [dueLoop_of_loop hloop]
      rw [run_of_complete hends hloop, hdue, handled_of_complete hhello hd hloop, Left.ending]
      split_ifs with hbye
      · exact iff_of_true rfl hbye
      · exact iff_of_false (by simp) hbye
    | inl r =>
      obtain ⟨l, st'⟩ := r
      obtain ⟨k, t, hk, ht, htick⟩ := runUntil_range_stop_iff.mp hloop
      obtain ⟨hstops, -⟩ := tick_stops htick
      rw [run_of_left hends hk ht htick, handled_of_left hhello hd hk ht htick]
      by_cases hturn : TurnHandled a (s.turns k) k t
      · obtain ⟨d, hdue, hl⟩ := hstops.due hturn
        rw [due_of_turn hd hk ht hdue]
        rcases hl with ⟨rfl, hquiet⟩ | ⟨rfl, rfl, hsays⟩
        · exact iff_of_true rfl ⟨hturn, fun h => absurd h hquiet⟩
        · rw [Left.ending]
          split_ifs with hbye
          · exact iff_of_true rfl ⟨hturn, fun _ => hbye⟩
          · exact iff_of_false (by simp) fun h => hbye (h.2 hsays)
      · refine iff_of_false (fun h => ?_) fun h => hturn h.1
        rcases hstops.of_not_handled hturn with ⟨e, rfl⟩ | ⟨rfl, hdue⟩
        · cases h
        · rw [due_of_turn hd hk ht hdue, Left.ending] at h
          split_ifs at h
          cases h

end Run

/-- A craft that rests, with nothing to measure: its state and its floats are the one value of `Unit`. -/
def resting : Craft Unit Unit where
  sense _ := ((fun _ => (), fun _ => ()), ())
  battery _ _ := ((), ())
  step _ _ _ := some ()
  finite _ := true
  bits _ := 0

/-- The arguments of a run of two ticks without a frame, whose IMU stays valid. -/
def twoTicks : RunArgs := ⟨2, 0, fun _ => none⟩

/-- A firmware that connects and then says nothing. -/
def mute : FwScript where
  hello := .wouldBlock
  ack := .sent
  turns := fun _ => ⟨.wouldBlock, .sent⟩
  bye := .sent

/-- A firmware that stays silent in the greeting gives the code of a violation. -/
theorem not_exitCode_due : ¬ ∀ (σ F : Type) (w : Craft σ F) (a : RunArgs) (s : FwScript) (c : σ),
    (run w a s c).1 = .code (due w a s c).code := by
  intro h
  have hmute := h Unit Unit resting twoTicks mute ()
  have hrun : (run resting twoTicks mute ()).1 = .code EXIT_PROTO := rfl
  have hdue : due resting twoTicks mute () = .silence := rfl
  rw [hrun, hdue] at hmute
  cases hmute

end PlantRunner

end DroneMini
