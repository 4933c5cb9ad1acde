import DroneMini.Plant.Exit

/-!
# A clean run of the plant

A run is reported clean by its exit code or by the last line of its log (`Clean`). It is complete when each
of its ticks received a reply, logged a row and stepped the plant (`Complete`). The loop is also left, and
reported clean, by a BYE in the place of a reply and by a firmware that closes in the last tick
(`CutShort`), and a clean run is complete exactly when it was never cut short (`complete_iff`). As long as the
firmware does not close in the last tick, a clean run is complete up to its last tick or up to the tick in
which the firmware said BYE (`ticks_of_clean`).
-/

namespace DroneMini

namespace PlantRunner

open Struct SilProto

variable {σ F : Type}

/-- A run that ends with the code of a clean run, or whose log does. -/
def Clean (r : Ended × Option (RunState σ F)) : Prop :=
  r.1 = .code EXIT_CLEAN ∨ ∃ st, r.2 = some st ∧ st.aborted = false

/-- Every tick received a reply, logged a row and stepped the plant. -/
structure Complete (n : Nat) (st : RunState σ F) : Prop where
  replies : (st.got.filter fun m => m.1 = MsgType.FW_OUT).length = n
  rows : st.rows.map Row.tUs = (List.range n).map (· * DT_US)
  steps : st.steps = n

/-- A tick that ends the loop as a clean end would: the STATE message is sent, and the firmware says BYE, or
closes in the last tick. -/
structure CutShort (a : RunArgs) (x : Exchange) (k : Nat) : Prop where
  sent : k < 2 ^ 32 ∧ x.send = .sent
  ends : SaysBye x ∨ heard x.recv = .closed ∧ a.nTicks ≤ k + 1

/-- No tick that a greeted run comes to is cut short. -/
def Uncut (w : Craft σ F) (a : RunArgs) (s : FwScript) (c : σ) : Prop :=
  dueHello s = none → ∀ k st, k < a.nTicks → loop w a s.turns (begin c) k = .inr st →
    ¬ CutShort a (s.turns k) k

/-- What holds of the local variables of `run` after a number of ticks that went on: the accounts are complete
and `aborted` is still true. -/
structure Ran (n : Nat) (st : RunState σ F) : Prop where
  complete : Complete n st
  aborted : st.aborted = true

/-- After one more tick that goes on, the accounts are complete for one tick more. -/
theorem Ran.goesOn {w : Craft σ F} {x : Exchange} {n : Nat} {st st' : RunState σ F} {seq : Int}
    {body : List UInt8} {row : Row F} (h : Ran n st) (hgoes : GoesOn w x n st st' seq body row) :
    Ran (n + 1) st' := by
  obtain ⟨-, haborted, hrows, hgot, hsteps⟩ := hgoes.state
  refine ⟨⟨?_, ?_, ?_⟩, haborted.trans h.aborted⟩
  · have hout : [(MsgType.FW_OUT, seq, body)].filter (fun m => m.1 = MsgType.FW_OUT)
        = [(MsgType.FW_OUT, seq, body)] := rfl
    rw [hgot, List.filter_append, List.length_append, h.complete.replies, hout]
    rfl
  · rw [hrows, List.map_append, h.complete.rows, List.range_succ, List.map_append, List.map_singleton,
      hgoes.tUs]
    rfl
  · rw [hsteps, h.complete.steps]

section Run
variable {w : Craft σ F} {a : RunArgs} {s : FwScript} {c : σ} {st : RunState σ F} {k : Nat}

/-- **The ticks of a run**: each that goes on counts one more. -/
theorem ran_of_loop (h : loop w a s.turns (begin c) k = .inr st) : Ran k st := by
  refine runUntil_range_invariant ⟨⟨rfl, rfl, rfl⟩, rfl⟩ (fun j t u hran htick => ?_) h
  obtain ⟨seq, body, row, hgoes⟩ := tick_goes_on htick
  exact hran.goesOn hgoes

/-- A tick that brings neither a BYE nor the end of the stream is not cut short. -/
theorem not_cutShort {x : Exchange} {y : Heard} (hy : heard x.recv = y) (hclosed : y ≠ .closed)
    (hbye : ∀ seq body, y ≠ .msg (MsgType.BYE, seq, body)) : ¬ CutShort a x k := by
  rintro ⟨-, ⟨seq, body, h⟩ | ⟨h, -⟩⟩
  · exact hbye seq body (hy.symm.trans h)
  · exact hclosed (hy.symm.trans h)

/-- A tick that goes on is not cut short: it takes a reply, neither a BYE nor a closed socket. -/
theorem GoesOn.not_cutShort {x : Exchange} {st' : RunState σ F} {seq : Int} {body : List UInt8}
    {row : Row F} (h : GoesOn w x k st st' seq body row) : ¬ CutShort a x k :=
  PlantRunner.not_cutShort h.heard (by simp) (by simp [MsgType.FW_OUT, MsgType.BYE])

/-- A tick leaves the loop by a `break` when it is cut short. -/
theorem Stops.brk_iff {x : Exchange} {l : Left} (h : Stops w a x k st l) : l = .brk ↔ CutShort a x k := by
  have hout (seq : Int) (body : List UInt8) (seq' : Int) (body' : List UInt8) :
      Heard.msg (MsgType.FW_OUT, seq, body) ≠ .msg (MsgType.BYE, seq', body') := by
    simp [MsgType.FW_OUT, MsgType.BYE]
  cases h with
  | closedLast hsent hy hlast => exact iff_of_true rfl ⟨hsent, .inr ⟨hy, hlast⟩⟩
  | bye seq body hsent hy => exact iff_of_true rfl ⟨hsent, .inl ⟨seq, body, hy⟩⟩
  | unsent e hsend => exact iff_of_false (by simp) fun hcut => hsend hcut.sent
  | silence hsent hy | reset hsent hy | garbled hsent hy =>
    exact iff_of_false (by simp) (not_cutShort hy (by simp) (by simp))
  | closedEarly hsent hy hlast =>
    refine iff_of_false (by simp) fun hcut => ?_
    rcases hcut.ends with ⟨seq, body, hbye⟩ | ⟨-, hend⟩
    · rw [hy] at hbye
      cases hbye
    · exact hlast hend
  | wrong typ seq body hsent hy hbye hne =>
    refine iff_of_false (by simp) (not_cutShort hy (by simp) fun seq' body' heq => ?_)
    cases heq
    exact hbye rfl
  | size seq body hsent hy hlater hsize =>
    exact iff_of_false (by simp) (not_cutShort hy (by simp) (hout seq body))
  | diverges seq body hsent hy hlater hsize hdiv =>
    exact iff_of_false (by simp) (not_cutShort hy (by simp) (hout seq body))

/-- A tick that returns does not return the code of a clean run. -/
theorem Stops.ne_clean {x : Exchange} {l : Left} (h : Stops w a x k st l) :
    l ≠ .ended (.code EXIT_CLEAN) := by
  cases h <;> simp [EXIT_CLEAN, EXIT_PROTO, EXIT_TIMEOUT, EXIT_NUMERICAL]

/-- A greeting that ends the run does not end it with the code of a clean run. -/
theorem hello_ne_clean (s : FwScript) :
    (hello Wire.build s.hello s.ack).2 ≠ .error (.code EXIT_CLEAN) := by
  rw [hello_eq]
  cases heard s.hello with
  | silence | reset | closed | garbled => simp [EXIT_CLEAN, EXIT_PROTO]
  | msg m =>
    dsimp only
    split_ifs <;> simp [EXIT_CLEAN, EXIT_PROTO]

/-- The run goes on after the greeting when nothing is due in it. -/
theorem hello_ok_iff (s : FwScript) : (hello Wire.build s.hello s.ack).2 = .ok () ↔ dueHello s = none := by
  rw [hello_eq, dueHello]
  cases heard s.hello with
  | silence | reset | closed | garbled => simp
  | msg m =>
    obtain ⟨typ, seq, body⟩ := m
    dsimp only
    constructor
    · intro h
      split_ifs at h with htyp hsize hack hbody
      rw [if_pos ⟨not_not.mp htyp, hbody⟩, not_not.mp hack]
      rfl
    · intro h
      split_ifs at h with hown
      obtain ⟨htyp, hbody⟩ := hown
      have hsize : body.length = calcsize HELLO_FMT := by
        rw [hbody]
        exact Wire.SilHello.length_bytes _
      have hack : s.ack = .sent := by
        cases hs : s.ack with
        | sent => rfl
        | wouldBlock | failed =>
          rw [hs] at h
          cases h
      rw [if_neg (not_not.mpr htyp), if_neg (not_not.mpr hsize), if_neg (not_not.mpr hack), if_pos hbody]

/-- A run that is cut short is reported clean and is not complete. -/
theorem clean_of_cutShort (hhello : dueHello s = none) (hk : k < a.nTicks)
    (h : loop w a s.turns (begin c) k = .inr st) (hcut : CutShort a (s.turns k) k) :
    Clean (run w a s c) ∧ ∀ st', (run w a s c).2 = some st' → ¬ Complete a.nTicks st' := by
  rcases tick_cases w a (s.turns k) k st with ⟨_, _, _, _, _, hgoes⟩ | ⟨l, st', htick, hstops, hleaves⟩
  · exact absurd hcut hgoes.not_cutShort
  obtain rfl := hstops.brk_iff.mpr hcut
  rw [run_of_left ((hello_ok_iff s).mpr hhello) hk h htick]
  refine ⟨.inr ⟨_, rfl, rfl⟩, fun u hu hcomplete => ?_⟩
  have hrows := congrArg List.length hcomplete.rows
  have hran := congrArg List.length (ran_of_loop h).complete.rows
  obtain rfl := Option.some.inj hu
  obtain ⟨ms, -, -, hsame, -⟩ := hleaves.brk rfl
  have hsame : (Left.leave st' .brk).rows = st.rows := hsame
  rw [hsame, List.length_map, List.length_map, List.length_range] at hrows
  rw [List.length_map, List.length_map, List.length_range] at hran
  omega

/-- A run that is reported clean has passed the greeting, and its loop has come to its end or was cut short
in some tick. -/
theorem clean_cases (h : Clean (run w a s c)) : dueHello s = none ∧ ∃ k st st',
    loop w a s.turns (begin c) k = .inr st ∧ (run w a s c).2 = some st' ∧ Complete k st' ∧
      (k = a.nTicks ∨ k < a.nTicks ∧ CutShort a (s.turns k) k) := by
  cases hhello : (hello Wire.build s.hello s.ack).2 with
  | error e =>
    -- the greeting ends the run, and there is no log
    rw [run_eq, hhello] at h
    rcases h with hcode | ⟨st, hst, -⟩
    · obtain rfl : e = .code EXIT_CLEAN := hcode
      exact absurd hhello (hello_ne_clean s)
    · cases hst
  | ok =>
    refine ⟨(hello_ok_iff s).mp hhello, ?_⟩
    cases hloop : loop w a s.turns (begin c) a.nTicks with
    | inr st =>
      have hran := (ran_of_loop hloop).complete
      rw [run_of_complete hhello hloop]
      exact ⟨a.nTicks, st, _, hloop, rfl, ⟨hran.replies, hran.rows, hran.steps⟩, .inl rfl⟩
    | inl r =>
      obtain ⟨l, st'⟩ := r
      obtain ⟨k, t, hk, ht, htick⟩ := runUntil_range_stop_iff.mp hloop
      obtain ⟨hstops, hleaves⟩ := tick_stops htick
      have hran := ran_of_loop ht
      rw [run_of_left hhello hk ht htick] at h ⊢
      cases l with
      | brk =>
        obtain ⟨ms, hms, hgot, hrows, hsteps⟩ := hleaves.brk rfl
        refine ⟨k, t, _, ht, rfl, ⟨?_, ?_, ?_⟩, .inr ⟨hk, hstops.brk_iff.mp rfl⟩⟩
        · have hnone : ms.filter (fun m => m.1 = MsgType.FW_OUT) = [] := by
            rw [List.filter_eq_nil_iff]
            exact fun m hm => by simpa using hms m hm
          rw [Left.leave, hgot, List.filter_append, hnone, List.append_nil, hran.complete.replies]
        · rw [Left.leave, hrows, hran.complete.rows]
        · rw [Left.leave, hsteps, hran.complete.steps]
      | ended e =>
        rcases h with hcode | ⟨st, hst, haborted⟩
        · obtain rfl : e = .code EXIT_CLEAN := hcode
          exact absurd rfl hstops.ne_clean
        · obtain rfl := Option.some.inj hst
          have hflag : st'.aborted = true := (hleaves.aborted (by simp)).trans hran.aborted
          exact absurd (hflag.symm.trans haborted) (by decide)

/-- Whether a run that is reported clean is complete: when it is not cut short. -/
theorem complete_iff : (Clean (run w a s c) → ∃ st, (run w a s c).2 = some st ∧ Complete a.nTicks st) ↔
    Uncut w a s c := by
  constructor
  · intro hcomplete hhello k st hk hst hcut
    obtain ⟨hclean, hnot⟩ := clean_of_cutShort hhello hk hst hcut
    obtain ⟨st', hst', hall⟩ := hcomplete hclean
    exact hnot st' hst' hall
  · intro huncut hclean
    obtain ⟨hhello, k, st, st', hst, hst', hall, rfl | ⟨hk, hcut⟩⟩ := clean_cases hclean
    · exact ⟨st', hst', hall⟩
    · exact absurd hcut (huncut hhello k st hk hst)

/-- A tick that goes on is a loop of one tick that comes to its end. -/
theorem loop_one (h : tick w a (s.turns 0) 0 (begin c) = .inr st) :
    loop w a s.turns (begin c) 1 = .inr st := by
  rw [loop, List.range_one]
  exact runUntil_cons_inr h

variable (w a s c) in
/-- The run comes to its last tick, and the firmware has closed the connection there instead of replying. -/
def ClosesLast : Prop :=
  ∃ k st, k + 1 = a.nTicks ∧ loop w a s.turns (begin c) k = .inr st ∧ heard (s.turns k).recv = .closed

/-- **A run that is reported clean is complete up to its last tick or to a BYE.** It received as many replies
as it logged rows, at the times of the ticks, and stepped the plant that often; and this was as often as it has
ticks, unless the firmware said BYE in place of a reply. Nothing is said of a firmware that closes in the last
tick. -/
theorem ticks_of_clean (hopen : ¬ ClosesLast w a s c) (h : Clean (run w a s c)) :
    ∃ k st, (run w a s c).2 = some st ∧ Complete k st ∧
      (k = a.nTicks ∨ k < a.nTicks ∧ SaysBye (s.turns k)) := by
  obtain ⟨-, k, st, st', hst, hst', hall, hend⟩ := clean_cases h
  refine ⟨k, st', hst', hall, hend.imp_right fun ⟨hk, hcut⟩ => ⟨hk, hcut.ends.resolve_right ?_⟩⟩
  rintro ⟨hclosed, hlast⟩
  exact hopen ⟨k, st, by omega, hst, hclosed⟩

end Run

/-- A firmware of the same build that replies to the first STATE message with the motors off, and says BYE in
place of the second reply. -/
def farewell : FwScript where
  hello := .data (Wire.packed 1 0 (Wire.fillHello Wire.build).bytes)
  ack := .sent
  turns := fun k =>
    if k = 0 then ⟨.data (Wire.packed 4 1 (List.replicate (calcsize FW_OUT_FMT) 0)), .sent⟩
    else ⟨.data (Wire.packed 5 2 []), .sent⟩
  bye := .sent

/-- The first message of the firmware `farewell` is received as a reply, and the second as a BYE. -/
theorem heard_farewell : heard (farewell.turns 0).recv = .msg (MsgType.FW_OUT, 1,
      List.replicate (calcsize FW_OUT_FMT) 0) ∧ heard (farewell.turns 1).recv = .msg (MsgType.BYE, 2, []) :=
  ⟨heard_packed 4 1 (by rw [List.length_replicate]; decide), heard_packed 5 2 (Nat.zero_le _)⟩

/-- The run of two ticks with the firmware `farewell` goes through its first tick and is cut short in the
second, so it is reported clean and is not complete. -/
theorem clean_farewell : (∃ st, loop resting twoTicks farewell.turns (begin ()) 1 = .inr st) ∧
    Clean (run resting twoTicks farewell ()) ∧
    ∀ st, (run resting twoTicks farewell ()).2 = some st → ¬ Complete 2 st := by
  have hlen : (Wire.fillHello Wire.build).bytes.length ≤ 4000 := by
    rw [Wire.SilHello.length_bytes]
    decide
  have hgreeted : dueHello farewell = none := by
    have hheard := heard_packed 1 0 hlen
    rw [dueHello, farewell]
    simp only [hheard]
    rfl
  have hfirst : ∃ st, tick resting twoTicks (farewell.turns 0) 0 (begin ()) = .inr st := by
    obtain ⟨ch, htick⟩ := tick_of_sent (w := resting) (a := twoTicks) (x := farewell.turns 0) (begin ())
      (show 0 < 2 ^ 32 by decide) rfl
    rw [htick, heard_farewell.1]
    have hlater : (measured resting (begin ())).lastOutSeq < 1 := by decide
    have hcraft : (measured resting (begin ())).craft = (measure resting (begin ())).craft := rfl
    obtain ⟨-, -, hgood⟩ := reply_of_out resting 0 ch (List.replicate (calcsize FW_OUT_FMT) 0) hcraft hlater
    have hfinite : diverges resting (measure resting (begin ()))
        (List.replicate (calcsize FW_OUT_FMT) 0) = false := by
      unfold diverges
      cases unpackOut _ <;> rfl
    obtain ⟨st, -, hreply, -⟩ := hgood List.length_replicate hfinite
    exact ⟨st, hreply⟩
  obtain ⟨st, hst⟩ := hfirst
  have hloop := loop_one hst
  have hcut : CutShort twoTicks (farewell.turns 1) 1 :=
    ⟨⟨by decide, rfl⟩, .inl ⟨2, [], heard_farewell.2⟩⟩
  exact ⟨⟨st, hloop⟩, clean_of_cutShort hgreeted (by decide) hloop hcut⟩

/-- The run that ends with a farewell in its second tick is complete up to that tick: it received one reply,
logged one row and stepped once. -/
theorem ticks_of_clean_farewell :
    ∃ st, (run resting twoTicks farewell ()).2 = some st ∧ Complete 1 st := by
  obtain ⟨-, hclean, hnot⟩ := clean_farewell
  have hopen : ¬ ClosesLast resting twoTicks farewell () := by
    rintro ⟨k, st, hk, -, hclosed⟩
    obtain rfl : k = 1 := Nat.succ.inj hk
    rw [heard_farewell.2] at hclosed
    cases hclosed
  obtain ⟨k, st, hst, hall, rfl | ⟨hk, seq, body, hbye⟩⟩ := ticks_of_clean hopen hclean
  · exact absurd hall (hnot st hst)
  · cases k with
    | zero =>
      rw [heard_farewell.1] at hbye
      cases hbye
    | succ k =>
      obtain rfl : k = 0 := by
        have hk : k + 1 < 2 := hk
        omega
      exact ⟨st, hst, hall⟩

/-- A run that is reported clean need not be complete. -/
theorem not_complete : ¬ ∀ (σ F : Type) (w : Craft σ F) (a : RunArgs) (s : FwScript) (c : σ),
    Clean (run w a s c) → ∃ st, (run w a s c).2 = some st ∧ Complete a.nTicks st := by
  intro h
  obtain ⟨-, hclean, hnot⟩ := clean_farewell
  obtain ⟨st, hst, hall⟩ := h Unit Unit resting twoTicks farewell () hclean
  exact hnot st hst hall

end PlantRunner

end DroneMini
