import DroneMini.Sim.Gate

/-!
# The accounting of the lockstep

In a run of the runner every accepted STATE message is one event (`Takes`): the runner answers it with a reply,
or it ends there without one, because the reply does not go out or because the control tick does not return. So
only the last event of a run may be without a reply, and the header sequence number and the tick of the context
go up by one from reply to reply (`counted_of_run`). The tick field of the payload does not: `SilHal::setStatus`
is the setter of the status fields and leaves it out, so it is zero in every reply, and no run that accepts a
STATE message is accounted for (`accounted_iff`).
-/

namespace DroneMini

namespace Runner

variable {K : Type} [Field K] [LinearOrder K] [FloatEnv K]

/-- A turn with a reply, as an event of a run. -/
abbrev Reply (K : Type) := Event (Runner K) Transport (FwOut K)

/-- A turn that accepts a STATE message, from a runner to the runner after it, if the program goes on, with the
FW_OUT that it sends. The program ends without one when the reply does not go out, and it stays in the turn
when the control tick does not return with any budget. -/
inductive Takes (armTest : Bool) : Option (Runner K) → Transport → Option (Runner K) → Option (FwOut K) → Prop
  | replies {r r' : Runner K} {i : Transport} {o : FwOut K} (h : served armTest r i r' o) :
      Takes armTest (some r) i (some r') (some o)
  | unsent {r : Runner K} {i : Transport} {fuel : Nat} (hok : (r.hal.recvState i.recv).1 = .kOk)
      (h : turn fuel armTest r i = some (.exit 2)) : Takes armTest (some r) i none none
  | hangs {r : Runner K} {i : Transport} (hok : (r.hal.recvState i.recv).1 = .kOk)
      (h : ∀ fuel, turn fuel armTest r i = none) : Takes armTest (some r) i none none

/-- An accepted STATE message, as an event of a run. -/
abbrev Taken (K : Type) := Event (Option (Runner K)) Transport (Option (FwOut K))

/-- The events of a run are accounted for in the header and in the context: every accepted STATE message but
possibly the last is answered by one reply, the sequence numbers of the replies follow each other, and the tick
of the context counts the replies. -/
structure Counted (es : List (Taken K)) : Prop where
  answered : ∀ k (e : Taken K), es[k]? = some e → k + 1 < es.length → e.out.isSome
  seq : ∀ k (e e' : Taken K) o o', es[k]? = some e → es[k + 1]? = some e' → e.out = some o →
    e'.out = some o' → o'.seq = o.seq + 1
  tick : ∀ k (e : Taken K) r, es[k]? = some e → e.post = some r → r.ctx.tick = UInt32.ofNat (k + 1)

/-- The turns of a run are accounted for: every accepted STATE message is answered by one reply, which carries
the tick of the context. -/
structure Accounted (es : List (Taken K)) : Prop extends Counted es where
  all : ∀ e ∈ es, e.out.isSome
  shown : ∀ k (e : Taken K) o, es[k]? = some e → e.out = some o → o.out.tick = UInt32.ofNat (k + 1)

/-- What the runner knows after a number of replies: its control loop has ticked as often, the next reply has
the number after that, and its tick field is still zero. -/
structure AfterReplies (n : Nat) (r : Runner K) : Prop where
  tick : r.ctx.tick = .ofNat n
  seq : r.hal.seq = .ofNat (n + 1)
  out : r.hal.out.tick = 0

omit [LinearOrder K] [FloatEnv K] in
/-- No call of a control tick writes the tick field. -/
theorem call_tick (hal : SilHal K) (calls : List (HalCall K)) :
    (calls.foldl SilHal.call hal).out.tick = hal.out.tick := by
  induction calls generalizing hal with
  | nil => rfl
  | cons c calls ih =>
      rw [List.foldl_cons, ih]
      cases c <;> rfl

/-- Before its first reply the runner has ticked no time, and its first reply will have the number 1 after the
HELLO. -/
theorem afterReplies_start (a : Args K) : AfterReplies 0 (start a) := ⟨rfl, rfl, rfl⟩

/-- One more reply has the number after the last and zero in its tick field, and the runner behind it knows
one reply more. -/
theorem AfterReplies.step {armTest : Bool} {n : Nat} {r r' : Runner K} {i : Transport} {o : FwOut K}
    (h : AfterReplies n r) (hs : served armTest r i r' o) :
    (r.hal.recvState i.recv).1 = .kOk ∧ o.seq = .ofNat (n + 1) ∧ o.out.tick = 0 ∧
      AfterReplies (n + 1) r' := by
  obtain ⟨hal, hrecv, spec⟩ := served_spec hs
  obtain ⟨fuel, htick⟩ := spec.tick
  have hout : o.out.tick = 0 := by
    rw [spec.out]
    show (o.tick.calls.foldl SilHal.call hal).out.tick = 0
    rw [call_tick, spec.accepts.out, h.out]
  refine ⟨by rw [hrecv], spec.seq.1.trans h.seq, hout, ?_, ?_, ?_⟩
  · rw [(ControlLoop.tick_spec htick).tick, h.tick, UInt32.ofNat_add]
    rfl
  · rw [spec.seq.2, h.seq, UInt32.ofNat_add (n + 1)]
    rfl
  · rw [spec.hal]
    exact hout

/-- **The replies of a run, one by one**: each comes from a turn that accepted a STATE message, has its place
in the run as its number, and has zero in its tick field. -/
theorem replies_of_run {a : Args K} {r : Runner K} {es : List (Reply K)}
    (h : Run (served a.armTest) (start a) es r) : AfterReplies es.length r ∧
      ∀ k (e : Reply K), es[k]? = some e → (e.pre.hal.recvState e.inp.recv).1 = .kOk ∧
        e.out.seq = UInt32.ofNat (k + 1) ∧ e.post.ctx.tick = UInt32.ofNat (k + 1) ∧ e.out.out.tick = 0 := by
  induction h with
  | nil =>
      refine ⟨afterReplies_start a, fun k e he => ?_⟩
      cases he
  | @snoc t u i o es _ hstep ih =>
      obtain ⟨hafter, hpast⟩ := ih
      obtain ⟨haccept, hseq, hout, hpost⟩ := hafter.step hstep
      rw [List.length_append, List.length_singleton]
      refine ⟨hpost, fun k e he => ?_⟩
      rcases Nat.lt_or_ge k es.length with hk | hk
      · rw [List.getElem?_append_left hk] at he
        exact hpast k e he
      · rw [List.getElem?_append_right hk, List.getElem?_singleton] at he
        split_ifs at he with hlast
        obtain rfl : k = es.length := by omega
        cases he
        exact ⟨haccept, hseq, hpost.tick, hout⟩

/-- A turn with a reply, as an event of a run that may end. -/
def taken (e : Reply K) : Taken K := ⟨some e.pre, e.inp, some e.post, some e.out⟩

/-- A run of accepted STATE messages is a run of replies, and perhaps one message without a reply after it. -/
theorem replies_of_takes {armTest : Bool} {r : Runner K} {x : Option (Runner K)} {es : List (Taken K)}
    (h : Run (Takes armTest) (some r) es x) : ∃ rs r', Run (served armTest) r rs r' ∧
      (es = rs.map taken ∧ x = some r' ∨ ∃ i, es = rs.map taken ++ [⟨some r', i, none, none⟩] ∧ x = none) := by
  induction h with
  | nil => exact ⟨[], r, .nil r, .inl ⟨rfl, rfl⟩⟩
  | @snoc x y i o es _ htakes ih =>
    obtain ⟨rs, r', hrun, ⟨rfl, rfl⟩ | ⟨j, -, rfl⟩⟩ := ih
    · cases htakes with
      | replies hserved =>
        refine ⟨_, _, .snoc hrun hserved, .inl ⟨?_, rfl⟩⟩
        rw [List.map_append, List.map_singleton]
        rfl
      | unsent | hangs => exact ⟨rs, r', hrun, .inr ⟨i, rfl, rfl⟩⟩
    · cases htakes

/-- **The accepted STATE messages of a run, one by one**: all but the last are answered, and each reply has its
number in the header and in the context, and zero in its tick field. -/
theorem taken_of_run {a : Args K} {x : Option (Runner K)} {es : List (Taken K)}
    (h : Run (Takes a.armTest) (some (start a)) es x) : ∀ k (e : Taken K), es[k]? = some e →
      (k + 1 < es.length → e.out.isSome) ∧ (∀ r, e.post = some r → r.ctx.tick = UInt32.ofNat (k + 1)) ∧
        ∀ o, e.out = some o → o.seq = UInt32.ofNat (k + 1) ∧ o.out.tick = 0 := by
  obtain ⟨rs, r', hrun, hes⟩ := replies_of_takes h
  have hreplies := (replies_of_run hrun).2
  have hreply (k : Nat) (e : Taken K) (he : (rs.map taken)[k]? = some e) : e.out.isSome ∧
      (∀ r, e.post = some r → r.ctx.tick = UInt32.ofNat (k + 1)) ∧
        ∀ o, e.out = some o → o.seq = UInt32.ofNat (k + 1) ∧ o.out.tick = 0 := by
    rw [List.getElem?_map, Option.map_eq_some_iff] at he
    obtain ⟨e, he, rfl⟩ := he
    obtain ⟨-, hseq, htick, hout⟩ := hreplies k e he
    refine ⟨rfl, fun r hr => ?_, fun o ho => ?_⟩
    · cases hr
      exact htick
    · cases ho
      exact ⟨hseq, hout⟩
  intro k e he
  rcases hes with ⟨rfl, -⟩ | ⟨i, rfl, -⟩
  · obtain ⟨hsome, hrest⟩ := hreply k e he
    exact ⟨fun _ => hsome, hrest⟩
  · rcases Nat.lt_or_ge k (rs.map (taken (K := K))).length with hk | hk
    · rw [List.getElem?_append_left hk] at he
      obtain ⟨hsome, hrest⟩ := hreply k e he
      exact ⟨fun _ => hsome, hrest⟩
    · -- the message without a reply
      rw [List.getElem?_append_right hk, List.getElem?_singleton] at he
      split_ifs at he
      cases he
      refine ⟨fun hlast => ?_, fun r hr => ?_, fun o ho => ?_⟩
      · rw [List.length_append, List.length_singleton] at hlast
        omega
      · cases hr
      · cases ho

/-- Every run is accounted for in the header and in the context. -/
theorem counted_of_run {a : Args K} {x : Option (Runner K)} {es : List (Taken K)}
    (h : Run (Takes a.armTest) (some (start a)) es x) : Counted es := by
  have hall := taken_of_run h
  refine ⟨fun k e he => (hall k e he).1, fun k e e' o o' he he' ho ho' => ?_, fun k e r he => (hall k e he).2.1 r⟩
  rw [((hall k e he).2.2 o ho).1, ((hall (k + 1) e' he').2.2 o' ho').1, UInt32.ofNat_add (k + 1)]
  rfl

/-- **A run is accounted for in all but the tick field**, up to a last message that is not answered any more.
The whole account is right only when no STATE message is accepted at all. -/
theorem accounted_iff {a : Args K} {x : Option (Runner K)} {es : List (Taken K)}
    (h : Run (Takes a.armTest) (some (start a)) es x) : Counted es ∧ (Accounted es ↔ es = []) := by
  have hcounted := counted_of_run h
  refine ⟨hcounted, fun hall => ?_, fun hnil => ⟨hcounted, ?_, ?_⟩⟩
  · cases es with
    | nil => rfl
    | cons e es =>
      obtain ⟨o, ho⟩ := Option.isSome_iff_exists.mp (hall.all e List.mem_cons_self)
      have hshown := hall.shown 0 e o rfl ho
      rw [((taken_of_run h 0 e rfl).2.2 o ho).2] at hshown
      exact absurd hshown (by decide)
  · simp [hnil]
  · simp [hnil]

/-- The message of a level craft whose reply does not go out. -/
def unsentMsg : Transport := { levelMsg 3 3000 [] with sent := false }

set_option maxRecDepth 10000 in
/-- Two messages that are answered, and a third whose reply does not go out. -/
theorem twoReplies_run : ∃ (rs : List (Reply ℚ)) (r : Runner ℚ),
    Run (served openLoop.armTest) (start openLoop) rs r ∧ rs.length = 2 ∧
      Takes openLoop.armTest (some r) unsentMsg none none := by
  have hrun : (execute (fun r i => (turn 1 true r i).bind replyOf) (start openLoop)
      [levelMsg 1 1000 [], levelMsg 2 2000 []]).any (fun q =>
        ((turn 1 true q.2 (levelMsg 3 3000 [])).bind replyOf).isSome) = true := by
    decide +kernel
  obtain ⟨⟨rs, r⟩, hrs, hlast⟩ := (Option.any_eq_true _ _).mp hrun
  have hlen : rs.length = 2 := by
    rw [← List.length_map (f := Event.inp), execute_inputs hrs]
    rfl
  -- the third message is one that would be answered
  obtain ⟨⟨r', o⟩, hreply⟩ := Option.isSome_iff_exists.mp hlast
  obtain ⟨hal, hrecv, -⟩ := served_spec (served_of_reply hreply)
  obtain ⟨t, hturn, hsome⟩ := Option.bind_eq_some_iff.mp hreply
  have hexit : turn 1 true r unsentMsg = some (.exit 2) := by
    have hunsent := turn_of_unsent 1 true r (levelMsg 3 3000 []).recv
    have hsent : turn 1 true r ⟨(levelMsg 3 3000 []).recv, true⟩ = some t := hturn
    rw [hsent] at hunsent
    cases t with
    | exit code => cases hsome
    | reply r o => exact hunsent
  exact ⟨rs, r, served_of_execute hrs, hlen, .unsent (congrArg Prod.fst hrecv) hexit⟩

/-- A run of replies is a run of accepted STATE messages. -/
theorem takes_of_served {armTest : Bool} {r r' : Runner K} {rs : List (Reply K)}
    (h : Run (served armTest) r rs r') : Run (Takes armTest) (some r) (rs.map taken) (some r') :=
  h.map some taken (fun _ => rfl) (fun _ => rfl) fun _ => .replies

/-- The run of these three messages is accounted for in the header and in the context, and not altogether. -/
theorem accounted_iff_three :
    ∃ es : List (Taken ℚ), Run (Takes openLoop.armTest) (some (start openLoop)) es none ∧
      es.length = 3 ∧ Counted es ∧ (Accounted es ↔ es = []) := by
  obtain ⟨rs, r, hrun, hlen, hlast⟩ := twoReplies_run
  have htaken : Run (Takes openLoop.armTest) (some (start openLoop))
      (rs.map taken ++ [⟨some r, unsentMsg, none, none⟩]) none := .snoc (takes_of_served hrun) hlast
  exact ⟨_, htaken, by simp [hlen], accounted_iff htaken⟩

/-- Two messages that are both answered are not accounted for: the second reply carries the tick 0. -/
theorem not_accounted :
    ¬ ∀ (a : Args ℚ) (es : List (Taken ℚ)) (x : Option (Runner ℚ)),
      Run (Takes a.armTest) (some (start a)) es x → Accounted es := by
  intro h
  obtain ⟨rs, r, hrun, hlen, -⟩ := twoReplies_run
  have htaken := takes_of_served hrun
  have hfirst : (rs.map taken)[1]? = some (taken rs[1]) := by
    rw [List.getElem?_map, List.getElem?_eq_getElem]
    rfl
  have hshown := (h _ _ _ htaken).shown 1 _ _ hfirst rfl
  rw [((taken_of_run htaken 1 _ hfirst).2.2 _ rfl).2] at hshown
  exact absurd hshown (by decide)

end Runner

end DroneMini
