import Mathlib.Data.List.Induction

/-!
# Runs of a labelled transition system

A system is a relation `step s i t o`: from state `s` and input `i` it moves to `t` and emits `o`. A
run keeps its whole history as a list of events, oldest first, each event with the states on both
sides of its step. Runs grow at the end (`Run.snoc`), so an induction over a run is an induction over
what has happened so far; a property of the past is a property of the list of events.

`Run.invariant` lifts what a step preserves to every state of a run, `Run.induct` lifts a relation
between the history and the state under a condition each event meets after its own history
(`Along`), `Run.history` is that rule without a condition, and `Run.each` also says what every step shows.
`Run.pair` is about the states of two runs in lockstep. `Run.filterMap` and `Run.map` carry a run over to
another system, and `Run.split` cuts a run at an event.
-/

namespace DroneMini

/-- One step of a run: the state before it, its input, the state after it and its output. -/
structure Event (σ ι ω : Type*) where
  pre : σ
  inp : ι
  post : σ
  out : ω

variable {σ ι ω : Type*} {step : σ → ι → σ → ω → Prop}

/-- The finite runs of a transition system, each with the list of its events, oldest first. -/
inductive Run (step : σ → ι → σ → ω → Prop) : σ → List (Event σ ι ω) → σ → Prop
  | nil (s : σ) : Run step s [] s
  | snoc {s t u : σ} {i : ι} {o : ω} {es : List (Event σ ι ω)} :
      Run step s es t → step t i u o → Run step s (es ++ [⟨t, i, u, o⟩]) u

/-- The states in which some run from `s` ends. -/
def Reach (step : σ → ι → σ → ω → Prop) (s t : σ) : Prop := ∃ es, Run step s es t

/-- Every event of the list meets `G` after the events before it. -/
def Along (G : List (Event σ ι ω) → Event σ ι ω → Prop) (es : List (Event σ ι ω)) : Prop :=
  ∀ hist e later, es = hist ++ e :: later → G hist e

/-- The last event of a list comes after all the others. -/
theorem along_snoc {G : List (Event σ ι ω) → Event σ ι ω → Prop} {es : List (Event σ ι ω)}
    {e : Event σ ι ω} : Along G (es ++ [e]) ↔ Along G es ∧ G es e := by
  constructor
  · intro h
    refine ⟨fun hist x later heq => ?_, h es e [] rfl⟩
    exact h hist x (later ++ [e]) (by rw [heq, List.append_assoc, List.cons_append])
  · rintro ⟨hes, he⟩ hist x later heq
    rcases List.eq_nil_or_concat later with rfl | ⟨later', y, rfl⟩
    · obtain ⟨rfl, hx⟩ := List.append_inj' heq rfl
      cases hx
      exact he
    · rw [List.concat_eq_append, ← List.cons_append, ← List.append_assoc] at heq
      obtain ⟨hh, -⟩ := List.append_inj' heq rfl
      exact hes hist x later' hh

/-- A condition on single events holds along a list when every member meets it. -/
theorem along_of_forall {p : Event σ ι ω → Prop} {es : List (Event σ ι ω)} (h : ∀ e ∈ es, p e) :
    Along (fun _ e => p e) es := by
  rintro hist e later rfl
  exact h e (by simp)

/-- What holds along a list of events holds along each of its prefixes. -/
theorem Along.of_append {G : List (Event σ ι ω) → Event σ ι ω → Prop} {es fs : List (Event σ ι ω)}
    (h : Along G (es ++ fs)) : Along G es := by
  rintro hist e later rfl
  exact h hist e (later ++ fs) (by simp)

/-- A list is cut at one of its places into what is before it, the element there and what is behind it. -/
theorem split_of_getElem? {α : Type*} {l : List α} {k : Nat} {a : α} (h : l[k]? = some a) :
    ∃ hist later, l = hist ++ a :: later ∧ hist.length = k := by
  obtain ⟨hk, rfl⟩ := List.getElem?_eq_some_iff.mp h
  refine ⟨l.take k, l.drop (k + 1), ?_, by simp [Nat.le_of_lt hk]⟩
  rw [← List.drop_eq_getElem_cons hk, List.take_append_drop]

/-- What holds along a list, at one of its places. -/
theorem Along.place {G : List (Event σ ι ω) → Event σ ι ω → Prop} {es : List (Event σ ι ω)} (h : Along G es)
    {k : Nat} {e : Event σ ι ω} (he : es[k]? = some e) : ∃ hist, hist.length = k ∧ G hist e := by
  obtain ⟨hist, later, hes, hlen⟩ := split_of_getElem? he
  exact ⟨hist, hlen, h hist e later hes⟩

namespace Run

variable {s t u : σ} {es fs : List (Event σ ι ω)}

/-- A run without an event ends in the state in which it starts. -/
theorem nil_inv (h : Run step s [] t) : t = s := by
  generalize hl : ([] : List (Event σ ι ω)) = l at h
  cases h with
  | nil => rfl
  | snoc => simp at hl

/-- The last event of a run is a step from the state the run before it ends in. -/
theorem snoc_inv {e : Event σ ι ω} (h : Run step s (es ++ [e]) t) :
    Run step s es e.pre ∧ step e.pre e.inp e.post e.out ∧ e.post = t := by
  generalize hl : es ++ [e] = l at h
  cases h with
  | nil => simp at hl
  | snoc hr hs =>
      obtain ⟨rfl, he⟩ := List.append_inj' hl rfl
      cases he
      exact ⟨hr, hs, rfl⟩

/-- A run seen through a map on states and a partial one on events, whose steps are those of another
system or leave its state as it is, is a run of that system. -/
theorem filterMap {σ' ι' ω' : Type*} {step' : σ' → ι' → σ' → ω' → Prop} (f : σ → σ')
    (g : Event σ ι ω → Option (Event σ' ι' ω'))
    (hsome : ∀ e, step e.pre e.inp e.post e.out → ∀ e' ∈ g e,
      e'.pre = f e.pre ∧ e'.post = f e.post ∧ step' e'.pre e'.inp e'.post e'.out)
    (hnone : ∀ e, step e.pre e.inp e.post e.out → g e = none → f e.post = f e.pre)
    (h : Run step s es t) : Run step' (f s) (es.filterMap g) (f t) := by
  induction h with
  | nil => exact .nil _
  | @snoc t u i o es _ hs ih =>
      rw [List.filterMap_append]
      cases hg : g ⟨t, i, u, o⟩ with
      | none =>
          have hstay : f u = f t := hnone ⟨t, i, u, o⟩ hs hg
          rw [List.filterMap_cons_none hg, List.filterMap_nil, List.append_nil, hstay]
          exact ih
      | some e' =>
          obtain ⟨pre, inp, post, out⟩ := e'
          obtain ⟨hpre, hpost, hs'⟩ := hsome ⟨t, i, u, o⟩ hs _ hg
          obtain rfl : pre = f t := hpre
          obtain rfl : post = f u := hpost
          rw [List.filterMap_cons_some hg, List.filterMap_nil]
          exact .snoc ih hs'

/-- A run seen through a map on states and one on events is a run of any system that takes the mapped
steps. -/
theorem map {σ' ι' ω' : Type*} {step' : σ' → ι' → σ' → ω' → Prop} (f : σ → σ')
    (g : Event σ ι ω → Event σ' ι' ω') (hpre : ∀ e, (g e).pre = f e.pre)
    (hpost : ∀ e, (g e).post = f e.post)
    (hstep : ∀ e, step e.pre e.inp e.post e.out → step' (g e).pre (g e).inp (g e).post (g e).out)
    (h : Run step s es t) : Run step' (f s) (es.map g) (f t) := by
  rw [← List.filterMap_eq_map']
  refine h.filterMap f (fun e => some (g e)) ?_ ?_
  · intro e hs e' he'
    rw [Option.mem_some_iff] at he'
    rw [← he']
    exact ⟨hpre e, hpost e, hstep e hs⟩
  · intro e _ hnone
    cases hnone

/-- A run of a system is a run of any system with more steps. -/
theorem mono {step' : σ → ι → σ → ω → Prop} (hsub : ∀ a i b o, step a i b o → step' a i b o)
    (h : Run step s es t) : Run step' s es t := by
  have hmap := h.map id id (fun _ => rfl) (fun _ => rfl) fun e => hsub e.pre e.inp e.post e.out
  rwa [List.map_id] at hmap

/-- A run from `s` to `t` and one from `t` to `u` make up a run from `s` to `u`. -/
theorem append (h : Run step s es t) (h' : Run step t fs u) : Run step s (es ++ fs) u := by
  induction h' with
  | nil => simpa using h
  | snoc _ hs ih =>
      rw [← List.append_assoc]
      exact .snoc ih hs

/-- A run over an append is a run over each part. -/
theorem append_inv (h : Run step s (es ++ fs) u) : ∃ t, Run step s es t ∧ Run step t fs u := by
  induction fs using List.reverseRecOn generalizing u with
  | nil => exact ⟨u, by simpa using h, .nil u⟩
  | append_singleton fs e ih =>
      rw [← List.append_assoc] at h
      obtain ⟨hr, hs, rfl⟩ := h.snoc_inv
      obtain ⟨t, h1, h2⟩ := ih hr
      exact ⟨t, h1, .snoc h2 hs⟩

/-- A run is cut at one of its events into the run before it, the step of the event and the run behind it. -/
theorem split {hist later : List (Event σ ι ω)} {e : Event σ ι ω}
    (h : Run step s (hist ++ e :: later) u) :
    Run step s hist e.pre ∧ step e.pre e.inp e.post e.out ∧ Run step e.post later u := by
  rw [show hist ++ e :: later = hist ++ [e] ++ later by simp] at h
  obtain ⟨t, h1, h2⟩ := h.append_inv
  obtain ⟨hr, hs, rfl⟩ := h1.snoc_inv
  exact ⟨hr, hs, h2⟩

/-- Every event of a run is a step of the system. -/
theorem step_of_mem (h : Run step s es t) {e : Event σ ι ω} (he : e ∈ es) :
    step e.pre e.inp e.post e.out := by
  obtain ⟨hist, later, rfl⟩ := List.append_of_mem he
  exact h.split.2.1

/-- A deterministic system has one run over a list of inputs. -/
theorem det (hdet : ∀ a i b o b' o', step a i b o → step a i b' o' → b = b' ∧ o = o')
    {es' : List (Event σ ι ω)} {t' : σ} (h : Run step s es t) (h' : Run step s es' t')
    (hinp : es.map Event.inp = es'.map Event.inp) : es = es' ∧ t = t' := by
  induction h generalizing es' t' with
  | nil =>
      obtain rfl : es' = [] := List.map_eq_nil_iff.mp hinp.symm
      exact ⟨rfl, h'.nil_inv.symm⟩
  | snoc hr hs ih =>
      rcases List.eq_nil_or_concat es' with rfl | ⟨es', e, rfl⟩
      · simp at hinp
      · rw [List.concat_eq_append] at h' hinp ⊢
        obtain ⟨hr', hs', rfl⟩ := h'.snoc_inv
        rw [List.map_append, List.map_append] at hinp
        obtain ⟨hbefore, hlast⟩ := List.append_inj' hinp rfl
        rw [List.map_singleton, List.map_singleton, List.singleton_inj] at hlast
        obtain ⟨rfl, hpre⟩ := ih hr' hbefore
        obtain ⟨pre, inp, post, out⟩ := e
        subst hlast hpre
        obtain ⟨rfl, rfl⟩ := hdet _ _ _ _ _ _ hs hs'
        exact ⟨rfl, rfl⟩

/-- A deterministic system has a run over a list of inputs exactly when it can take each of them where the
inputs before it lead to. -/
theorem exists_iff_enabled (hdet : ∀ a i b o b' o', step a i b o → step a i b' o' → b = b' ∧ o = o') {s : σ}
    {is : List ι} : (∃ es t, Run step s es t ∧ es.map Event.inp = is) ↔
      ∀ before i after, is = before ++ i :: after → ∀ es t, Run step s es t → es.map Event.inp = before →
        ∃ u o, step t i u o := by
  constructor
  · rintro ⟨es, t, hrun, hinp⟩ before i after his es' t' hrun' hinp'
    rw [his] at hinp
    obtain ⟨fs, later, rfl, hfs, hlater⟩ := List.map_eq_append_iff.mp hinp
    obtain ⟨e, gs, rfl, rfl, -⟩ := List.map_eq_cons_iff.mp hlater
    obtain ⟨hpre, hstep, -⟩ := hrun.split
    obtain ⟨-, rfl⟩ := hrun'.det hdet hpre (hinp'.trans hfs.symm)
    exact ⟨_, _, hstep⟩
  · intro henabled
    induction is using List.reverseRecOn with
    | nil => exact ⟨[], s, .nil s, rfl⟩
    | append_singleton is i ih =>
        obtain ⟨es, t, hrun, hinp⟩ := ih fun before j after his =>
          henabled before j (after ++ [i]) (by rw [his, List.append_assoc, List.cons_append])
        obtain ⟨u, o, hstep⟩ := henabled is i [] rfl es t hrun hinp
        exact ⟨_, u, .snoc hrun hstep, by rw [List.map_append, hinp, List.map_singleton]⟩

/-- The rule of runs: a relation between the history and the state that holds at the start and is
kept by every step that meets its condition holds at the end. -/
theorem induct {G : List (Event σ ι ω) → Event σ ι ω → Prop} {P : List (Event σ ι ω) → σ → Prop}
    (h : Run step s es t) (hG : Along G es) (h0 : P [] s)
    (hstep : ∀ hist e, P hist e.pre → step e.pre e.inp e.post e.out → G hist e →
      P (hist ++ [e]) e.post) : P es t := by
  induction h with
  | nil => exact h0
  | snoc _ hs ih =>
      obtain ⟨hG', he⟩ := along_snoc.mp hG
      exact hstep _ ⟨_, _, _, _⟩ (ih hG') hs he

/-- The rule of runs, with no condition on the steps. -/
theorem history {P : List (Event σ ι ω) → σ → Prop} (h : Run step s es t) (h0 : P [] s)
    (hstep : ∀ hist e, P hist e.pre → step e.pre e.inp e.post e.out → P (hist ++ [e]) e.post) : P es t :=
  h.induct (G := fun _ _ => True) (fun _ _ _ _ => trivial) h0 fun hist e hpre hs _ => hstep hist e hpre hs

/-- The rule of steps: what every step keeps holds at the end of a run, and what every step shows along the
way holds of all of them. -/
theorem each {G : List (Event σ ι ω) → Event σ ι ω → Prop} {P : σ → Prop} {R : Event σ ι ω → Prop}
    (h : Run step s es t) (hG : Along G es) (h0 : P s)
    (hstep : ∀ hist e, P e.pre → step e.pre e.inp e.post e.out → G hist e → P e.post ∧ R e) :
    P t ∧ ∀ e ∈ es, R e := by
  refine h.induct (P := fun hist b => P b ∧ ∀ e ∈ hist, R e) hG ⟨h0, by simp⟩ ?_
  rintro hist e ⟨hpre, hall⟩ hs he
  obtain ⟨hpost, hshown⟩ := hstep hist e hpre hs he
  exact ⟨hpost, List.forall_mem_append.mpr ⟨hall, List.forall_mem_singleton.mpr hshown⟩⟩

/-- The invariant rule: what every step preserves holds of every state of a run. -/
theorem invariant {I : σ → Prop} (h : Run step s es t) (h0 : I s)
    (hstep : ∀ a i b o, I a → step a i b o → I b) : I t ∧ ∀ e ∈ es, I e.pre ∧ I e.post := by
  refine h.each (G := fun _ _ => True) (fun _ _ _ _ => trivial) h0 ?_
  rintro hist e hpre hs -
  have hpost := hstep _ _ _ _ hpre hs
  exact ⟨hpost, hpre, hpost⟩

/-- A count that the history determines stays within a bound in every state of a run exactly when it does for
every beginning of the run. -/
theorem forall_post_iff {f : σ → Nat} {g : List (Event σ ι ω) → Nat} {bound : Nat}
    (h : Run step s es t) (hfg : ∀ before u, Run step s before u → f u = g before)
    (h0 : g [] ≤ bound) : (∀ e ∈ es, f e.post ≤ bound) ↔
      ∀ before later, es = before ++ later → g before ≤ bound := by
  have hpost {hist later : List (Event σ ι ω)} {e : Event σ ι ω} (hes : es = hist ++ e :: later) :
      f e.post = g (hist ++ [e]) := by
    rw [hes] at h
    obtain ⟨hr, hs, -⟩ := h.split
    exact hfg _ _ (.snoc hr hs)
  constructor
  · intro hall before later hes
    rcases List.eq_nil_or_concat before with rfl | ⟨hist, e, rfl⟩
    · exact h0
    · rw [List.concat_eq_append, List.append_assoc, List.singleton_append] at hes
      rw [List.concat_eq_append, ← hpost hes]
      exact hall e (by simp [hes])
  · intro hall e he
    obtain ⟨hist, later, hes⟩ := List.append_of_mem he
    rw [hpost hes]
    exact hall (hist ++ [e]) later (by rw [hes, List.append_assoc, List.singleton_append])

/-- The rule of two runs in lockstep: a relation between their states that every pair of steps keeps holds
on both sides of every pair. -/
theorem pair {σ' ι' ω' : Type*} {step' : σ' → ι' → σ' → ω' → Prop} {P : σ → σ' → Prop} {s' t' : σ'}
    {ps : List (Event σ ι ω × Event σ' ι' ω')} (h : Run step s (ps.map Prod.fst) t)
    (h' : Run step' s' (ps.map Prod.snd) t') (h0 : P s s')
    (hstep : ∀ p ∈ ps, P p.1.pre p.2.pre → step p.1.pre p.1.inp p.1.post p.1.out →
      step' p.2.pre p.2.inp p.2.post p.2.out → P p.1.post p.2.post) :
    P t t' ∧ ∀ p ∈ ps, P p.1.pre p.2.pre ∧ P p.1.post p.2.post := by
  induction ps using List.reverseRecOn generalizing t t' with
  | nil =>
      rw [h.nil_inv, h'.nil_inv]
      exact ⟨h0, by simp⟩
  | append_singleton ps p ih =>
      rw [List.map_append, List.map_singleton] at h h'
      obtain ⟨hr, hs, rfl⟩ := h.snoc_inv
      obtain ⟨hr', hs', rfl⟩ := h'.snoc_inv
      obtain ⟨hpre, hall⟩ := ih hr hr' fun q hq => hstep q (by simp [hq])
      have hpost := hstep p (by simp) hpre hs hs'
      refine ⟨hpost, fun q hq => ?_⟩
      rcases List.mem_append.mp hq with hq | hq
      · exact hall q hq
      · rw [List.mem_singleton.mp hq]
        exact ⟨hpre, hpost⟩

end Run

theorem Reach.refl (s : σ) : Reach step s s := ⟨[], .nil s⟩

theorem Reach.single {s t : σ} {i : ι} {o : ω} (h : step s i t o) : Reach step s t :=
  ⟨_, .snoc (.nil s) h⟩

theorem Reach.trans {s t u : σ} (h : Reach step s t) (h' : Reach step t u) : Reach step s u := by
  obtain ⟨es, hr⟩ := h
  obtain ⟨fs, hr'⟩ := h'
  exact ⟨es ++ fs, hr.append hr'⟩

/-- The invariant rule for reachable states: what holds at first and is kept by every step holds of all of
them. -/
theorem Reach.invariant {I : σ → Prop} {s t : σ} (h : Reach step s t) (h0 : I s)
    (hstep : ∀ a i b o, I a → step a i b o → I b) : I t := by
  obtain ⟨es, hr⟩ := h
  exact (hr.invariant h0 hstep).1

/-! ## Stages -/

/-- The rule of stages: when every step leads to the next stage, a run leads as many stages on as it has
events. -/
theorem Run.stage {I : Nat → σ → Prop} {s t : σ} {es : List (Event σ ι ω)} {k : Nat} (h : Run step s es t)
    (h0 : I k s) (hstep : ∀ n a i b o, I n a → step a i b o → I (n + 1) b) : I (k + es.length) t := by
  refine h.history (P := fun es t => I (k + es.length) t) h0 fun hist e hpre hs => ?_
  rw [List.length_append, List.length_singleton, ← Nat.add_assoc]
  exact hstep _ _ _ _ _ hpre hs

/-- With a last stage, every state can come to rest. -/
theorem Reach.rests {I : Nat → σ → Prop} {last : Nat} (hlast : ∀ n a, I n a → n ≤ last)
    (hstep : ∀ n a i b o, I n a → step a i b o → I (n + 1) b) {s : σ} {k : Nat} (h : I k s) :
    ∃ t, Reach step s t ∧ ∀ i b o, ¬ step t i b o := by
  induction hleft : last + 1 - k generalizing s k with
  | zero =>
      have := hlast k s h
      omega
  | succ left ih =>
      by_cases hrest : ∀ i b o, ¬ step s i b o
      · exact ⟨s, .refl s, hrest⟩
      · push Not at hrest
        obtain ⟨i, b, o, hs⟩ := hrest
        obtain ⟨t, hreach, ht⟩ := ih (hstep k s i b o h hs) (by omega)
        exact ⟨t, .trans (.single hs) hreach, ht⟩

/-! ## Runs of an executable system -/

/-- The events of running an executable step function over a list of inputs, and the last state. -/
def execute (f : σ → ι → Option (σ × ω)) : σ → List ι → Option (List (Event σ ι ω) × σ)
  | s, [] => some ([], s)
  | s, i :: is =>
    (f s i).bind fun r => (execute f r.1 is).map fun q => (⟨s, i, r.1, r.2⟩ :: q.1, q.2)

/-- What `execute` returns is a run of the system whose step is `f`. -/
theorem execute_run {f : σ → ι → Option (σ × ω)} {s t : σ} {is : List ι} {es : List (Event σ ι ω)}
    (h : execute f s is = some (es, t)) :
    Run (fun a i b o => f a i = some (b, o)) s es t := by
  induction is generalizing s es with
  | nil =>
      cases h
      exact .nil _
  | cons i is ih =>
      obtain ⟨⟨t', o⟩, hf, hx⟩ := Option.bind_eq_some_iff.mp h
      obtain ⟨⟨es', u'⟩, hrest, he⟩ := Option.map_eq_some_iff.mp hx
      cases he
      exact Run.append (.snoc (.nil s) hf) (ih hrest)

/-- The inputs of the events that `execute` returns are the inputs it was given, in order. -/
theorem execute_inputs {f : σ → ι → Option (σ × ω)} {s t : σ} {is : List ι}
    {es : List (Event σ ι ω)} (h : execute f s is = some (es, t)) : es.map Event.inp = is := by
  induction is generalizing s es with
  | nil =>
      cases h
      rfl
  | cons i is ih =>
      obtain ⟨⟨t', o⟩, hf, hx⟩ := Option.bind_eq_some_iff.mp h
      obtain ⟨⟨es', u'⟩, hrest, he⟩ := Option.map_eq_some_iff.mp hx
      cases he
      rw [List.map_cons, ih hrest]

/-- Two runs over inputs paired with each other, as runs over the pairs of their events. -/
theorem execute_pair {σ' ι' ω' : Type*} {f : σ → ι → Option (σ × ω)} {g : σ' → ι' → Option (σ' × ω')}
    {s t : σ} {s' t' : σ'} {is : List ι} {js : List ι'} {es : List (Event σ ι ω)}
    {es' : List (Event σ' ι' ω')} (h : execute f s is = some (es, t))
    (h' : execute g s' js = some (es', t')) (hlen : is.length = js.length) :
    Run (fun a i b o => f a i = some (b, o)) s ((es.zip es').map Prod.fst) t ∧
      Run (fun a i b o => g a i = some (b, o)) s' ((es.zip es').map Prod.snd) t' ∧
      ∀ p ∈ es.zip es', (p.1.inp, p.2.inp) ∈ is.zip js := by
  have hes := execute_inputs h
  have hes' := execute_inputs h'
  have hsame : es.length = es'.length := by
    rw [← List.length_map (f := Event.inp), hes, hlen, ← hes', List.length_map]
  refine ⟨?_, ?_, fun p hp => ?_⟩
  · rw [List.map_fst_zip (Nat.le_of_eq hsame)]
    exact execute_run h
  · rw [List.map_snd_zip (Nat.le_of_eq hsame.symm)]
    exact execute_run h'
  · rw [← hes, ← hes', List.zip_map]
    exact List.mem_map_of_mem (f := Prod.map Event.inp Event.inp) hp

/-- The rule of progress: a step function that succeeds under an invariant it keeps runs over every
list of inputs that meet its condition. -/
theorem execute_total {f : σ → ι → Option (σ × ω)} {I : σ → Prop} {p : ι → Prop}
    (hstep : ∀ s i, I s → p i → ∃ r, f s i = some r ∧ I r.1) {s : σ} {is : List ι} (hs : I s)
    (his : ∀ i ∈ is, p i) : ∃ es t, execute f s is = some (es, t) := by
  induction is generalizing s with
  | nil => exact ⟨[], s, rfl⟩
  | cons i is ih =>
      obtain ⟨r, hr, hI⟩ := hstep s i hs (his i (by simp))
      obtain ⟨es, t, hrun⟩ := ih hI (fun j hj => his j (by simp [hj]))
      refine ⟨⟨s, i, r.1, r.2⟩ :: es, t, ?_⟩
      rw [execute, hr, Option.bind_some, hrun, Option.map_some]

end DroneMini
