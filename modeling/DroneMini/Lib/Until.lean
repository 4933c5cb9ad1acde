import Mathlib.Tactic.TypeStar

/-!
# Loops that stop

`runUntil body s is` runs the body of a loop on the inputs `is` in turn. The body gives the next state or
the result the loop stops with, so `return`, `break` and an exception are results, and the inputs of a
`for` loop are the values of its variable. `runUntil_sim` carries a stop over to another loop on the same
inputs, and `runUntil_mono` the states it reaches. A loop over `List.range n` counts:
`runUntil_range_invariant` is its invariant rule, and `runUntil_range_stop_iff` and
`runUntil_range_reached` say which numbers it reaches.
-/

namespace DroneMini

variable {σ τ ι ρ ρ' : Type*}

/-- The loop over some inputs: the result it stops with, or its state after all of them. -/
def runUntil (body : σ → ι → ρ ⊕ σ) : σ → List ι → ρ ⊕ σ
  | s, [] => .inr s
  | s, i :: is =>
    match body s i with
    | .inl r => .inl r
    | .inr t => runUntil body t is

variable {body : σ → ι → ρ ⊕ σ} {s t u : σ} {i : ι} {is js : List ι} {r : ρ}

/-- A loop whose body stops at the first input stops with what it says there. -/
theorem runUntil_cons_inl (h : body s i = .inl r) : runUntil body s (i :: is) = .inl r := by
  rw [runUntil, h]

/-- A loop whose body goes on after the first input goes on with the others. -/
theorem runUntil_cons_inr (h : body s i = .inr t) :
    runUntil body s (i :: is) = runUntil body t is := by
  rw [runUntil, h]

/-- A loop that has not stopped goes on with the inputs that follow. -/
theorem runUntil_append (h : runUntil body s is = .inr t) :
    runUntil body s (is ++ js) = runUntil body t js := by
  induction is generalizing s with
  | nil =>
    cases h
    rfl
  | cons i is ih =>
    cases hb : body s i with
    | inl r =>
      rw [runUntil_cons_inl hb] at h
      cases h
    | inr u =>
      rw [runUntil_cons_inr hb] at h
      rw [List.cons_append, runUntil_cons_inr hb, ih h]

/-- A loop that has stopped takes no inputs that come after. -/
theorem runUntil_append_inl (h : runUntil body s is = .inl r) :
    runUntil body s (is ++ js) = .inl r := by
  induction is generalizing s with
  | nil => cases h
  | cons i is ih =>
    cases hb : body s i with
    | inl r' =>
      rw [runUntil_cons_inl hb] at h
      rw [List.cons_append, runUntil_cons_inl hb, h]
    | inr u =>
      rw [runUntil_cons_inr hb] at h
      rw [List.cons_append, runUntil_cons_inr hb, ih h]

/-- The last input of a loop that has not stopped. -/
theorem runUntil_concat_inv (h : runUntil body s (is ++ [i]) = .inr u) :
    ∃ t, runUntil body s is = .inr t ∧ body t i = .inr u := by
  cases hs : runUntil body s is with
  | inl r =>
    rw [runUntil_append_inl hs] at h
    cases h
  | inr t =>
    rw [runUntil_append hs] at h
    cases hb : body t i with
    | inl r =>
      rw [runUntil_cons_inl hb] at h
      cases h
    | inr v =>
      rw [runUntil_cons_inr hb, runUntil] at h
      cases h
      exact ⟨t, rfl, hb⟩

/-- **Simulation rule**: two loops in related states that go on together, and whose stops are related,
stop together. -/
theorem runUntil_sim {body' : τ → ι → ρ' ⊕ τ} {R : σ → τ → Prop} {Q : ρ' → Prop} {t : τ}
    (hstop : ∀ s t i, R s t → body s i = .inl r → ∃ r', body' t i = .inl r' ∧ Q r')
    (hgo : ∀ s t i s', R s t → body s i = .inr s' → ∃ t', body' t i = .inr t' ∧ R s' t')
    (hR : R s t) (h : runUntil body s is = .inl r) : ∃ r', runUntil body' t is = .inl r' ∧ Q r' := by
  induction is generalizing s t with
  | nil => cases h
  | cons i is ih =>
    cases hb : body s i with
    | inl r' =>
      rw [runUntil_cons_inl hb] at h
      cases h
      obtain ⟨q, hq, hQ⟩ := hstop s t i hR hb
      exact ⟨q, runUntil_cons_inl hq, hQ⟩
    | inr s' =>
      rw [runUntil_cons_inr hb] at h
      obtain ⟨t', ht', hR'⟩ := hgo s t i s' hR hb
      obtain ⟨q, hq, hQ⟩ := ih hR' h
      exact ⟨q, (runUntil_cons_inr ht').trans hq, hQ⟩

/-- **Lockstep rule**: two loops whose bodies relate their states and their results do so as a whole. -/
theorem runUntil_rel {body' : τ → ι → ρ' ⊕ τ} {R : σ → τ → Prop} {Q : ρ → ρ' → Prop} {t : τ}
    (hstep : ∀ s t, ∀ i ∈ is, R s t → Sum.LiftRel Q R (body s i) (body' t i)) (hR : R s t) :
    Sum.LiftRel Q R (runUntil body s is) (runUntil body' t is) := by
  induction is generalizing s t with
  | nil => exact .inr hR
  | cons i is ih =>
    have hfirst := hstep s t i List.mem_cons_self hR
    rw [runUntil, runUntil]
    generalize body s i = a at hfirst ⊢
    generalize body' t i = b at hfirst ⊢
    cases hfirst with
    | inl hQ => exact .inl hQ
    | inr hR' => exact ih (fun s t j hj => hstep s t j (List.mem_cons_of_mem i hj)) hR'

/-- A loop that goes on wherever another one does reaches the same states. -/
theorem runUntil_mono {body' : σ → ι → ρ' ⊕ σ} (hgo : ∀ s i t, body s i = .inr t → body' s i = .inr t)
    (h : runUntil body s is = .inr t) : runUntil body' s is = .inr t := by
  induction is generalizing s with
  | nil =>
    cases h
    rfl
  | cons i is ih =>
    cases hb : body s i with
    | inl r =>
      rw [runUntil_cons_inl hb] at h
      cases h
    | inr u =>
      rw [runUntil_cons_inr hb] at h
      rw [runUntil_cons_inr (hgo s i u hb), ih h]

/-! ## Counting loops -/

section Range
variable {body : σ → Nat → ρ ⊕ σ} {j k n : Nat}

/-- **Invariant rule**: what holds before the loop and is kept by every number that it does not stop at
holds after them. -/
theorem runUntil_range_invariant {P : Nat → σ → Prop} (hinit : P 0 s)
    (hstep : ∀ k t u, P k t → body t k = .inr u → P (k + 1) u)
    (h : runUntil body s (List.range n) = .inr t) : P n t := by
  induction n generalizing t with
  | zero =>
    cases h
    exact hinit
  | succ n ih =>
    rw [List.range_succ] at h
    obtain ⟨u, hu, hn⟩ := runUntil_concat_inv h
    exact hstep n u t (ih hu) hn

/-- A counting loop stops at a number it reaches and whose body stops. -/
theorem runUntil_range_stop_iff : runUntil body s (List.range n) = .inl r ↔
    ∃ k t, k < n ∧ runUntil body s (List.range k) = .inr t ∧ body t k = .inl r := by
  induction n with
  | zero =>
    simp [runUntil]
  | succ n ih =>
    rw [List.range_succ]
    cases hn : runUntil body s (List.range n) with
    | inl r' =>
      rw [runUntil_append_inl hn, ← hn, ih]
      constructor
      · rintro ⟨k, t, hk, ht⟩
        exact ⟨k, t, by omega, ht⟩
      · rintro ⟨k, t, hk, ht, hb⟩
        rcases Nat.lt_succ_iff_lt_or_eq.mp hk with hk | rfl
        · exact ⟨k, t, hk, ht, hb⟩
        · rw [hn] at ht
          cases ht
    | inr u =>
      have hbefore : ∀ k t, k < n → runUntil body s (List.range k) = .inr t → body t k ≠ .inl r := by
        intro k t hk ht hb
        have hstop := ih.mpr ⟨k, t, hk, ht, hb⟩
        rw [hn] at hstop
        cases hstop
      rw [runUntil_append hn]
      constructor
      · intro h
        cases hb : body u n with
        | inl r' =>
          rw [runUntil_cons_inl hb] at h
          cases h
          exact ⟨n, u, by omega, hn, hb⟩
        | inr v =>
          rw [runUntil_cons_inr hb] at h
          cases h
      · rintro ⟨k, t, hk, ht, hb⟩
        rcases Nat.lt_succ_iff_lt_or_eq.mp hk with hk | rfl
        · exact absurd hb (hbefore k t hk ht)
        · rw [hn] at ht
          cases ht
          exact runUntil_cons_inl hb

/-- A loop that reaches `n` goes on at every number below. -/
theorem runUntil_range_goes_on (h : runUntil body s (List.range n) = .inr t) (hk : k < n)
    (hu : runUntil body s (List.range k) = .inr u) : ∃ v, body u k = .inr v := by
  cases hb : body u k with
  | inl r =>
    rw [runUntil_range_stop_iff.mpr ⟨k, u, hk, hu, hb⟩] at h
    cases h
  | inr v => exact ⟨v, rfl⟩

/-- A loop that stops at `k` reaches the numbers up to `k` and no others. -/
theorem runUntil_range_reached (ht : runUntil body s (List.range k) = .inr t) (hr : body t k = .inl r)
    (hu : runUntil body s (List.range j) = .inr u) : (j = k ∧ u = t) ∨ ∃ v, body u j = .inr v := by
  rcases Nat.lt_trichotomy j k with hlt | rfl | hgt
  · exact .inr (runUntil_range_goes_on ht hlt hu)
  · rw [ht] at hu
    cases hu
    exact .inl ⟨rfl, rfl⟩
  · rw [runUntil_range_stop_iff.mpr ⟨k, t, hgt, ht, hr⟩] at hu
    cases hu

end Range

end DroneMini
