import Mathlib.Data.Option.Basic

/-!
# While loops with a step budget

`whileLoop fuel cond body a` runs `while (cond) body` from `a` for at most `fuel` iterations. The
result is `none` when the body fails or the budget runs out, so a loop of a program returns exactly
when some budget gives a value. `whileLoop_mono` makes the choice of the budget immaterial,
`whileLoop_total` is the rule of total correctness and `whileLoop_never` that of a loop without end.
`Improves` carries the monotonicity in the budget through the computations around a loop.
-/

namespace DroneMini

variable {α : Type*}

/-- `while (cond) body`, for at most `fuel` iterations; it has no result when they are not enough or the body
has none. -/
def whileLoop (cond : α → Bool) (body : α → Option α) : Nat → α → Option α
  | 0, a => if cond a then none else some a
  | fuel + 1, a => if cond a then (body a).bind (whileLoop cond body fuel) else some a

variable {cond : α → Bool} {body : α → Option α}

/-- A loop whose condition is false at once ends in the state it is given. -/
theorem whileLoop_of_not {fuel : Nat} {a : α} (h : cond a = false) :
    whileLoop cond body fuel a = some a := by
  cases fuel <;> simp [whileLoop, h]

/-- A loop whose condition holds runs its body and goes on with one iteration less. -/
theorem whileLoop_succ {fuel : Nat} {a : α} (h : cond a = true) :
    whileLoop cond body (fuel + 1) a = (body a).bind (whileLoop cond body fuel) := by
  simp [whileLoop, h]

/-- A loop that returns within its budget returns the same within a larger one. -/
theorem whileLoop_mono {fuel fuel' : Nat} {a b : α} (hle : fuel ≤ fuel')
    (h : whileLoop cond body fuel a = some b) : whileLoop cond body fuel' a = some b := by
  induction fuel generalizing fuel' a with
  | zero =>
      cases hc : cond a with
      | true => simp [whileLoop, hc] at h
      | false =>
          rw [whileLoop_of_not hc] at h
          rw [whileLoop_of_not hc, h]
  | succ n ih =>
      cases hc : cond a with
      | false =>
          rw [whileLoop_of_not hc] at h
          rw [whileLoop_of_not hc, h]
      | true =>
          obtain ⟨m, rfl⟩ : ∃ m, fuel' = m + 1 := ⟨fuel' - 1, by omega⟩
          rw [whileLoop_succ hc] at h ⊢
          obtain ⟨a', ha, hl⟩ := Option.bind_eq_some_iff.mp h
          exact Option.bind_eq_some_iff.mpr ⟨a', ha, ih (by omega) hl⟩

/-- Total correctness: a body that succeeds, keeps `P` and lowers a variant runs, within the variant,
to a result with `P` whose condition is false. -/
theorem whileLoop_total {P : α → Prop} (μ : α → Nat)
    (hbody : ∀ a, P a → cond a = true → ∃ a', body a = some a' ∧ P a' ∧ μ a' < μ a)
    {fuel : Nat} {a : α} (ha : P a) (hμ : μ a ≤ fuel) :
    ∃ b, whileLoop cond body fuel a = some b ∧ P b ∧ cond b = false := by
  induction fuel generalizing a with
  | zero =>
      cases hc : cond a with
      | false => exact ⟨a, whileLoop_of_not hc, ha, hc⟩
      | true =>
          obtain ⟨a', -, -, hlt⟩ := hbody a ha hc
          omega
  | succ n ih =>
      cases hc : cond a with
      | false => exact ⟨a, whileLoop_of_not hc, ha, hc⟩
      | true =>
          obtain ⟨a', hb, hP, hlt⟩ := hbody a ha hc
          rw [whileLoop_succ hc, hb]
          exact ih hP (by omega)

/-- A loop whose turns keep a condition under which it goes on never returns. -/
theorem whileLoop_never {P : α → Prop} (hcond : ∀ a, P a → cond a = true)
    (hbody : ∀ a a', P a → body a = some a' → P a') (fuel : Nat) {a : α} (ha : P a) :
    whileLoop cond body fuel a = none := by
  induction fuel generalizing a with
  | zero => exact if_pos (hcond a ha)
  | succ n ih =>
      rw [whileLoop_succ (hcond a ha)]
      cases hrun : body a with
      | none => rfl
      | some a' => exact ih (hbody a a' ha hrun)

/-! ## More budget -/

/-- Whatever the first computation returns, the second returns too; it may return more often. -/
def Improves (x y : Option α) : Prop := ∀ a, x = some a → y = some a

namespace Improves

variable {β : Type*}

/-- Every computation improves on itself, so only the loops in a program need an argument. -/
theorem refl (x : Option α) : Improves x x := fun _ h => h

/-- A sequence improves when its first part and what follows it improve. -/
theorem bind {x y : Option α} {f g : α → Option β} (h : Improves x y)
    (hfg : ∀ a, Improves (f a) (g a)) : Improves (x.bind f) (y.bind g) := by
  intro b hb
  obtain ⟨a, ha, hf⟩ := Option.bind_eq_some_iff.mp hb
  rw [h a ha]
  exact hfg a b hf

/-- A choice improves when both of its branches do. -/
theorem ite {p : Prop} [Decidable p] {x x' y y' : Option α} (h : Improves x y)
    (h' : Improves x' y') : Improves (if p then x else x') (if p then y else y') := by
  by_cases hp : p
  · rw [if_pos hp, if_pos hp]
    exact h
  · rw [if_neg hp, if_neg hp]
    exact h'

/-- A loop improves with its budget. -/
theorem whileLoop {cond : α → Bool} {body : α → Option α} {fuel fuel' : Nat} (hle : fuel ≤ fuel')
    (a : α) : Improves (DroneMini.whileLoop cond body fuel a) (DroneMini.whileLoop cond body fuel' a) :=
  fun _ h => whileLoop_mono hle h

end Improves

end DroneMini
