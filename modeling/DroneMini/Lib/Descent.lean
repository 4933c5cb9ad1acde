import DroneMini.Lib.While
import Mathlib.Algebra.Order.Floor.Semiring
import Mathlib.Algebra.Order.Floor.Ring
import Mathlib.Algebra.Order.Field.Basic

/-!
# Loops that descend

A loop whose turns lower a quantity of an ordered field by at least a fixed step, and that ends no later
than when the quantity has come down to a bound, returns for some budget.
-/

namespace DroneMini

variable {α : Type*} {K : Type*} [Field K] [LinearOrder K] [IsStrictOrderedRing K] [FloorRing K]

/-- A positive number that is lowered by at least one is, rounded up, a smaller natural number. -/
theorem ceil_lt_ceil_of_le_sub_one {x y : K} (hx : 0 < x) (hy : y ≤ x - 1) : ⌈y⌉₊ < ⌈x⌉₊ := by
  rw [Nat.lt_ceil]
  rcases le_or_gt y 0 with hneg | hpos
  · rwa [Nat.ceil_eq_zero.mpr hneg, Nat.cast_zero]
  · exact (Nat.ceil_lt_add_one hpos.le).trans_le (le_sub_iff_add_le.mp hy)

/-- **The rule of descent.** A loop returns when each turn lowers a measure by at least a fixed amount and
turns are only taken above a bound; it ends in the invariant, with the condition false. -/
theorem whileLoop_descends {cond : α → Bool} {body : α → Option α} (P : α → Prop) (m : α → K)
    (bound : K) {δ : K} (hδ : 0 < δ) (hbody : ∀ a, P a → cond a = true →
      bound < m a ∧ ∃ a', body a = some a' ∧ P a' ∧ m a' ≤ m a - δ) {a : α} (ha : P a) :
    ∃ fuel b, whileLoop cond body fuel a = some b ∧ P b ∧ cond b = false := by
  refine ⟨⌈(m a - bound) / δ⌉₊, whileLoop_total (fun a => ⌈(m a - bound) / δ⌉₊) (fun a ha hc => ?_) ha le_rfl⟩
  obtain ⟨hbound, a', hrun, ha', hless⟩ := hbody a ha hc
  refine ⟨a', hrun, ha', ceil_lt_ceil_of_le_sub_one (div_pos (sub_pos.mpr hbound) hδ) ?_⟩
  rw [div_le_iff₀ hδ, sub_mul, div_mul_cancel₀ _ hδ.ne', one_mul, sub_right_comm]
  exact sub_le_sub_right hless bound

end DroneMini
