import Mathlib.Algebra.Order.Group.Abs
import Mathlib.Algebra.Order.Group.MinMax
import Mathlib.Order.Bounds.Basic

/-!
# A common shift

A family of numbers is moved into an interval by adding one number to all of them. If the family is not
wider than the interval there is a least such number, the point nearest to zero of the shifts that fit
(`isLeastShift`).
-/

namespace DroneMini

variable {ι K : Type*} [AddCommGroup K] [LinearOrder K]

/-- Moved by `s`, the family lies between `a` and `b`. -/
def Fits (m : ι → K) (a b s : K) : Prop := ∀ i, a ≤ m i + s ∧ m i + s ≤ b

/-- `s` moves the family between `a` and `b`, and every other number that does is larger in size. -/
structure IsLeastShift (m : ι → K) (a b s : K) : Prop where
  fits : Fits m a b s
  least {s' : K} : Fits m a b s' → s' ≠ s → |s| < |s'|

variable [IsOrderedAddMonoid K]

/-- The shifts that fit are those of an interval, whose ends are given by the lowest and the highest value. -/
theorem fits_iff {m : ι → K} {a b hi lo s : K} (hhi : IsGreatest (Set.range m) hi)
    (hlo : IsLeast (Set.range m) lo) : Fits m a b s ↔ a - lo ≤ s ∧ s ≤ b - hi := by
  obtain ⟨⟨i, hi'⟩, habove⟩ := hhi
  obtain ⟨⟨j, hlo'⟩, hbelow⟩ := hlo
  constructor
  · intro h
    exact ⟨sub_le_iff_le_add'.mpr (hlo' ▸ (h j).1), le_sub_iff_add_le'.mpr (hi' ▸ (h i).2)⟩
  · rintro ⟨hs, hs'⟩ k
    exact ⟨(sub_le_iff_le_add'.mp hs).trans (add_le_add_left (hbelow ⟨k, rfl⟩) s),
      (add_le_add_left (habove ⟨k, rfl⟩) s).trans (le_sub_iff_add_le'.mp hs')⟩

/-- The point of an interval nearest to zero: every other point is larger in size. -/
theorem abs_nearest_lt {u v s : K} (hu : u ≤ s) (hv : s ≤ v) (hs : s ≠ max u (min 0 v)) :
    |max u (min 0 v)| < |s| := by
  rcases le_total 0 v with hv0 | hv0
  · rw [min_eq_left hv0] at hs ⊢
    rcases le_total u 0 with hu0 | hu0
    · rw [max_eq_right hu0] at hs ⊢
      rw [abs_zero]
      exact abs_pos.mpr hs
    · rw [max_eq_left hu0] at hs ⊢
      rw [abs_of_nonneg hu0, abs_of_nonneg (hu0.trans hu)]
      exact lt_of_le_of_ne hu hs.symm
  · rw [min_eq_right hv0, max_eq_right (hu.trans hv)] at hs ⊢
    rw [abs_of_nonpos hv0, abs_of_nonpos (hv.trans hv0), neg_lt_neg_iff]
    exact lt_of_le_of_ne hv hs

/-- A family not wider than the interval has a least shift. -/
theorem isLeastShift {m : ι → K} {a b hi lo : K} (hhi : IsGreatest (Set.range m) hi)
    (hlo : IsLeast (Set.range m) lo) (hwidth : hi - lo ≤ b - a) :
    IsLeastShift m a b (max (a - lo) (min 0 (b - hi))) where
  fits := by
    have horder : a - lo ≤ b - hi :=
      sub_le_sub_iff.mpr ((add_comm a hi).trans_le (sub_le_sub_iff.mp hwidth))
    exact (fits_iff hhi hlo).mpr ⟨le_max_left _ _, max_le horder (min_le_right _ _)⟩
  least h hne := by
    obtain ⟨hu, hv⟩ := (fits_iff hhi hlo).mp h
    exact abs_nearest_lt hu hv hne

end DroneMini
