import DroneMini.Lib.Flt
import Mathlib.Data.List.Basic

/-!
# Magnitudes and maxima with the not-a-number token

`Flt.abs` is the magnitude of a value, `Flt.maxNan` the larger of two values, and the not-a-number token as
soon as one of them is; `Flt.maxOf` is the maximum of a list. A maximum is above a bound only when all the
values are numbers (`lt_maxOf_iff`).
-/

namespace DroneMini

namespace Flt

variable {K : Type*} [LinearOrder K]

/-- The larger of two values, where the not-a-number token wins over every number. -/
def maxNan (a b : Flt K) : Flt K :=
  if a = nan ∨ b = nan then nan else if a < b then b else a

/-- The maximum of a list, and a default for the empty one. -/
def maxOf (default : Flt K) : List (Flt K) → Flt K
  | [] => default
  | v :: vs => vs.foldl maxNan v

/-- No comparison holds of the not-a-number token, on either side. -/
theorem not_lt_nan (v : Flt K) : ¬ v < nan := by cases v <;> exact Bool.false_ne_true

theorem not_le_nan (v : Flt K) : ¬ v ≤ nan := by cases v <;> exact Bool.false_ne_true

protected theorem lt_of_lt_of_le {a b c : Flt K} (hab : a < b) (hbc : b ≤ c) : a < c := by
  cases b with
  | fin y =>
      cases c with
      | fin z =>
          cases a with
          | fin x => exact fin_lt_fin.mpr ((fin_lt_fin.mp hab).trans_le (fin_le_fin.mp hbc))
          | negInf => rfl
          | posInf | nan => cases hab
      | posInf =>
          cases a with
          | fin | negInf => rfl
          | posInf | nan => cases hab
      | negInf | nan => cases hbc
  | posInf =>
      cases c with
      | posInf => exact hab
      | fin | negInf | nan => cases hbc
  | negInf | nan => cases a <;> cases hab

protected theorem le_of_lt {a b : Flt K} (h : a < b) : a ≤ b := by
  cases a with
  | fin x =>
      cases b with
      | fin y => exact fin_le_fin.mpr (fin_lt_fin.mp h).le
      | posInf => rfl
      | negInf | nan => cases h
  | negInf =>
      cases b with
      | fin | posInf => rfl
      | negInf | nan => cases h
  | posInf | nan => cases b <;> cases h

/-- Of two values that are numbers one is at most the other, so a comparison that fails holds the other
way. -/
protected theorem le_of_not_lt {a b : Flt K} (ha : a ≠ nan) (hb : b ≠ nan) (h : ¬ a < b) : b ≤ a := by
  cases a with
  | fin x =>
      cases b with
      | fin y => exact fin_le_fin.mpr (not_lt.mp (fin_lt_fin.not.mp h))
      | negInf => rfl
      | posInf => exact absurd rfl h
      | nan => exact absurd rfl hb
  | posInf =>
      cases b with
      | fin | posInf | negInf => rfl
      | nan => exact absurd rfl hb
  | negInf =>
      cases b with
      | negInf => rfl
      | fin | posInf => exact absurd rfl h
      | nan => exact absurd rfl hb
  | nan => exact absurd rfl ha

/-- Two values that compare are both numbers. -/
theorem ne_nan_of_le {a b : Flt K} (h : a ≤ b) : a ≠ nan ∧ b ≠ nan :=
  ⟨fun ha => not_nan_le b (ha ▸ h), fun hb => not_le_nan a (hb ▸ h)⟩

/-- The larger of two values is a number exactly when both of them are. -/
theorem maxNan_ne_nan {a b : Flt K} : maxNan a b ≠ nan ↔ a ≠ nan ∧ b ≠ nan := by
  unfold maxNan
  split_ifs with h hlt
  · exact iff_of_false (not_not_intro rfl) fun hab => h.elim hab.1 hab.2
  · rw [not_or] at h
    exact iff_of_true h.2 h
  · rw [not_or] at h
    exact iff_of_true h.1 h

/-- What is below the larger value is below one of two numbers. -/
theorem lt_maxNan_iff {t a b : Flt K} : t < maxNan a b ↔ (a ≠ nan ∧ b ≠ nan) ∧ (t < a ∨ t < b) := by
  unfold maxNan
  split_ifs with h hlt
  · exact iff_of_false (not_lt_nan t) fun hab => h.elim hab.1.1 hab.1.2
  · rw [not_or] at h
    exact ⟨fun ht => ⟨h, .inr ht⟩,
      fun ht => ht.2.elim (fun hta => Flt.lt_of_lt_of_le hta (Flt.le_of_lt hlt)) id⟩
  · rw [not_or] at h
    exact ⟨fun ht => ⟨h, .inl ht⟩,
      fun ht => ht.2.elim id fun htb => Flt.lt_of_lt_of_le htb (Flt.le_of_not_lt h.1 h.2 hlt)⟩

/-- What is below the maximum of some values is below one of them, and all are numbers. -/
theorem lt_foldl_maxNan_iff {t v : Flt K} {vs : List (Flt K)} :
    t < vs.foldl maxNan v ↔ (∀ w ∈ v :: vs, w ≠ nan) ∧ ∃ w ∈ v :: vs, t < w := by
  induction vs generalizing v with
  | nil =>
      simp only [List.foldl_nil, List.mem_singleton, forall_eq, exists_eq_left]
      exact ⟨fun h => ⟨fun hv => not_lt_nan t (hv ▸ h), h⟩, fun h => h.2⟩
  | cons u us ih =>
      rw [List.foldl_cons, ih]
      simp only [List.forall_mem_cons, List.exists_mem_cons_iff, maxNan_ne_nan, lt_maxNan_iff]
      tauto

/-- **A maximum is above a bound when all values are numbers and one is above it.** -/
theorem lt_maxOf_iff {t default : Flt K} {vs : List (Flt K)} (hne : vs ≠ []) :
    t < maxOf default vs ↔ (∀ w ∈ vs, w ≠ nan) ∧ ∃ w ∈ vs, t < w := by
  cases vs with
  | nil => exact absurd rfl hne
  | cons v vs => exact lt_foldl_maxNan_iff

/-- The magnitude of a value; that of an infinity is the positive one. -/
def abs [Field K] : Flt K → Flt K
  | fin x => fin |x|
  | posInf | negInf => posInf
  | nan => nan

/-- The magnitude is a number exactly when the value is. -/
theorem abs_ne_nan [Field K] {v : Flt K} : v.abs ≠ nan ↔ v ≠ nan := by
  cases v with
  | fin | posInf | negInf => exact iff_of_true (fun h => by cases h) (fun h => by cases h)
  | nan => exact Iff.rfl

omit [LinearOrder K] in
/-- A difference that is a number has a subtrahend that is one. -/
theorem ne_nan_of_sub [Field K] [FloatEnv K] {a b : Flt K} (h : a - b ≠ nan) : b ≠ nan := by
  rintro rfl
  cases a <;> exact h rfl

end Flt

end DroneMini
