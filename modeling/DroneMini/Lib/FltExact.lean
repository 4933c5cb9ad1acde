import DroneMini.Lib.FltRat
import Mathlib.Algebra.Order.Group.MinMax
import Mathlib.Data.Rat.Cast.Order

/-!
# Exact arithmetic

In an environment that does not round, the operations on finite values are those of the field, and
negation passes through all of them, infinities and the not-a-number token included.
-/

namespace DroneMini

/-- An environment that does not round: every operation on numbers gives the exact result. -/
class ExactArith (K : Type*) [FloatEnv K] : Prop where
  round_eq (x : K) : FloatEnv.round x = .fin x

instance instExactArithRat : ExactArith ℚ := ⟨fun _ => rfl⟩

namespace Flt

variable {K : Type*}

section Order
variable [LinearOrder K]

/-- The larger of two numbers, as a program picks it by one comparison, is their maximum. -/
theorem ite_lt_max (x y : K) : (if (fin x : Flt K) < fin y then fin y else fin x) = fin (max x y) := by
  rw [max_def_lt]
  simp only [fin_lt_fin]
  split_ifs <;> rfl

/-- The smaller of two numbers, as a program picks it by one comparison, is their minimum. -/
theorem ite_lt_min (x y : K) : (if (fin x : Flt K) < fin y then fin x else fin y) = fin (min x y) := by
  rw [min_def_lt]
  simp only [fin_lt_fin]
  split_ifs <;> rfl

end Order

variable [Field K] [FloatEnv K] [ExactArith K]

@[simp] theorem lit_eq (q : ℚ) : (lit q : Flt K) = fin (q : K) := ExactArith.round_eq _

theorem ofInt_exact (n : Int) : (ofInt n : Flt K) = fin (n : K) := ExactArith.round_eq _

@[simp] theorem fin_add_fin (x y : K) : fin x + fin y = fin (x + y) := ExactArith.round_eq _

@[simp] theorem fin_sub_fin (x y : K) : fin x - fin y = fin (x - y) := by
  rw [sub_eq_add_neg]
  exact fin_add_fin x (-y)

protected theorem neg_add (a b : Flt K) : -(a + b) = -a + -b := by
  cases a with
  | fin x =>
      cases b with
      | fin y => rw [fin_add_fin, neg_fin, neg_fin, neg_fin, fin_add_fin, neg_add]
      | posInf | negInf | nan => rfl
  | posInf | negInf | nan => cases b <;> rfl

protected theorem neg_sub (a b : Flt K) : -(a - b) = -a - -b := Flt.neg_add a (-b)

omit [ExactArith K] in
protected theorem sub_neg (a b : Flt K) : a - -b = a + b := by
  show a + - -b = a + b
  rw [Flt.neg_neg]

variable [LinearOrder K]

@[simp] theorem fin_mul_fin (x y : K) : fin x * fin y = fin (x * y) := ExactArith.round_eq _

theorem fin_div_fin (x : K) {y : K} (hy : y ≠ 0) : fin x / fin y = fin (x / y) := by
  show div (fin x) (fin y) = fin (x / y)
  rw [div, if_neg hy, ExactArith.round_eq]

section Order
variable [IsStrictOrderedRing K]

/-- A literal of a program that is not negative is a number of the field that is not negative. -/
theorem lit_nonneg {q : ℚ} (hq : 0 ≤ q) : ∃ x : K, 0 ≤ x ∧ (lit q : Flt K) = fin x :=
  ⟨q, Rat.cast_nonneg.mpr hq, lit_eq q⟩

omit [FloatEnv K] [ExactArith K] in
@[simp] protected theorem neg_lt_neg_iff {a b : Flt K} : -a < -b ↔ b < a := by
  cases a with
  | fin x =>
      cases b with
      | fin y => rw [neg_fin, neg_fin, fin_lt_fin, fin_lt_fin, neg_lt_neg_iff]
      | posInf | negInf | nan => rfl
  | posInf | negInf | nan => cases b <;> rfl

omit [FloatEnv K] [ExactArith K] in
/-- The infinity that a sign stands for is negated when the sign is that of the negated operand. -/
theorem infOfSign_neg (x : K) :
    (infOfSign (decide (0 < -x)) (decide (-x = 0)) : Flt K) =
      -infOfSign (decide (0 < x)) (decide (x = 0)) := by
  rcases lt_trichotomy x 0 with h | rfl | h
  · simp [infOfSign, h, h.ne, h.not_gt]
  · simp [infOfSign]
  · simp [infOfSign, h, h.ne', h.not_gt]

omit [FloatEnv K] [ExactArith K] in
/-- The infinity of the operand, the sign read the other way. -/
theorem infOfSign_lt_zero (x : K) :
    (infOfSign (decide (x < 0)) (decide (x = 0)) : Flt K) =
      -infOfSign (decide (0 < x)) (decide (x = 0)) := by
  rw [← infOfSign_neg]
  simp only [neg_pos, neg_eq_zero]

protected theorem neg_mul (a b : Flt K) : -a * b = -(a * b) := by
  cases a with
  | fin x =>
      cases b with
      | fin y => rw [neg_fin, fin_mul_fin, fin_mul_fin, neg_fin, neg_mul]
      | posInf => exact infOfSign_neg x
      | negInf =>
          show infOfSign (decide (-x < 0)) (decide (-x = 0)) =
            -infOfSign (decide (x < 0)) (decide (x = 0))
          rw [infOfSign_lt_zero, infOfSign_lt_zero, infOfSign_neg]
      | nan => rfl
  | posInf =>
      cases b with
      | fin y => exact infOfSign_lt_zero y
      | posInf | negInf | nan => rfl
  | negInf =>
      cases b with
      | fin y =>
          show infOfSign (decide (0 < y)) (decide (y = 0)) =
            -infOfSign (decide (y < 0)) (decide (y = 0))
          rw [infOfSign_lt_zero, Flt.neg_neg]
      | posInf | negInf | nan => rfl
  | nan => cases b <;> rfl

omit [IsStrictOrderedRing K] in
protected theorem mul_comm (a b : Flt K) : a * b = b * a := by
  cases a with
  | fin x =>
      cases b with
      | fin y => rw [fin_mul_fin, fin_mul_fin, mul_comm]
      | posInf | negInf | nan => rfl
  | posInf | negInf | nan => cases b <;> rfl

protected theorem mul_neg (a b : Flt K) : a * -b = -(a * b) := by
  rw [Flt.mul_comm, Flt.neg_mul, Flt.mul_comm]

protected theorem neg_div (a b : Flt K) : -a / b = -(a / b) := by
  cases b with
  | fin y =>
      cases a with
      | fin x =>
          rcases eq_or_ne y 0 with rfl | hy
          · show (if (0 : K) = 0 then _ else _) = -(if (0 : K) = 0 then _ else _)
            rw [if_pos rfl, if_pos rfl, infOfSign_neg]
          · rw [neg_fin, fin_div_fin _ hy, fin_div_fin _ hy, neg_fin, neg_div]
      | posInf | negInf =>
          rcases le_or_gt 0 y with hy | hy
          · show (if 0 ≤ y then _ else _) = -(if 0 ≤ y then _ else _)
            rw [if_pos hy, if_pos hy]
            rfl
          · show (if 0 ≤ y then _ else _) = -(if 0 ≤ y then _ else _)
            rw [if_neg hy.not_ge, if_neg hy.not_ge]
            rfl
      | nan => rfl
  | posInf | negInf =>
      cases a with
      | fin x =>
          show fin 0 = fin (-0)
          rw [neg_zero]
      | posInf | negInf | nan => rfl
  | nan => cases a <;> rfl

end Order

end Flt

end DroneMini
