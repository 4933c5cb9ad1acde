import Mathlib.Algebra.Order.Field.Basic
import Mathlib.Algebra.Order.Field.Rat
import Mathlib.Data.Rat.Cast.Defs

/-!
# Floating-point numbers over an ordered field

A floating-point value is a number of an ordered field `K` or one of the three non-finite tokens.
An operation on finite values is the exact operation of `K` followed by `FloatEnv.round`, so one
definition serves every rounding: `round = .fin` is exact arithmetic, a rounding to 24 bits that
overflows to the infinities is binary32. Nothing about `round` is assumed, hence a theorem stated
over a `FloatEnv` holds under all of them. The sign of a zero is not kept.

`sqrt` and `atan2` are the library functions of the environment; they are data of `FloatEnv` for the
same reason.
-/

namespace DroneMini

/-- A floating-point value: a number, an infinity or the not-a-number token. -/
inductive Flt (K : Type*) where
  | fin (x : K)
  | posInf
  | negInf
  | nan
  deriving DecidableEq, Repr

/-- What a floating-point environment fixes: how an exact result is rounded, and the library
functions. -/
class FloatEnv (K : Type*) where
  round : K → Flt K
  sqrt : Flt K → Flt K
  atan2 : Flt K → Flt K → Flt K

namespace Flt

variable {K : Type*}

/-- `std::isfinite`: neither an infinity nor the not-a-number token. -/
def isFinite : Flt K → Bool
  | fin _ => true
  | _ => false

@[simp] theorem isFinite_fin (x : K) : (fin x).isFinite = true := rfl
@[simp] theorem isFinite_posInf : (posInf : Flt K).isFinite = false := rfl
@[simp] theorem isFinite_negInf : (negInf : Flt K).isFinite = false := rfl
@[simp] theorem isFinite_nan : (nan : Flt K).isFinite = false := rfl

/-- A finite value is one of the numbers of the field. -/
theorem eq_fin_of_isFinite {v : Flt K} (h : v.isFinite = true) : ∃ x, v = fin x := by
  cases v with
  | fin x => exact ⟨x, rfl⟩
  | posInf | negInf | nan => cases h

section Order
variable [LinearOrder K]

/-- The comparison `<`: false as soon as one side is not a number. -/
def blt : Flt K → Flt K → Bool
  | fin x, fin y => decide (x < y)
  | fin _, posInf | negInf, fin _ | negInf, posInf => true
  | _, _ => false

/-- The comparison `<=`: false as soon as one side is not a number. -/
def ble : Flt K → Flt K → Bool
  | fin x, fin y => decide (x ≤ y)
  | fin _, posInf | negInf, fin _ | negInf, posInf | posInf, posInf | negInf, negInf => true
  | _, _ => false

instance : LT (Flt K) := ⟨fun a b => a.blt b = true⟩
instance : LE (Flt K) := ⟨fun a b => a.ble b = true⟩

instance : DecidableRel ((· < ·) : Flt K → Flt K → Prop) :=
  fun a b => inferInstanceAs (Decidable (a.blt b = true))
instance : DecidableRel ((· ≤ ·) : Flt K → Flt K → Prop) :=
  fun a b => inferInstanceAs (Decidable (a.ble b = true))

@[simp] theorem fin_lt_fin {x y : K} : fin x < fin y ↔ x < y := decide_eq_true_iff
@[simp] theorem fin_le_fin {x y : K} : fin x ≤ fin y ↔ x ≤ y := decide_eq_true_iff

/-- No comparison holds of the not-a-number token, on either side. -/
theorem not_nan_le (v : Flt K) : ¬ nan ≤ v := by cases v <;> exact Bool.false_ne_true

end Order

section Arith
variable [Field K]

/-- The number that a finite value is, zero for the others. -/
def num : Flt K → K
  | fin x => x
  | _ => 0

instance : Zero (Flt K) := ⟨fin 0⟩
instance : One (Flt K) := ⟨fin 1⟩

@[simp] theorem zero_def : (0 : Flt K) = fin 0 := rfl
@[simp] theorem one_def : (1 : Flt K) = fin 1 := rfl

/-- Negation, which is exact: it turns the sign and rounds nothing. -/
def neg : Flt K → Flt K
  | fin x => fin (-x)
  | posInf => negInf
  | negInf => posInf
  | nan => nan

instance : Neg (Flt K) := ⟨neg⟩

@[simp] theorem neg_fin (x : K) : -(fin x) = fin (-x) := rfl
@[simp] theorem neg_posInf : -(posInf : Flt K) = negInf := rfl
@[simp] theorem neg_negInf : -(negInf : Flt K) = posInf := rfl
@[simp] theorem neg_nan : -(nan : Flt K) = nan := rfl

protected theorem neg_zero : -(0 : Flt K) = 0 := congrArg fin neg_zero

protected theorem neg_neg (v : Flt K) : - -v = v := by
  cases v with
  | fin x => rw [neg_fin, neg_fin, neg_neg]
  | posInf | negInf | nan => rfl

/-- Two values with the same negation are equal. -/
protected theorem neg_inj {v w : Flt K} : -v = -w ↔ v = w := by
  refine ⟨fun h => ?_, congrArg _⟩
  rw [← Flt.neg_neg v, h, Flt.neg_neg]

/-- A value and its negation are finite together. -/
theorem isFinite_neg (v : Flt K) : (-v).isFinite = v.isFinite := by
  cases v <;> rfl

variable [FloatEnv K]

/-- A literal of a program, rounded like any other result. -/
def lit (q : ℚ) : Flt K := FloatEnv.round (q : K)

/-- `static_cast<float>` of an integer: the integer rounded into the format. -/
def ofInt (n : Int) : Flt K := FloatEnv.round (n : K)

/-- The value that a binary32 bit pattern stands for, with its infinities and not-a-number patterns. -/
def ofBits (b : UInt32) : Flt K :=
  let man := (b &&& 0x7FFFFF).toNat
  let exp := ((b >>> 23) &&& 0xFF).toNat
  let neg := decide (b >>> 31 = 1)
  if exp = 255 then
    if man = 0 then if neg then negInf else posInf else nan
  else
    let q := if exp = 0 then mkRat man (2 ^ 149) else mkRat ((man + 2 ^ 23) * 2 ^ exp) (2 ^ 150)
    fin ((if neg then -q else q : ℚ) : K)

/-- Addition, rounded once. Two infinities of opposite sign have no sum. -/
def add : Flt K → Flt K → Flt K
  | fin x, fin y => FloatEnv.round (x + y)
  | nan, _ | _, nan | posInf, negInf | negInf, posInf => nan
  | posInf, _ | _, posInf => posInf
  | negInf, _ | _, negInf => negInf

instance : Add (Flt K) := ⟨add⟩
instance : Sub (Flt K) := ⟨fun a b => a + -b⟩

/-- A sum with a summand that is not finite is not finite either. -/
theorem isFinite_add_of_left {a b : Flt K} (h : a.isFinite = false) : (a + b).isFinite = false := by
  show (add a b).isFinite = false
  cases a <;> cases b <;> simp_all [add]

/-- A difference whose minuend is not finite is not finite either. -/
theorem isFinite_sub_of_left {a b : Flt K} (h : a.isFinite = false) : (a - b).isFinite = false :=
  isFinite_add_of_left h

variable [LinearOrder K]

/-- The result of an operation whose exact value is infinite, from the sign and the vanishing of the
finite operand. -/
def infOfSign (pos zero : Bool) : Flt K :=
  if zero then nan else if pos then posInf else negInf

/-- Multiplication, rounded once. Zero times an infinity is not a number. -/
def mul : Flt K → Flt K → Flt K
  | fin x, fin y => FloatEnv.round (x * y)
  | nan, _ | _, nan => nan
  | fin x, posInf | posInf, fin x => infOfSign (decide (0 < x)) (decide (x = 0))
  | fin x, negInf | negInf, fin x => infOfSign (decide (x < 0)) (decide (x = 0))
  | posInf, posInf | negInf, negInf => posInf
  | posInf, negInf | negInf, posInf => negInf

/-- Division: a nonzero number over zero is an infinity, zero over zero is not a number. -/
def div : Flt K → Flt K → Flt K
  | fin x, fin y =>
    if y = 0 then infOfSign (decide (0 < x)) (decide (x = 0)) else FloatEnv.round (x / y)
  | nan, _ | _, nan => nan
  | fin _, posInf | fin _, negInf => fin 0
  | posInf, fin y => if 0 ≤ y then posInf else negInf
  | negInf, fin y => if 0 ≤ y then negInf else posInf
  | _, _ => nan

instance : Mul (Flt K) := ⟨mul⟩
instance : Div (Flt K) := ⟨div⟩

end Arith

end Flt

end DroneMini
