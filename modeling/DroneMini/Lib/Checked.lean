import DroneMini.Lib.While
import Mathlib.Tactic.SplitIfs

/-!
# Checked computations

A computation on `int` has no meaning once a value leaves the range. `incr` is an increment that says so,
and `Checks x y P` relates a computation with such increments to the one on natural numbers: `x` returns
what `y` returns if that meets `P`, and nothing otherwise. The rules carry this through sequences
(`Checks.bind`) and loops (`Checks.whileLoop`) in which a value that meets `P` comes from values that do.
-/

namespace DroneMini

/-- The largest value of a 32-bit `int`, beyond which `++` is undefined. -/
def intMax : Nat := 2147483647

/-- `++n` on an `int` that is not negative; there is no value past the largest one. -/
def incr (n : Nat) : Option Nat := if n < intMax then some (n + 1) else none

/-- A value below the largest `int` can be incremented, and the result is the next number. -/
theorem incr_of_lt {n : Nat} (h : n < intMax) : incr n = some (n + 1) := if_pos h

/-- `x` is the computation `y` with a check of its result. -/
def Checks {α : Type*} (x y : Option α) (P : α → Prop) : Prop := ∀ a, x = some a ↔ y = some a ∧ P a

/-- An increment is the next number, when that is an `int`. -/
theorem checks_incr (n : Nat) : Checks (incr n) (some (n + 1)) (· ≤ intMax) := by
  intro a
  unfold incr
  split_ifs with h
  · exact ⟨fun ha => ⟨ha, Option.some.inj ha ▸ h⟩, And.left⟩
  · refine iff_of_false not_false ?_
    rintro ⟨ha, hle⟩
    exact h (Nat.le_trans (Nat.le_of_eq (Option.some.inj ha)) hle)

namespace Checks

variable {α β : Type*} {x y : Option α} {P : α → Prop} {Q : β → Prop}

/-- A computation whose results all meet the check needs none. -/
theorem of_forall (h : ∀ a, y = some a → P a) : Checks y y P :=
  fun a => ⟨fun ha => ⟨ha, h a ha⟩, And.left⟩

/-- The check of a sequence is that of its last part, when it implies that of the first. -/
theorem bind {f g : α → Option β} (h : Checks x y P)
    (hfg : ∀ a, y = some a → P a → Checks (f a) (g a) Q)
    (hback : ∀ a b, y = some a → g a = some b → Q b → P a) : Checks (x.bind f) (y.bind g) Q := by
  intro b
  rw [Option.bind_eq_some_iff, Option.bind_eq_some_iff]
  constructor
  · rintro ⟨a, hx, hf⟩
    obtain ⟨hy, hP⟩ := (h a).mp hx
    obtain ⟨hg, hQ⟩ := (hfg a hy hP b).mp hf
    exact ⟨⟨a, hy, hg⟩, hQ⟩
  · rintro ⟨⟨a, hy, hg⟩, hQ⟩
    have hP := hback a b hy hg hQ
    exact ⟨a, (h a).mpr ⟨hy, hP⟩, (hfg a hy hP b).mpr ⟨hg, hQ⟩⟩

/-- The check of a sequence whose first part needs none is that of its second. -/
theorem seq {f g : α → Option β} (hfg : ∀ a, y = some a → Checks (f a) (g a) Q) :
    Checks (y.bind f) (y.bind g) Q :=
  (of_forall (P := fun _ => True) fun _ _ => trivial).bind (fun a ha _ => hfg a ha)
    fun _ _ _ _ _ => trivial

/-- A checked computation whose value is then mapped is still checked, by a check that follows the value
through the map. -/
theorem map {v : α} {f : α → β} (h : Checks x (some v) P) (hcheck : P v ↔ Q (f v)) :
    Checks (x.bind fun a => some (f a)) (some (f v)) Q := by
  refine h.bind (g := fun a => some (f a)) (fun a ha hP => of_forall fun b hb => ?_) fun a b ha hb hQ => ?_
  · obtain rfl := Option.some.inj ha
    exact Option.some.inj hb ▸ hcheck.mp hP
  · obtain rfl := Option.some.inj ha
    exact hcheck.mpr (Option.some.inj hb ▸ hQ)

variable {cond : α → Bool} {body body' : α → Option α}

/-- A loop whose result meets the check started from a value that does. -/
theorem of_whileLoop (hback : ∀ a b, body a = some b → P b → P a) {fuel : Nat} {a b : α}
    (h : DroneMini.whileLoop cond body fuel a = some b) (hb : P b) : P a := by
  induction fuel generalizing a with
  | zero =>
      cases hc : cond a with
      | true => simp [DroneMini.whileLoop, hc] at h
      | false =>
          rw [whileLoop_of_not hc] at h
          exact Option.some.inj h ▸ hb
  | succ fuel ih =>
      cases hc : cond a with
      | true =>
          rw [whileLoop_succ hc] at h
          obtain ⟨a', ha, h⟩ := Option.bind_eq_some_iff.mp h
          exact hback a a' ha (ih h)
      | false =>
          rw [whileLoop_of_not hc] at h
          exact Option.some.inj h ▸ hb

/-- A loop is checked when its body is, provided that a check of the state after a turn includes the check of
the state before it. -/
theorem whileLoop (hbody : ∀ a, P a → Checks (body' a) (body a) P)
    (hback : ∀ a b, body a = some b → P b → P a) (fuel : Nat) {a : α} (ha : P a) :
    Checks (DroneMini.whileLoop cond body' fuel a) (DroneMini.whileLoop cond body fuel a) P := by
  induction fuel generalizing a with
  | zero =>
      refine of_forall fun b hb => ?_
      obtain rfl : a = b := by
        cases hc : cond a with
        | true => simp [DroneMini.whileLoop, hc] at hb
        | false => exact Option.some.inj ((whileLoop_of_not hc).symm.trans hb)
      exact ha
  | succ fuel ih =>
      cases hc : cond a with
      | true =>
          rw [whileLoop_succ hc, whileLoop_succ hc]
          exact (hbody a ha).bind (fun b _ hb => ih hb) fun b c _ hrun hcheck =>
            of_whileLoop hback hrun hcheck
      | false =>
          rw [whileLoop_of_not hc, whileLoop_of_not hc]
          exact of_forall fun b hb => Option.some.inj hb ▸ ha

end Checks

end DroneMini
