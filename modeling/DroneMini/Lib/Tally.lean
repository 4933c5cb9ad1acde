import Mathlib.Algebra.BigOperators.Group.List.Basic
import Mathlib.Algebra.GroupWithZero.Nat
import Mathlib.Data.List.Induction

/-!
# Tallies with restarts

A tally adds up what the entries of a list gain, and starts again at some of them. Its value is the gain of
the last stretch without a restart (`exists_stretch`), and no stretch gains more than the tally at its end
(`sum_le_tally`); so a tally never exceeds a bound exactly when no stretch does (`tally_le_iff`).
-/

namespace DroneMini

namespace Tally

variable {α : Type*}

/-- What the entries gained since the last one at which the tally started again; that one counts. -/
def tally (restarts : α → Bool) (gain : α → Nat) (xs : List α) : Nat :=
  xs.foldl (fun n x => (if restarts x then 0 else n) + gain x) 0

variable {restarts : α → Bool} {gain : α → Nat}

/-- The tally after one more entry: it starts again where the entry restarts it, and gains what the entry
brings. -/
theorem tally_concat (xs : List α) (x : α) : tally restarts gain (xs ++ [x]) =
    (if restarts x then 0 else tally restarts gain xs) + gain x :=
  List.foldl_append

/-- Only the first entry of the list may be a restart. -/
def Stretch (restarts : α → Bool) (xs : List α) : Prop := ∀ x ∈ xs.tail, restarts x = false

/-- A stretch goes on with entries that are no restarts. -/
theorem Stretch.concat {xs : List α} {x : α} (h : Stretch restarts xs) (hx : restarts x = false) :
    Stretch restarts (xs ++ [x]) := by
  cases xs with
  | nil => exact fun y hy => absurd hy List.not_mem_nil
  | cons z xs =>
      intro y hy
      rw [List.cons_append, List.tail_cons, List.mem_append, List.mem_singleton] at hy
      rcases hy with hy | rfl
      · exact h y hy
      · exact hx

/-- The tally is the gain of a stretch at the end. -/
theorem exists_stretch (restarts : α → Bool) (gain : α → Nat) (xs : List α) : ∃ old stretch,
    xs = old ++ stretch ∧ Stretch restarts stretch ∧ (stretch.map gain).sum = tally restarts gain xs := by
  induction xs using List.reverseRecOn with
  | nil => exact ⟨[], [], rfl, fun x hx => absurd hx List.not_mem_nil, rfl⟩
  | append_singleton xs x ih =>
      rw [tally_concat]
      cases hx : restarts x with
      | true =>
          refine ⟨xs, [x], rfl, fun y hy => absurd hy List.not_mem_nil, ?_⟩
          rw [List.map_singleton, List.sum_singleton, if_pos rfl, Nat.zero_add]
      | false =>
          obtain ⟨old, stretch, rfl, hstretch, hsum⟩ := ih
          refine ⟨old, stretch ++ [x], List.append_assoc .., hstretch.concat hx, ?_⟩
          rw [List.map_append, List.sum_append, hsum, List.map_singleton, List.sum_singleton,
            if_neg Bool.false_ne_true]

/-- A stretch at the end gains no more than the tally. -/
theorem sum_le_tally (old : List α) {stretch : List α} (h : Stretch restarts stretch) :
    (stretch.map gain).sum ≤ tally restarts gain (old ++ stretch) := by
  induction stretch using List.reverseRecOn with
  | nil => exact Nat.zero_le _
  | append_singleton stretch x ih =>
      rw [← List.append_assoc, tally_concat, List.map_append, List.sum_append, List.map_singleton,
        List.sum_singleton]
      refine Nat.add_le_add_right ?_ _
      cases stretch with
      | nil => exact Nat.zero_le _
      | cons z stretch =>
          have hx : restarts x = false := h x (by simp)
          rw [hx, if_neg Bool.false_ne_true]
          exact ih fun y hy => h y (List.mem_append_left _ hy)

/-- **A tally stays within a bound exactly when every stretch does.** -/
theorem tally_le_iff {bound : Nat} {xs : List α} :
    (∀ before later, xs = before ++ later → tally restarts gain before ≤ bound) ↔
      ∀ old stretch later, xs = old ++ stretch ++ later → Stretch restarts stretch →
        (stretch.map gain).sum ≤ bound := by
  constructor
  · intro h old stretch later hxs hstretch
    exact Nat.le_trans (sum_le_tally old hstretch) (h (old ++ stretch) later hxs)
  · intro h before later hxs
    obtain ⟨old, stretch, rfl, hstretch, hsum⟩ := exists_stretch restarts gain before
    exact hsum ▸ h old stretch later hxs hstretch

end Tally

end DroneMini
