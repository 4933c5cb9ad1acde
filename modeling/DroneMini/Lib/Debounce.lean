import Mathlib.Data.List.Induction

/-!
# Debounced judgements

A debounced judgement is passed when the last `k` samples of a sequence were all bad. A program keeps a
counter for it that a bad sample moves up to the limit and a good one back to zero (`debounce`). The
counter is the length of the bad streak at the end, cut at the limit (`debounce_streak`), so it reaches the
limit exactly when the sequence ends with `k` bad samples (`le_streak_iff`).
-/

namespace DroneMini

namespace Debounce

variable {α : Type*}

/-- The number of samples at the end that are all bad. -/
def streak (bad : α → Bool) (xs : List α) : Nat := xs.foldl (fun n x => if bad x then n + 1 else 0) 0

/-- The counter of a program after one more sample: it moves up to the limit on a bad one and back to zero on
a good one. -/
def debounce (limit : Nat) (bad : Bool) (count : Nat) : Nat :=
  if bad then if count < limit then count + 1 else count else 0

/-- The sequence ends with `k` samples that are all bad. -/
def EndsBad (k : Nat) (bad : α → Bool) (xs : List α) : Prop :=
  ∃ old last, xs = old ++ last ∧ last.length = k ∧ ∀ y ∈ last, bad y = true

/-- The sequence has `k` bad samples in a row, somewhere. -/
def BadInARow (k : Nat) (bad : α → Bool) (xs : List α) : Prop :=
  ∃ old row later, xs = old ++ row ++ later ∧ row.length = k ∧ ∀ y ∈ row, bad y = true

variable {bad : α → Bool}

/-- One more sample continues the streak when it is bad, and ends it when it is good. -/
theorem streak_concat (xs : List α) (x : α) :
    streak bad (xs ++ [x]) = if bad x then streak bad xs + 1 else 0 :=
  List.foldl_append

/-- **The counter is the streak, cut at the limit.** One more sample keeps this, whatever it is. -/
theorem debounce_streak (limit : Nat) (xs : List α) (x : α) :
    debounce limit (bad x) (min limit (streak bad xs)) = min limit (streak bad (xs ++ [x])) := by
  rw [streak_concat, debounce]
  split_ifs <;> omega

/-- **A streak of at least `k` samples is a sequence that ends with `k` bad ones.** -/
theorem le_streak_iff {k : Nat} {xs : List α} : k ≤ streak bad xs ↔ EndsBad k bad xs := by
  induction xs using List.reverseRecOn generalizing k with
  | nil =>
      constructor
      · intro h
        obtain rfl : k = 0 := Nat.le_zero.mp h
        exact ⟨[], [], rfl, rfl, by simp⟩
      · rintro ⟨old, last, heq, rfl, -⟩
        obtain ⟨-, rfl⟩ := List.append_eq_nil_iff.mp heq.symm
        exact Nat.zero_le _
  | append_singleton xs x ih =>
      rw [streak_concat]
      cases k with
      | zero => exact iff_of_true (Nat.zero_le _) ⟨xs ++ [x], [], by simp, rfl, by simp⟩
      | succ k =>
          constructor
          · intro h
            split_ifs at h with hx
            · obtain ⟨old, last, rfl, hlen, hall⟩ := ih.mp (Nat.le_of_succ_le_succ h)
              refine ⟨old, last ++ [x], by rw [List.append_assoc], by simp [hlen], ?_⟩
              simpa [or_imp, forall_and] using ⟨hall, hx⟩
            · omega
          · rintro ⟨old, last, heq, hlen, hall⟩
            rcases List.eq_nil_or_concat last with rfl | ⟨last, y, rfl⟩
            · simp at hlen
            · rw [List.concat_eq_append, ← List.append_assoc] at heq
              obtain ⟨rfl, hxy⟩ := List.append_inj' heq rfl
              obtain rfl := List.singleton_inj.mp hxy
              rw [List.concat_eq_append, List.length_append, List.length_singleton] at hlen
              rw [List.concat_eq_append] at hall
              rw [if_pos (hall x (by simp))]
              have hk : k ≤ streak bad (old ++ last) :=
                ih.mpr ⟨old, last, rfl, by omega, fun z hz => hall z (by simp [hz])⟩
              omega

/-- A sequence ends with `k` bad samples when it is that long and all of its last `k` samples are bad. -/
theorem endsBad_iff {k : Nat} {xs : List α} : EndsBad k bad xs ↔
    k ≤ xs.length ∧ ∀ j x, xs[j]? = some x → xs.length ≤ j + k → bad x = true := by
  constructor
  · rintro ⟨old, last, rfl, rfl, hall⟩
    refine ⟨by simp, fun j x hx hj => hall x ?_⟩
    rw [List.length_append] at hj
    rw [List.getElem?_append_right (by omega)] at hx
    exact List.mem_of_getElem? hx
  · rintro ⟨hlen, hall⟩
    refine ⟨xs.take (xs.length - k), xs.drop (xs.length - k), (List.take_append_drop _ _).symm, ?_, ?_⟩
    · rw [List.length_drop]
      omega
    · intro y hy
      obtain ⟨j, hj⟩ := List.mem_iff_getElem?.mp hy
      rw [List.getElem?_drop] at hj
      exact hall _ y hj (by omega)

/-- A sequence ends with `k` bad samples when its judgements end with `k` times true. -/
theorem endsBad_iff_replicate {k : Nat} {xs : List α} :
    EndsBad k bad xs ↔ List.replicate k true <:+ xs.map bad := by
  constructor
  · rintro ⟨old, last, rfl, rfl, hall⟩
    refine ⟨old.map bad, ?_⟩
    rw [List.map_append, List.append_cancel_left_eq]
    exact (List.eq_replicate_iff.mpr ⟨List.length_map _, by simpa using hall⟩).symm
  · rintro ⟨old, heq⟩
    obtain ⟨old, last, rfl, -, hlast⟩ := List.map_eq_append_iff.mp heq.symm
    obtain ⟨hlen, hall⟩ := List.eq_replicate_iff.mp hlast
    exact ⟨old, last, rfl, by simpa using hlen, by simpa using hall⟩

/-- A sequence has `k` bad samples in a row when its judgements are somewhere `k` times true in a row. -/
theorem badInARow_iff_replicate {k : Nat} {xs : List α} :
    BadInARow k bad xs ↔ List.replicate k true <:+: xs.map bad := by
  constructor
  · rintro ⟨old, row, later, rfl, rfl, hall⟩
    refine ⟨old.map bad, later.map bad, ?_⟩
    rw [List.map_append, List.map_append, List.append_cancel_right_eq, List.append_cancel_left_eq]
    exact (List.eq_replicate_iff.mpr ⟨List.length_map _, by simpa using hall⟩).symm
  · rintro ⟨old, later, heq⟩
    obtain ⟨front, later, rfl, hfront, -⟩ := List.map_eq_append_iff.mp heq.symm
    obtain ⟨old, row, rfl, -, hrow⟩ := List.map_eq_append_iff.mp hfront
    obtain ⟨hlen, hall⟩ := List.eq_replicate_iff.mp hrow
    exact ⟨old, row, later, rfl, by simpa using hlen, by simpa using hall⟩

/-- A sequence has `k` bad samples in a row when one of its prefixes ends with them. -/
theorem badInARow_iff {k : Nat} {xs : List α} :
    BadInARow k bad xs ↔ ∃ before later, xs = before ++ later ∧ k ≤ streak bad before := by
  constructor
  · rintro ⟨old, row, later, rfl, hlen, hall⟩
    exact ⟨old ++ row, later, rfl, le_streak_iff.mpr ⟨old, row, rfl, hlen, hall⟩⟩
  · rintro ⟨before, later, rfl, hle⟩
    obtain ⟨old, row, rfl, hlen, hall⟩ := le_streak_iff.mp hle
    exact ⟨old, row, later, rfl, hlen, hall⟩

end Debounce

end DroneMini
