import Mathlib.Data.List.Basic

/-!
# Greedy scanning of a stream for fixed-length frames

A framing is a window length and a test on windows. The greedy scan reads a stream from the left: a
window that passes the test is accepted and skipped whole, otherwise one symbol is skipped, and the
scan stops when less than a window is left. It returns the accepted windows with their offsets and
the rest it could not yet judge.

The scan of a stream that arrives in pieces is the scan of the whole (`Framing.scan_append`): what is
kept between two pieces is the rest, which is shorter than a window (`Framing.scan_rest_lt`) and a
suffix of what was read (`Framing.scan_rest_eq_drop`).
-/

namespace DroneMini

/-- A window length and the test a window has to pass. -/
structure Framing (α : Type*) where
  len : Nat
  len_pos : 0 < len
  accept : List α → Bool

namespace Framing

variable {α : Type*} (F : Framing α)

/-- The greedy scan of a stream whose first symbol has offset `off`: the accepted windows, each with
its offset, and the rest. -/
def scan (off : Nat) (xs : List α) : List (Nat × List α) × List α :=
  if _h : xs.length < F.len then ([], xs)
  else if F.accept (xs.take F.len) then
    let r := scan (off + F.len) (xs.drop F.len)
    ((off, xs.take F.len) :: r.1, r.2)
  else scan (off + 1) (xs.drop 1)
termination_by xs.length
decreasing_by
  all_goals
    have := F.len_pos
    simp only [List.length_drop]
    omega

variable {F}

/-- The scan stops when less than a window is left. -/
theorem scan_of_lt {off : Nat} {xs : List α} (h : xs.length < F.len) : F.scan off xs = ([], xs) := by
  rw [scan, dif_pos h]

/-- The scan accepts a window that passes the test and goes on behind it. -/
theorem scan_of_accept (off : Nat) {xs : List α} (h : F.len ≤ xs.length)
    (ha : F.accept (xs.take F.len) = true) :
    F.scan off xs =
      ((off, xs.take F.len) :: (F.scan (off + F.len) (xs.drop F.len)).1,
        (F.scan (off + F.len) (xs.drop F.len)).2) := by
  rw [scan, dif_neg (Nat.not_lt.mpr h), if_pos ha]

/-- The scan skips one symbol when the window fails the test. -/
theorem scan_of_reject (off : Nat) {xs : List α} (h : F.len ≤ xs.length)
    (ha : F.accept (xs.take F.len) = false) :
    F.scan off xs = F.scan (off + 1) (xs.drop 1) := by
  rw [scan, dif_neg (Nat.not_lt.mpr h), if_neg (by simp [ha])]

/-- What a scan leaves over is too short to hold another window. -/
theorem scan_rest_lt (off : Nat) (xs : List α) : (F.scan off xs).2.length < F.len := by
  induction off, xs using Framing.scan.induct (F := F) with
  | case1 off xs h => rwa [scan_of_lt h]
  | case2 off xs h ha ih => rwa [scan_of_accept off (Nat.not_lt.mp h) ha]
  | case3 off xs h ha ih => rwa [scan_of_reject off (Nat.not_lt.mp h) (Bool.eq_false_iff.mpr ha)]

/-- The rest is what is left after the symbols the scan consumed. -/
theorem scan_rest_suffix (off : Nat) (xs : List α) :
    ∃ k ≤ xs.length, (F.scan off xs).2 = xs.drop k := by
  induction off, xs using Framing.scan.induct (F := F) with
  | case1 off xs h => exact ⟨0, Nat.zero_le _, by rw [scan_of_lt h, List.drop_zero]⟩
  | case2 off xs h ha ih =>
      obtain ⟨k, hk, he⟩ := ih
      rw [List.length_drop] at hk
      refine ⟨F.len + k, by omega, ?_⟩
      rw [scan_of_accept off (Nat.not_lt.mp h) ha, he, List.drop_drop]
  | case3 off xs h ha ih =>
      obtain ⟨k, hk, he⟩ := ih
      rw [List.length_drop] at hk
      have hpos := F.len_pos
      refine ⟨1 + k, by omega, ?_⟩
      rw [scan_of_reject off (Nat.not_lt.mp h) (Bool.eq_false_iff.mpr ha), he, List.drop_drop]

/-- What a scan leaves over is not longer than the stream. -/
theorem scan_rest_le (off : Nat) (xs : List α) : (F.scan off xs).2.length ≤ xs.length := by
  obtain ⟨k, -, he⟩ := scan_rest_suffix (F := F) off xs
  rw [he, List.length_drop]
  omega

/-- What a scan leaves over is the suffix of the stream behind the symbols it has consumed. -/
theorem scan_rest_eq_drop (off : Nat) (xs : List α) :
    (F.scan off xs).2 = xs.drop (xs.length - (F.scan off xs).2.length) := by
  obtain ⟨k, hk, he⟩ := scan_rest_suffix (F := F) off xs
  have hlen : xs.length - (F.scan off xs).2.length = k := by
    rw [he, List.length_drop]
    omega
  rw [hlen, he]

/-- **Scanning is incremental.** The scan of a stream is the scan of a prefix followed by the scan
of the prefix's rest and what comes after. -/
theorem scan_append (off : Nat) (xs ys : List α) :
    F.scan off (xs ++ ys) =
      ((F.scan off xs).1 ++
          (F.scan (off + (xs.length - (F.scan off xs).2.length)) ((F.scan off xs).2 ++ ys)).1,
        (F.scan (off + (xs.length - (F.scan off xs).2.length)) ((F.scan off xs).2 ++ ys)).2) := by
  induction off, xs using Framing.scan.induct (F := F) with
  | case1 off xs h => rw [scan_of_lt h]; simp
  | case2 off xs h ha ih =>
      have hle := Nat.not_lt.mp h
      have hrest := scan_rest_le (F := F) (off + F.len) (xs.drop F.len)
      have htake : (xs ++ ys).take F.len = xs.take F.len := List.take_append_of_le_length hle
      have hdrop : (xs ++ ys).drop F.len = xs.drop F.len ++ ys := List.drop_append_of_le_length hle
      rw [scan_of_accept off (by simp; omega) (by rw [htake]; exact ha), htake, hdrop, ih,
        scan_of_accept off hle ha]
      rw [List.length_drop] at hrest ⊢
      have hoff : off + F.len + (xs.length - F.len
          - (F.scan (off + F.len) (xs.drop F.len)).2.length)
          = off + (xs.length - (F.scan (off + F.len) (xs.drop F.len)).2.length) := by omega
      simp only [hoff, List.cons_append]
  | case3 off xs h ha ih =>
      have hle := Nat.not_lt.mp h
      have hpos := F.len_pos
      have hrej := Bool.eq_false_iff.mpr ha
      have hrest := scan_rest_le (F := F) (off + 1) (xs.drop 1)
      have htake : (xs ++ ys).take F.len = xs.take F.len := List.take_append_of_le_length hle
      have hdrop : (xs ++ ys).drop 1 = xs.drop 1 ++ ys :=
        List.drop_append_of_le_length (by omega)
      rw [scan_of_reject off (by simp; omega) (by rw [htake]; exact hrej), hdrop, ih,
        scan_of_reject off hle hrej]
      rw [List.length_drop] at hrest ⊢
      have hoff : off + 1 + (xs.length - 1 - (F.scan (off + 1) (xs.drop 1)).2.length)
          = off + (xs.length - (F.scan (off + 1) (xs.drop 1)).2.length) := by omega
      rw [hoff]

/-- A scan skips any number of symbols that start no acceptable window. -/
theorem scan_skip (off : Nat) {xs : List α} {k : Nat} (hlen : k + F.len ≤ xs.length + 1)
    (hrej : ∀ j < k, F.accept ((xs.drop j).take F.len) = false) :
    F.scan off xs = F.scan (off + k) (xs.drop k) := by
  induction k with
  | zero => simp
  | succ k ih =>
      rw [ih (by omega) (fun j hj => hrej j (by omega)),
        scan_of_reject (off + k) (by rw [List.length_drop]; omega) (hrej k (by omega)),
        List.drop_drop, Nat.add_assoc]

/-- A scan accepts nothing exactly when no window passes the test. -/
theorem scan_eq_nil_iff (off : Nat) (xs : List α) :
    (F.scan off xs).1 = [] ↔
      ∀ k, k + F.len ≤ xs.length → F.accept ((xs.drop k).take F.len) = false := by
  induction off, xs using Framing.scan.induct (F := F) with
  | case1 off xs h =>
      rw [scan_of_lt h]
      exact iff_of_true rfl (fun k hk => absurd hk (by omega))
  | case2 off xs h ha ih =>
      have hle := Nat.not_lt.mp h
      rw [scan_of_accept off hle ha]
      refine iff_of_false (List.cons_ne_nil _ _) (fun hall => ?_)
      have h0 := hall 0 (by omega)
      rw [List.drop_zero, ha] at h0
      cases h0
  | case3 off xs h ha ih =>
      have hle := Nat.not_lt.mp h
      have hrej := Bool.eq_false_iff.mpr ha
      rw [scan_of_reject off hle hrej, ih, List.length_drop]
      constructor
      · intro hall k hk
        cases k with
        | zero => exact hrej
        | succ k =>
            have hk' := hall k (by omega)
            rwa [List.drop_drop, Nat.add_comm 1 k] at hk'
      · intro hall k hk
        have hpos := F.len_pos
        rw [List.drop_drop, Nat.add_comm 1 k]
        exact hall (k + 1) (by omega)

/-- The first offset only shifts the offsets of the windows. -/
theorem scan_offset (d off : Nat) (xs : List α) :
    F.scan (d + off) xs =
      ((F.scan off xs).1.map fun w => (d + w.1, w.2), (F.scan off xs).2) := by
  induction off, xs using Framing.scan.induct (F := F) with
  | case1 off xs h => simp [scan_of_lt h]
  | case2 off xs h ha ih =>
      have hle := Nat.not_lt.mp h
      rw [scan_of_accept _ hle ha, scan_of_accept off hle ha, Nat.add_assoc, ih]
      rfl
  | case3 off xs h ha ih =>
      have hle := Nat.not_lt.mp h
      have hrej := Bool.eq_false_iff.mpr ha
      rw [scan_of_reject _ hle hrej, scan_of_reject off hle hrej, Nat.add_assoc, ih]

end Framing

end DroneMini
