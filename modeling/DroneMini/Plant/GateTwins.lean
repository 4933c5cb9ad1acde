import DroneMini.Plant.CompareLogs
import Mathlib.Algebra.Order.Ring.Cast

/-!
# The gate on two logs of one run

Two logs with the same columns pass the gate of `tools/compare_logs.py`, under every alignment and every
tolerance that is not negative (`compareLogs_twins`): the resampling of sorted times on themselves gives every
value back, so no difference is a number other than zero.
-/

namespace DroneMini

variable {A : Type} [Field A] [LinearOrder A] [FloatEnv A]

/-- What the gate relies on in numpy: `argsort` leaves sorted times in order, and `interp` goes through its
points. -/
structure Numpy.Sorts (np : Numpy A) : Prop where
  argsort : ∀ ts : List (Flt A), ts.Pairwise (· < ·) → np.argsort ts = List.range ts.length
  interp : ∀ ts ys : List (Flt A), ts.Pairwise (· < ·) → ys.length = ts.length → ∀ (i : Nat) t y,
    ts[i]? = some (.fin t) → ys[i]? = some y → np.interp (.fin t) ts ys = y

/-- A log whose times are whole numbers in increasing order. -/
structure Log.Timed (l : Log A) (times : List Nat) : Prop where
  column : l.column "t_us".toList = some (times.map fun t => .fin (t : A))
  sorted : times.Pairwise (· < ·)
  small : ∀ t ∈ times, t < 2 ^ 53

/-- Two logs with the same header and the same columns, whatever their metadata says. -/
structure Log.Twins (la lb : Log A) : Prop where
  header : la.header = lb.header
  n : la.n = lb.n
  column : ∀ name, la.column name = lb.column name

/-- Aligned times are those of the log, counted from one of them. -/
theorem alignTime_eq_some {tUs : List (Flt A)} {armed : Option (List (Flt A))} {mode : AlignMode}
    {ts : List (Flt A)} (h : alignTime tUs armed mode = some ts) :
    ∃ epoch ∈ tUs, ts = tUs.map fun t => t - epoch := by
  have hfrom {idx : Nat} (h : (tUs[idx]?.bind fun epoch => some (tUs.map fun t => t - epoch)) = some ts) :
      ∃ epoch ∈ tUs, ts = tUs.map fun t => t - epoch := by
    obtain ⟨epoch, hepoch, h⟩ := Option.bind_eq_some_iff.mp h
    exact ⟨epoch, List.mem_of_getElem? hepoch, (Option.some.inj h).symm⟩
  unfold alignTime at h
  split at h
  · split_ifs at h
    · cases h
    · exact hfrom h
  · exact hfrom h

omit [Field A] [FloatEnv A] in
/-- A column that is resampled at its own increasing times is the column itself. -/
theorem resample_self {np : Numpy A} (hnp : np.Sorts) {ts : List A} (hsorted : ts.Pairwise (· < ·))
    {ys : List (Flt A)} (hlen : ys.length = ts.length) : resample np (ts.map .fin) (ts.map .fin) ys = ys := by
  have hpairs : (ts.map (Flt.fin (K := A))).Pairwise (· < ·) := by
    rw [List.pairwise_map]
    exact hsorted.imp Flt.fin_lt_fin.mpr
  have hself {l : List (Flt A)} (hl : l.length = ts.length) :
      ((List.range ts.length).map fun i => l.getD i .nan) = l := by
    refine List.ext_getElem (by simp [hl]) fun i _ hi => ?_
    rw [List.getElem_map, List.getElem_range, List.getD_eq_getElem?_getD, List.getElem?_eq_getElem hi, Option.getD_some]
  unfold resample
  dsimp only
  rw [hnp.argsort _ hpairs, List.length_map, hself (List.length_map _), hself hlen]
  refine List.ext_getElem (by simp [hlen]) fun i hi hi' => ?_
  have hts : i < ts.length := hlen ▸ hi'
  rw [List.getElem_map, List.getElem_map]
  refine hnp.interp _ _ hpairs (by simp [hlen]) i _ _ ?_ (List.getElem?_eq_getElem hi')
  rw [List.getElem?_map, List.getElem?_eq_getElem hts]
  rfl

section Twins
variable {np : Numpy A} {args : CompareArgs A} {la lb : Log A}

/-- Two logs with the same columns are aligned alike, in every mode. -/
theorem Log.Twins.time (h : la.Twins lb) (mode : AlignMode) : lb.time mode = la.time mode := by
  rw [Log.time, Log.time, h.column, h.column]

variable (hround : ∀ n : Int, n.natAbs < 2 ^ 53 → FloatEnv.round (n : A) = .fin (n : A))
include hround

omit [LinearOrder A] in
/-- A value is off itself by zero, or by no number. -/
theorem sub_self_of_ne_nan {v : Flt A} (h : v - v ≠ .nan) : v - v = .fin 0 := by
  cases v with
  | fin x =>
    have hzero := hround 0 (by decide)
    have hdiff : (Flt.fin x - Flt.fin x : Flt A) = FloatEnv.round (x + -x) := rfl
    rw [hdiff, add_neg_cancel]
    simpa using hzero
  | posInf | negInf | nan => exact absurd rfl h

variable [IsStrictOrderedRing A]

/-- The times of a log with increasing times stay in increasing order when they are aligned. -/
theorem Log.Timed.time {times : List Nat} (h : la.Timed times) {mode : AlignMode} {ts : List (Flt A)}
    (hts : la.time mode = some ts) : ∃ aligned : List A, ts = aligned.map .fin ∧ aligned.Pairwise (· < ·) ∧
      aligned.length = times.length := by
  unfold Log.time at hts
  rw [h.column, Option.bind_eq_bind, Option.bind_some] at hts
  obtain ⟨epoch, hepoch, rfl⟩ := alignTime_eq_some hts
  obtain ⟨e, he, rfl⟩ := List.mem_map.mp hepoch
  refine ⟨times.map fun t : Nat => (t : A) - (e : A), ?_, ?_, List.length_map _⟩
  · rw [List.map_map, List.map_map]
    refine List.map_congr_left fun t ht => ?_
    have hsmall : ((t : Int) - e).natAbs < 2 ^ 53 := by
      have ht := h.small t ht
      have he := h.small e he
      omega
    have hdiff := hround _ hsmall
    have hsub : (Flt.fin (t : A) - Flt.fin (e : A) : Flt A) = FloatEnv.round ((t : A) + -e) := rfl
    rw [Function.comp, Function.comp, hsub]
    push_cast [← sub_eq_add_neg] at hdiff ⊢
    exact hdiff
  · rw [List.pairwise_map]
    exact h.sorted.imp fun hlt => sub_lt_sub_right (Nat.cast_lt.mpr hlt) _

/-- **Two logs with the same columns pass the gate.** Values that are not numbers do not matter, because they
are compared with themselves. -/
theorem compareLogs_twins (hnp : np.Sorts) (h : la.Twins lb) {times : List Nat} (htimed : la.Timed times)
    (hpos : 0 < la.n) (htol : .fin 0 ≤ args.tol) : compareLogs np args la lb = some 0 := by
  have hmem : "t_us".toList ∈ la.header := by
    rw [← la.column_isSome_iff, htimed.column]
    rfl
  refine compareLogs_eq_zero_iff.mpr ⟨⟨h.header, hmem, hpos, h.n ▸ hpos⟩, fun name hname => ?_⟩
  rintro ⟨a, v, hcompared, hnumbers, d, hd, hlt⟩
  obtain ⟨ta, hta, hrows⟩ := (la.time_eq args.align).1 ⟨hmem, hpos⟩
  obtain ⟨aligned, rfl, hsorted, hlen⟩ := htimed.time hround hta
  rw [compared_eq hta ((h.time args.align).trans hta), ← h.column] at hcompared
  obtain ⟨b, hb, hcompared⟩ := Option.bind_eq_some_iff.mp hcompared
  rw [hb] at hcompared
  cases hcompared
  rw [List.length_map] at hrows
  rw [resample_self hnp hsorted ((Log.length_of_column hb).trans hrows.symm)] at hd hnumbers
  have hzero : d = .fin 0 := by
    have hne := hnumbers d hd
    unfold diffs at hd
    rw [List.zipWith_self] at hd
    obtain ⟨x, -, rfl⟩ := List.mem_map.mp hd
    exact sub_self_of_ne_nan hround hne
  have habs : (Flt.fin 0 : Flt A).abs = .fin 0 := congrArg Flt.fin abs_zero
  rw [hzero, habs] at hlt
  generalize args.tol = tol at hlt htol
  cases tol with
  | fin x => exact absurd (Flt.fin_lt_fin.mp hlt) (not_lt.mpr (Flt.fin_le_fin.mp htol))
  | posInf => cases hlt
  | negInf | nan => cases htol

end Twins

end DroneMini
