import DroneMini.Plant.Log
import Mathlib.Data.List.Forall2

/-!
# The log gate

`main` of `tools/compare_logs.py` on two logs that were read, with `align_time` and the part of `residual`
that decides. The gate fails when a signal of both logs is off by more than the tolerance. A signal that a
log lacks is skipped, and a comparison with a value that is not a number is false, so the gate passes what it
could not judge; `gate_failsClosed_iff` says when it does not.
-/

namespace DroneMini

variable {K : Type}

/-- The values of `--align`, which name the row that the times are counted from. -/
inductive AlignMode where
  | start
  | arm
  | t0
  deriving DecidableEq

def COMPARE_SIGNALS : List Text :=
  ["roll_est", "pitch_est", "yaw_est", "gyro_x", "gyro_y", "gyro_z"].map String.toList

/-- What `main` uses of its arguments: the alignment and the tolerance. -/
structure CompareArgs (K : Type) where
  align : AlignMode
  tol : Flt K

variable [Field K] [LinearOrder K] [FloatEnv K]

/-- `align_time`: the times counted from the row that the mode names. An empty log raises. -/
def alignTime (tUs : List (Flt K)) (armed : Option (List (Flt K))) (mode : AlignMode) :
    Option (List (Flt K)) := do
  let idx ←
    match mode, armed with
    | .arm, some armed =>
      if armed.isEmpty then none else some ((armed.findIdx? fun v => (.lit (1 / 2) : Flt K) ≤ v).getD 0)
    | _, _ => some 0
  let epoch ← tUs[idx]?
  return tUs.map fun t => t - epoch

/-- `_resample`: a column at the times of the other log, by linear interpolation. -/
def resample (np : Numpy K) (tNew tOld yOld : List (Flt K)) : List (Flt K) :=
  let order := np.argsort tOld
  tNew.map fun t => np.interp t (order.map fun i => tOld.getD i .nan) (order.map fun i => yOld.getD i .nan)

/-- The differences of two columns in `residual`, value by value. -/
def diffs (a b : List (Flt K)) : List (Flt K) := List.zipWith (· - ·) a b

/-- `residual`: the entry `max_abs`, which is not a number as soon as a difference is not. -/
def maxAbs (a b : List (Flt K)) : Flt K := .maxOf 0 ((diffs a b).map Flt.abs)

namespace Log

/-- The time column of a log on the axis of the comparison. -/
def time (l : Log K) (mode : AlignMode) : Option (List (Flt K)) := do
  let tUs ← l.column "t_us".toList
  alignTime tUs (l.column "armed".toList) mode

end Log

/-- One turn of the loop of `main` over the signals. -/
def gateTurn (np : Numpy K) (tol : Flt K) (la lb : Log K) (ta tb : List (Flt K)) (gateFail : Bool)
    (name : Text) : Bool :=
  match la.column name, lb.column name with
  | some a, some b => if tol < maxAbs a (resample np ta tb b) then true else gateFail
  | _, _ => gateFail

/-- `main`: the exit code, or none when an exception ends it. -/
def compareLogs (np : Numpy K) (args : CompareArgs K) (la lb : Log K) : Option Nat :=
  if la.header ≠ lb.header then some 2
  else do
    let ta ← la.time args.align
    let tb ← lb.time args.align
    return if COMPARE_SIGNALS.foldl (gateTurn np args.tol la lb ta tb) false then 1 else 0

/-! ## Reading a log -/

/-- The row that the arm alignment counts from is a row. -/
theorem findIdx_lt {α : Type} (p : α → Bool) {vs : List α} (h : 0 < vs.length) :
    (vs.findIdx? p).getD 0 < vs.length := by
  cases hidx : vs.findIdx? p with
  | none => exact h
  | some i => exact (List.findIdx?_eq_some_iff_getElem.mp hidx).1

/-- The times of a log with rows can be aligned. -/
theorem alignTime_of_pos {tUs : List (Flt K)} {armed : Option (List (Flt K))} (mode : AlignMode)
    (hpos : 0 < tUs.length) (harmed : ∀ v ∈ armed, v.length = tUs.length) :
    ∃ ts, alignTime tUs armed mode = some ts ∧ ts.length = tUs.length := by
  have hidx : ∃ idx < tUs.length, alignTime tUs armed mode =
      (tUs[idx]?).bind fun epoch => some (tUs.map fun t => t - epoch) := by
    unfold alignTime
    split
    · rename_i v
      have hv := harmed v rfl
      have hne : v.isEmpty = false := by
        rw [List.isEmpty_eq_false_iff, ← List.length_pos_iff, hv]
        exact hpos
      rw [hne]
      refine ⟨_, ?_, rfl⟩
      rw [← hv]
      exact findIdx_lt _ (hv ▸ hpos)
    · exact ⟨0, hpos, rfl⟩
  obtain ⟨idx, hlt, heq⟩ := hidx
  rw [heq, List.getElem?_eq_getElem hlt]
  exact ⟨_, rfl, List.length_map _⟩

/-- The times of an empty log cannot be aligned in any mode. -/
theorem alignTime_nil (armed : Option (List (Flt K))) (mode : AlignMode) :
    alignTime ([] : List (Flt K)) armed mode = none := by
  unfold alignTime
  split
  · split_ifs <;> rfl
  · rfl

/-- Times can be aligned exactly when there is a time column with a row. -/
theorem Log.time_eq (l : Log K) (mode : AlignMode) :
    ("t_us".toList ∈ l.header ∧ 0 < l.n → ∃ ts, l.time mode = some ts ∧ ts.length = l.n) ∧
      (¬ ("t_us".toList ∈ l.header ∧ 0 < l.n) → l.time mode = none) := by
  unfold time
  rw [← l.column_isSome_iff]
  cases ht : l.column "t_us".toList with
  | none => exact ⟨fun h => absurd h.1 Bool.false_ne_true, fun _ => rfl⟩
  | some tUs =>
      have hlen := length_of_column ht
      rw [← hlen]
      constructor
      · exact fun h => alignTime_of_pos mode h.2 fun v hv => (length_of_column hv).trans hlen.symm
      · intro h
        have hnil : tUs = [] := by
          by_contra hne
          exact h ⟨rfl, List.length_pos_iff.mpr hne⟩
        rw [hnil]
        exact alignTime_nil _ mode

/-- Aligned times are those of a log with a time column and a row. -/
theorem Log.time_eq_some {l : Log K} {mode : AlignMode} {ts : List (Flt K)} (h : l.time mode = some ts) :
    ("t_us".toList ∈ l.header ∧ 0 < l.n) ∧ ts.length = l.n := by
  have hrows : "t_us".toList ∈ l.header ∧ 0 < l.n := by
    by_contra hno
    rw [(l.time_eq mode).2 hno] at h
    cases h
  obtain ⟨ts', hts, hlen⟩ := (l.time_eq mode).1 hrows
  rw [hts] at h
  cases h
  exact ⟨hrows, hlen⟩

/-! ## The verdict -/

/-- A pair of logs that the gate goes through: one header with a time column, and a row in both. -/
def Comparable (la lb : Log K) : Prop :=
  la.header = lb.header ∧ "t_us".toList ∈ la.header ∧ 0 < la.n ∧ 0 < lb.n

/-- What the gate compares for a signal: A's column and the values resampled from B's. -/
def compared (np : Numpy K) (args : CompareArgs K) (la lb : Log K) (name : Text) :
    Option (List (Flt K) × List (Flt K)) := do
  let ta ← la.time args.align
  let tb ← lb.time args.align
  let a ← la.column name
  let b ← lb.column name
  return (a, resample np ta tb b)

/-- A signal is compared, and every difference of its values is a number. -/
def Judged (np : Numpy K) (args : CompareArgs K) (la lb : Log K) (name : Text) : Prop :=
  ∃ a v, compared np args la lb name = some (a, v) ∧ ∀ d ∈ diffs a v, d ≠ .nan

/-- A signal that is compared on numbers only, and off by more than the tolerance. -/
def Exceeds (np : Numpy K) (args : CompareArgs K) (la lb : Log K) (name : Text) : Prop :=
  ∃ a v, compared np args la lb name = some (a, v) ∧ (∀ d ∈ diffs a v, d ≠ .nan) ∧
    ∃ d ∈ diffs a v, args.tol < d.abs

/-- The gate fails closed: it passes only when every signal is in both logs and each row of A is within the
tolerance of a number of B. -/
def FailsClosed (np : Numpy K) (args : CompareArgs K) (la lb : Log K) : Prop :=
  compareLogs np args la lb = some 0 →
    ∀ name ∈ COMPARE_SIGNALS, ∃ a v, compared np args la lb name = some (a, v) ∧
      List.Forall₂ (fun x y => y ≠ .nan ∧ (x - y).abs ≤ args.tol) a v

variable {np : Numpy K} {args : CompareArgs K} {la lb : Log K}

/-- The magnitude is above the tolerance when all differences are numbers and one is too large. -/
theorem lt_maxAbs_iff {tol : Flt K} {a v : List (Flt K)} (hne : diffs a v ≠ []) :
    tol < maxAbs a v ↔ (∀ d ∈ diffs a v, d ≠ .nan) ∧ ∃ d ∈ diffs a v, tol < d.abs := by
  rw [maxAbs, Flt.lt_maxOf_iff (List.map_eq_nil_iff.not.mpr hne), List.forall_mem_map]
  simp only [List.mem_map, exists_exists_and_eq_and, Flt.abs_ne_nan]

/-- A turn keeps a verdict that has failed, and makes any other one fail when its own signal does. -/
theorem gateTurn_true (tol : Flt K) (ta tb : List (Flt K)) (gateFail : Bool) (name : Text) :
    gateTurn np tol la lb ta tb gateFail name = true ↔
      gateFail = true ∨ gateTurn np tol la lb ta tb false name = true := by
  unfold gateTurn
  cases la.column name with
  | none => simp
  | some a =>
      cases lb.column name with
      | none => simp
      | some b =>
          dsimp only
          split_ifs <;> simp

/-- The loop fails the gate when the turn of one of the signals does. -/
theorem foldl_gateTurn (np : Numpy K) (la lb : Log K) (tol : Flt K) (ta tb : List (Flt K))
    (names : List Text) (gateFail : Bool) :
    names.foldl (gateTurn np tol la lb ta tb) gateFail = true ↔
      gateFail = true ∨ ∃ name ∈ names, gateTurn np tol la lb ta tb false name = true := by
  induction names generalizing gateFail with
  | nil => simp
  | cons name names ih =>
      rw [List.foldl_cons, ih, gateTurn_true, List.exists_mem_cons_iff, or_assoc]

/-- What is compared of a signal when the times of both logs are aligned. -/
theorem compared_eq {ta tb : List (Flt K)} (hta : la.time args.align = some ta)
    (htb : lb.time args.align = some tb) (name : Text) :
    compared np args la lb name =
      (la.column name).bind fun a => (lb.column name).bind fun b => some (a, resample np ta tb b) := by
  unfold compared
  rw [hta, htb]
  rfl

/-- The turn of a signal fails the gate when the signal exceeds the tolerance. -/
theorem gateTurn_iff {ta tb : List (Flt K)} (hta : la.time args.align = some ta)
    (htb : lb.time args.align = some tb) (hrows : ta.length = la.n) (hpos : 0 < la.n) (name : Text) :
    gateTurn np args.tol la lb ta tb false name = true ↔ Exceeds np args la lb name := by
  unfold gateTurn Exceeds
  rw [compared_eq hta htb]
  cases ha : la.column name with
  | none => simp
  | some a =>
      cases hb : lb.column name with
      | none => simp
      | some b =>
          have hne : diffs a (resample np ta tb b) ≠ [] := by
            rw [← List.length_pos_iff, diffs, List.length_zipWith, Log.length_of_column ha, resample,
              List.length_map, hrows, Nat.min_self]
            exact hpos
          have hlt : args.tol < maxAbs a (resample np ta tb b) ↔ _ := lt_maxAbs_iff hne
          simp [hlt]

/-- The exit code of logs with the same header when their times are aligned. -/
theorem compareLogs_of_times {ta tb : List (Flt K)} (hheader : la.header = lb.header)
    (hta : la.time args.align = some ta) (htb : lb.time args.align = some tb) :
    compareLogs np args la lb =
      some (if COMPARE_SIGNALS.foldl (gateTurn np args.tol la lb ta tb) false then 1 else 0) := by
  unfold compareLogs
  rw [if_neg (not_not_intro hheader), hta, htb]
  rfl

/-- Only logs that are comparable can pass the gate. -/
theorem comparable_of_zero (h : compareLogs np args la lb = some 0) : Comparable la lb := by
  unfold compareLogs at h
  by_cases hheader : la.header = lb.header
  · rw [if_neg (not_not_intro hheader)] at h
    simp only [Option.bind_eq_bind, Option.bind_eq_some_iff] at h
    obtain ⟨ta, hta, tb, htb, -⟩ := h
    have hrowsA := (Log.time_eq_some hta).1
    exact ⟨hheader, hrowsA.1, hrowsA.2, (Log.time_eq_some htb).1.2⟩
  · rw [if_pos hheader] at h
    cases h

/-- **When the gate passes**: the logs are comparable and no signal exceeds the tolerance. -/
theorem compareLogs_eq_zero_iff : compareLogs np args la lb = some 0 ↔
    Comparable la lb ∧ ∀ name ∈ COMPARE_SIGNALS, ¬ Exceeds np args la lb name := by
  have hpass (hcomp : Comparable la lb) : compareLogs np args la lb = some 0 ↔
      ∀ name ∈ COMPARE_SIGNALS, ¬ Exceeds np args la lb name := by
    obtain ⟨hheader, hname, hposA, hposB⟩ := hcomp
    obtain ⟨ta, hta, hrows⟩ := (la.time_eq args.align).1 ⟨hname, hposA⟩
    obtain ⟨tb, htb, -⟩ := (lb.time_eq args.align).1 ⟨hheader ▸ hname, hposB⟩
    have hfold := foldl_gateTurn np la lb args.tol ta tb COMPARE_SIGNALS false
    simp only [gateTurn_iff hta htb hrows hposA, Bool.false_eq_true, false_or] at hfold
    rw [compareLogs_of_times hheader hta htb]
    split_ifs with hfail
    · refine iff_of_false (by decide) fun hall => ?_
      obtain ⟨name, hmem, hexceeds⟩ := hfold.mp hfail
      exact hall name hmem hexceeds
    · exact iff_of_true rfl fun name hmem hexceeds => hfail (hfold.mpr ⟨name, hmem, hexceeds⟩)
  constructor
  · exact fun h => ⟨comparable_of_zero h, (hpass (comparable_of_zero h)).mp h⟩
  · exact fun h => (hpass h.1).mpr h.2

/-- Every row is within the tolerance when every difference is. -/
theorem forall₂_within {tol : Flt K} {a v : List (Flt K)} (hlen : a.length = v.length) :
    List.Forall₂ (fun x y => y ≠ .nan ∧ (x - y).abs ≤ tol) a v ↔ ∀ d ∈ diffs a v, d.abs ≤ tol := by
  induction a generalizing v with
  | nil =>
      rw [List.eq_nil_of_length_eq_zero hlen.symm]
      exact iff_of_true .nil fun d hd => absurd hd List.not_mem_nil
  | cons x a ih =>
      cases v with
      | nil => cases hlen
      | cons y v =>
          have hdiffs : diffs (x :: a) (y :: v) = (x - y) :: diffs a v := rfl
          rw [List.forall₂_cons, ih (Nat.succ.inj hlen), hdiffs, List.forall_mem_cons]
          refine and_congr_left fun _ => ⟨fun h => h.2, fun h => ⟨?_, h⟩⟩
          exact Flt.ne_nan_of_sub (Flt.abs_ne_nan.mp (Flt.ne_nan_of_le h).1)

/-- The columns that are compared have the rows of A. -/
theorem length_of_compared {name : Text} {a v : List (Flt K)}
    (h : compared np args la lb name = some (a, v)) : a.length = la.n ∧ v.length = la.n := by
  unfold compared at h
  simp only [Option.bind_eq_bind, Option.bind_eq_some_iff] at h
  obtain ⟨ta, hta, tb, htb, a', ha, b, hb, h⟩ := h
  cases h
  have hlen := (Log.time_eq_some hta).2
  exact ⟨Log.length_of_column ha, (List.length_map _).trans hlen⟩

/-- **When the gate fails closed.** The logs cannot be compared, or some signal is compared on numbers only
and is off by too much, or the tolerance is a number and all six signals are compared on numbers only. -/
theorem gate_failsClosed_iff : FailsClosed np args la lb ↔
    ¬ Comparable la lb ∨ (∃ name ∈ COMPARE_SIGNALS, Exceeds np args la lb name) ∨
      (args.tol ≠ .nan ∧ ∀ name ∈ COMPARE_SIGNALS, Judged np args la lb name) := by
  constructor
  · intro hclosed
    by_cases hcomp : Comparable la lb
    · by_cases hexceeds : ∃ name ∈ COMPARE_SIGNALS, Exceeds np args la lb name
      · exact .inr (.inl hexceeds)
      -- the gate passes, so all signals are there and within the tolerance
      have hall := hclosed (compareLogs_eq_zero_iff.mpr
        ⟨hcomp, fun name hmem h => hexceeds ⟨name, hmem, h⟩⟩)
      have hwithin {name : Text} (hmem : name ∈ COMPARE_SIGNALS) : ∃ a v,
          compared np args la lb name = some (a, v) ∧ a.length = la.n ∧ v.length = la.n ∧
            ∀ d ∈ diffs a v, d.abs ≤ args.tol := by
        obtain ⟨a, v, hc, hrows⟩ := hall name hmem
        obtain ⟨hla, hlv⟩ := length_of_compared hc
        exact ⟨a, v, hc, hla, hlv, (forall₂_within (hla.trans hlv.symm)).mp hrows⟩
      refine .inr (.inr ⟨?_, fun name hmem => ?_⟩)
      · obtain ⟨a, v, -, hla, hlv, hle⟩ := hwithin
          (by decide : "roll_est".toList ∈ COMPARE_SIGNALS)
        have hpos : 0 < (diffs a v).length := by
          rw [diffs, List.length_zipWith, hla, hlv, Nat.min_self]
          exact hcomp.2.2.1
        exact (Flt.ne_nan_of_le (hle _ (List.getElem_mem hpos))).2
      · obtain ⟨a, v, hc, -, -, hle⟩ := hwithin hmem
        exact ⟨a, v, hc, fun d hd => Flt.abs_ne_nan.mp (Flt.ne_nan_of_le (hle d hd)).1⟩
    · exact .inl hcomp
  · rintro hcond hzero
    obtain ⟨hcomp, hnone⟩ := compareLogs_eq_zero_iff.mp hzero
    rcases hcond with hno | ⟨name, hmem, hexceeds⟩ | ⟨htol, hjudged⟩
    · exact absurd hcomp hno
    · exact absurd hexceeds (hnone name hmem)
    · intro name hmem
      obtain ⟨a, v, hc, hnumbers⟩ := hjudged name hmem
      obtain ⟨hla, hlv⟩ := length_of_compared hc
      refine ⟨a, v, hc, (forall₂_within (hla.trans hlv.symm)).mpr fun d hd => ?_⟩
      exact Flt.le_of_not_lt htol (Flt.abs_ne_nan.mpr (hnumbers d hd)) fun hlt =>
        hnone name hmem ⟨a, v, hc, hnumbers, d, hd, hlt⟩

/-- A log of one row and the time column, without any of the signals. -/
def bareLog : Log ℚ := .ofData ∅ false ["t_us".toList] [[.fin 0]]

/-- A log of one row whose roll is no number. -/
def blindLog : Log ℚ :=
  .ofData ∅ false ("t_us".toList :: COMPARE_SIGNALS)
    [[.fin 0, .nan, .fin 0, .fin 0, .fin 0, .fin 0, .fin 0]]

/-- Two logs, one without the signals and one with a value that is not a number, pass the gate against
themselves. -/
theorem not_gate_failsClosed :
    (loadLog Numpy.plain "t_us\n0\n".toList = some bareLog ∧
      ¬ FailsClosed Numpy.plain ⟨.arm, .fin (3 / 20)⟩ bareLog bareLog) ∧
    loadLog Numpy.plain "t_us,roll_est,pitch_est,yaw_est,gyro_x,gyro_y,gyro_z\n0,nan,0,0,0,0,0\n".toList =
      some blindLog ∧ ¬ FailsClosed Numpy.plain ⟨.arm, .fin (3 / 20)⟩ blindLog blindLog := by
  refine ⟨⟨by decide +kernel, fun hclosed => ?_⟩, by decide +kernel, fun hclosed => ?_⟩
  · obtain ⟨a, v, hc, -⟩ := hclosed (by decide) "roll_est".toList (by decide)
    have hnone : compared Numpy.plain ⟨.arm, .fin (3 / 20)⟩ bareLog bareLog "roll_est".toList = none := by
      decide
    rw [hnone] at hc
    cases hc
  · obtain ⟨a, v, hc, hrows⟩ := hclosed (by decide +kernel) "roll_est".toList (by decide)
    have hnan : compared Numpy.plain ⟨.arm, .fin (3 / 20)⟩ blindLog blindLog "roll_est".toList =
        some ([.nan], [.nan]) := by decide
    rw [hnan] at hc
    cases hc
    cases hrows with
    | cons hrow _ => exact hrow.1 rfl

end DroneMini
