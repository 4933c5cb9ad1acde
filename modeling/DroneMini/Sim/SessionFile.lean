import DroneMini.Plant.GateTwins
import DroneMini.Plant.LogFile
import DroneMini.Sim.ArmingLog

/-!
# The log file of a session

What `plant.runner.run` writes of a session, `load_log` reads back: how the session ended, its time axis, its
faults and its arm state (`session_file`). Two files of one session, written with any metadata, pass the gate
of `tools/compare_logs.py` (`gate_passes`).
-/

namespace DroneMini

open Text

namespace PlantRunner

/-! ## The file -/

/-- A text that reads back from a line of metadata. -/
structure MetaText where
  text : Text
  stripped : strip text = text
  oneLine : OneLine text
  deriving DecidableEq

/-- The metadata that `run` takes from its arguments and its environment. -/
structure RunMeta where
  seed : MetaText
  plant : MetaText
  scenario : MetaText
  mode : MetaText
  versions : MetaText
  paramsHash : MetaText
  resetReason : MetaText

/-- `meta` of `run`: the metadata as keys and values, in the order of the source. -/
def RunMeta.entries (m : RunMeta) : List (Text × Text) :=
  [("kind".toList, "SIL".toList), ("schema".toList, "2".toList), ("seed".toList, m.seed.text),
    ("dt_us".toList, "1000".toList), ("plant".toList, m.plant.text), ("determinism".toList, "rk4".toList),
    ("scenario".toList, m.scenario.text), ("mode".toList, m.mode.text), ("versions".toList, m.versions.text),
    ("params_hash".toList, m.paramsHash.text), ("reset_reason".toList, m.resetReason.text),
    ("decimated".toList, "0".toList), ("vbat_nan".toList, "0".toList)]

/-- `str`, of the fields of a message, of the commands, and of the other floats. -/
structure Str (F : Type) where
  value : Struct.Value → Text
  command : ℚ → Text
  float : F → Text

/-- The columns that `run` passes to `write_row` for a row, by name, each printed as text. -/
def Row.cols {F : Type} (str : Str F) (row : Row F) (name : Text) : Option Text :=
  [("t_us".toList, str.value (.int row.tUs)), ("roll_cmd".toList, str.command row.rollCmd),
    ("pitch_cmd".toList, str.command row.pitchCmd), ("yaw_cmd".toList, str.command row.yawCmd),
    ("thr_cmd".toList, str.command row.thrCmd), ("armed".toList, str.value row.out.armed),
    ("failsafe".toList, str.value row.out.failsafe), ("gyro_x".toList, str.float (row.gyro 0)),
    ("gyro_y".toList, str.float (row.gyro 1)), ("gyro_z".toList, str.float (row.gyro 2)),
    ("acc_x".toList, str.float (row.acc 0)), ("acc_y".toList, str.float (row.acc 1)),
    ("acc_z".toList, str.float (row.acc 2)), ("roll_est".toList, str.value row.out.rollEst),
    ("pitch_est".toList, str.value row.out.pitchEst), ("yaw_est".toList, str.value row.out.yawEst),
    ("mot0".toList, str.value (row.out.mot.getD 0 (.int 0))),
    ("mot1".toList, str.value (row.out.mot.getD 1 (.int 0))),
    ("mot2".toList, str.value (row.out.mot.getD 2 (.int 0))),
    ("mot3".toList, str.value (row.out.mot.getD 3 (.int 0))),
    ("vbat".toList, str.float row.vbat), ("led_mode".toList, str.value row.out.ledMode),
    ("sat_shift".toList, str.value row.out.satShift)].lookup name

/-- The name of the column that logs the duty of a motor. -/
def motorColumn : Fin 4 → Text := ![ "mot0".toList, "mot1".toList, "mot2".toList, "mot3".toList]

theorem motorColumn_mem : ∀ i, motorColumn i ∈ CSV_HEADER := by
  decide

/-- The file of a run that came to its log. -/
def logFile {σ F : Type} (str : Str F) (m : RunMeta) (st : RunState σ F) : Option CsvWriter :=
  CsvWriter.run m.entries (st.rows.map (Row.cols str)) (some st.aborted)

/-- The keys of the metadata that `run` writes, which are the same for every session. -/
def RunMeta.keys : List Text :=
  ["kind", "schema", "seed", "dt_us", "plant", "determinism", "scenario", "mode", "versions", "params_hash",
    "reset_reason", "decimated", "vbat_nan"].map String.toList

/-- Every entry of the metadata is one that `load_log` reads back as it was written. -/
theorem RunMeta.entry (m : RunMeta) : ∀ p ∈ m.entries, Entry p := by
  have hkeys : ∀ key ∈ RunMeta.keys, Key key ∧ key ≠ "aborted".toList := by decide
  have hfixed : ∀ v ∈ ["SIL", "2", "1000", "rk4", "0"].map String.toList, strip v = v ∧ OneLine v := by
    decide
  have hvalue : ∀ v ∈ m.entries.map Prod.snd, strip v = v ∧ OneLine v := by
    have htext (t : MetaText) : strip t.text = t.text ∧ OneLine t.text := ⟨t.stripped, t.oneLine⟩
    simp only [List.map_cons, List.map_nil, List.forall_mem_cons] at hfixed
    obtain ⟨hkind, hschema, hdt, hrk4, hzero, -⟩ := hfixed
    simp only [RunMeta.entries, List.map_cons, List.map_nil, List.forall_mem_cons]
    exact ⟨hkind, hschema, htext _, hdt, htext _, hrk4, htext _, htext _, htext _, htext _, htext _, hzero,
      hzero, fun v hv => absurd hv List.not_mem_nil⟩
  intro p hp
  obtain ⟨hkey, hunmarked⟩ := hkeys p.1 (List.mem_map_of_mem (f := Prod.fst) hp)
  obtain ⟨hstrip, hline⟩ := hvalue p.2 (List.mem_map_of_mem hp)
  exact ⟨hkey, hunmarked, hstrip, hline⟩

/-- A run writes its file: no key of the metadata is that of the file itself. -/
theorem exists_logFile {σ F : Type} (str : Str F) (m : RunMeta) (st : RunState σ F) :
    ∃ w, logFile str m st = some w := by
  have hinit : CsvWriter.init m.entries = some
      ⟨CsvWriter.schemaLine ++ writeMeta m.entries ++ CsvWriter.headerLine, false⟩ := by
    have hkeys : m.entries.map Prod.fst = RunMeta.keys := rfl
    have hfree : "f".toList ∉ RunMeta.keys := by decide
    unfold CsvWriter.init
    rw [hkeys, if_neg hfree]
    rfl
  unfold logFile CsvWriter.run
  rw [hinit, Option.bind_eq_bind, Option.bind_some, CsvWriter.foldlM_writeRow _ rfl]
  exact ⟨_, rfl⟩

/-- `str` and numpy on the values of some rows: each fits into a row and is a number, and the whole numbers
among them read back. -/
structure Str.ReadsBack {F A : Type} [NatCast A] (str : Str F) (np : Numpy A) (rows : List (Row F)) : Prop where
  fits : ∀ row ∈ rows, ∀ name ∈ CSV_HEADER, Cell (cell (row.cols str) name)
  number : ∀ row ∈ rows, ∀ name ∈ CSV_HEADER, (np.float (cell (row.cols str) name)).isSome
  whole : ∀ n : Nat, n ≤ 1 ∨ (∃ row ∈ rows, row.tUs = n) → np.float (str.value (.int n)) = some (.fin n)

/-- The file of a run loads: it has its metadata, a line for each row, and the abort mark exactly if `aborted`
is set. -/
theorem load_logFile {σ F A : Type} [NatCast A] {str : Str F} {np : Numpy A} {st : RunState σ F}
    (hstr : str.ReadsBack np st.rows) (m : RunMeta) :
    ∃ w log, logFile str m st = some w ∧ loadLog np w.text = some log ∧ log.aborted = st.aborted ∧
      Shows np (st.rows.map (Row.cols str)) log := by
  obtain ⟨w, hfile⟩ := exists_logFile str m st
  have hfits : ∀ cols ∈ st.rows.map (Row.cols str), ∀ name ∈ CSV_HEADER, Cell (cell cols name) := by
    rw [List.forall_mem_map]
    exact hstr.fits
  have hnumber : ∀ cols ∈ st.rows.map (Row.cols str), ∀ name ∈ CSV_HEADER,
      (np.float (cell cols name)).isSome := by
    rw [List.forall_mem_map]
    exact hstr.number
  obtain ⟨data, hload, hnumbered⟩ := loadLog_of_run m.entry hfits hnumber hfile
  exact ⟨w, _, hfile, hload, rfl, shows_ofData _ _ hnumbered⟩

end PlantRunner

/-- The value that a loaded log has for a column in a row, if it has that column and that row. -/
def Log.value {A : Type} (l : Log A) (name : Text) (k : Nat) : Option (Flt A) := (l.column name).bind (·[k]?)

/-- A column of flags: whether something holds in a row. -/
def Log.Flags {A : Type} [Zero A] [One A] (log : Log A) (name : Text) (P : Nat → Prop) : Prop :=
  ∀ k < log.n, log.value name k = some (.fin 1) ∧ P k ∨ log.value name k = some (.fin 0) ∧ ¬ P k

section Shows
variable {F A : Type} {np : Numpy A} {str : PlantRunner.Str F} {rows : List (PlantRunner.Row F)} {log : Log A}
  (h : Shows np (rows.map (PlantRunner.Row.cols str)) log)
include h

/-- What a log that shows some rows has in a row. -/
theorem Shows.value {name : Text} (hname : name ∈ CSV_HEADER) {k : Nat} {row : PlantRunner.Row F}
    (hrow : rows[k]? = some row) : log.value name k = np.float (cell (row.cols str) name) := by
  obtain ⟨col, hcol, hvalues⟩ := h.column name hname
  have hlt : k < col.length := by
    rw [← hvalues.length_eq, List.length_map]
    exact (List.getElem?_eq_some_iff.mp hrow).1
  obtain ⟨cols, hcols, hvalue⟩ := exists_of_forall₂ hvalues (List.getElem?_eq_getElem hlt)
  rw [List.getElem?_map, hrow] at hcols
  cases hcols
  rw [Log.value, hcol, Option.bind_some, List.getElem?_eq_getElem hlt, hvalue]

/-- Every row that a log counts, if the log shows some rows, is one of these. -/
theorem Shows.row {k : Nat} (hk : k < log.n) : ∃ row, rows[k]? = some row := by
  rw [h.n, List.length_map] at hk
  exact ⟨_, List.getElem?_eq_getElem hk⟩

/-- A column of flags in a loaded log shows, row by row, what the rows of the run show. -/
theorem Shows.flags [Field A] (hstr : str.ReadsBack np rows) {name : Text} (hname : name ∈ CSV_HEADER)
    {f : SilProto.OutDict → Struct.Value}
    (hcell : ∀ row : PlantRunner.Row F, cell (row.cols str) name = str.value (f row.out)) {P : Nat → Prop}
    (hflag : ∀ row ∈ rows, f row.out = .int 0 ∨ f row.out = .int 1)
    (hP : ∀ (k : Nat) row, rows[k]? = some row → (f row.out = .int 1 ↔ P k)) : log.Flags name P := by
  intro k hk
  obtain ⟨row, hrow⟩ := h.row hk
  have hzero := hstr.whole 0 (.inl (by decide))
  have hone := hstr.whole 1 (.inl le_rfl)
  rw [h.value hname hrow, hcell, ← hP k row hrow]
  rcases hflag row (List.mem_of_getElem? hrow) with hf | hf
  · refine .inr ⟨?_, by rw [hf]; decide⟩
    rw [hf]
    simpa using hzero
  · refine .inl ⟨?_, hf⟩
    rw [hf]
    simpa using hone

omit h in
/-- Two logs that show the same rows are twins, equal in every column. -/
theorem Shows.twins {cols : List (Text → Option Text)} {la lb : Log A} (ha : Shows np cols la)
    (hb : Shows np cols lb) : la.Twins lb where
  header := ha.header.trans hb.header.symm
  n := ha.n.trans hb.n.symm
  column name := by
    by_cases hname : name ∈ CSV_HEADER
    · obtain ⟨a, hcola, hvaluesa⟩ := ha.column name hname
      obtain ⟨b, hcolb, hvaluesb⟩ := hb.column name hname
      have hunique : a = b := by
        refine List.right_unique_forall₂' ?_ hvaluesa hvaluesb
        intro cols v v' hv hv'
        exact Option.some.inj (hv.symm.trans hv')
      rw [hcola, hcolb, hunique]
    · have hnone {l : Log A} (hl : Shows np cols l) : l.column name = none := by
        rw [← Option.not_isSome_iff_eq_none, l.column_isSome_iff, hl.header]
        exact hname
      rw [hnone ha, hnone hb]

/-- The times of a loaded log are those of its rows, one millisecond apart from zero. -/
theorem Shows.timed [Field A] [LinearOrder A] (hstr : str.ReadsBack np rows)
    (htime : ∀ (k : Nat) row, rows[k]? = some row → row.tUs = k * PlantRunner.DT_US)
    (hsmall : rows.length ≤ 2 ^ 32) : log.Timed ((List.range rows.length).map (· * PlantRunner.DT_US)) where
  column := by
    have hname : "t_us".toList ∈ CSV_HEADER := by decide
    obtain ⟨col, hcol, hvalues⟩ := h.column _ hname
    have hlen : rows.length = col.length := by
      rw [← hvalues.length_eq, List.length_map]
    rw [hcol, Option.some.injEq]
    refine List.ext_getElem (by simp [hlen]) fun k hk _ => ?_
    obtain ⟨row, hrow⟩ : ∃ row, rows[k]? = some row := ⟨_, List.getElem?_eq_getElem (hlen ▸ hk)⟩
    have hvalue := h.value hname hrow
    have hcell (row : PlantRunner.Row F) : cell (row.cols str) "t_us".toList = str.value (.int row.tUs) := rfl
    have hwhole := hstr.whole _ (.inr ⟨_, List.mem_of_getElem? hrow, rfl⟩)
    rw [Log.value, hcol, Option.bind_some, List.getElem?_eq_getElem hk, hcell, hwhole, Option.some.injEq,
      htime k _ hrow] at hvalue
    rw [hvalue]
    simp
  sorted := by
    rw [List.pairwise_map]
    exact List.pairwise_lt_range.imp fun hlt => Nat.mul_lt_mul_of_pos_right hlt (by decide)
  small := by
    intro t ht
    obtain ⟨k, hk, rfl⟩ := List.mem_map.mp ht
    have hlt := List.mem_range.mp hk
    unfold PlantRunner.DT_US
    omega

end Shows

namespace ClosedLoop

open PlantRunner

variable {σ F K A : Type} [Field K] [LinearOrder K] [FloatEnv K] [Field A] {s : Setup σ F K}

/-! ## What the file tells -/

variable (s) in
/-- The craft is armed in a row: no fault came before, and without `arm_test` it booted cleanly and is
flying. -/
def ArmedIn (rows : List (Row F)) (k : Nat) : Prop :=
  ¬ FaultBefore s rows (k + 1) ∧
    (s.fw.armTest = false → FailsafeFsm.afterFault s.fw.resetReason = false ∧ Flying s rows (k + 1))

variable (s) in
/-- What a loaded log tells of a session: how it ended, its time axis, its faults, its arm state, and that its
motors were off while it was not armed. -/
structure Recounts (str : Str F) (np : Numpy A) (rows : List (Row F)) (log : Log A) : Prop where
  n : log.n = rows.length
  aborted : log.aborted = true ↔ ∃ y, run s = .inl (.diverges y)
  complete : log.aborted = false → log.n = s.run.nTicks
  time : ∀ k < log.n, log.value "t_us".toList k = some (.fin ((k * DT_US : Nat) : A))
  failsafe : log.Flags "failsafe".toList fun k => FaultBefore s rows (k + 1)
  armed : log.Flags "armed".toList (ArmedIn s rows)
  off : ∀ k < log.n, ¬ ArmedIn s rows k →
    ∀ i, log.value (motorColumn i) k = np.float (str.value (.float (s.bits 0)))

/-- The time that a row logs is its number, in milliseconds. -/
theorem tUs_of_stops {y : ClosedLoop σ F K} (h : Stops s y) {k : Nat} {row : Row F}
    (hrow : y.rows[k]? = some row) : row.tUs = k * DT_US := by
  obtain ⟨es, -, -, hlogs⟩ := ticks_of_stops h
  have hlt : k < es.length := hlogs.length ▸ (List.getElem?_eq_some_iff.mp hrow).1
  obtain ⟨m, -, hlogged⟩ := hlogs.row k _ (List.getElem?_eq_getElem hlt)
  rw [hrow, Option.some.injEq] at hlogged
  rw [hlogged]
  rfl

/-- The log of a closed loop over all ticks has a row for each. -/
theorem length_of_run {y : ClosedLoop σ F K} (h : run s = .inr y) : y.rows.length = s.run.nTicks := by
  obtain ⟨es, -, hlen, hlogs⟩ := ticks_before h
  rw [hlogs.length, hlen]

/-- A log has at least one row, and no more than the run has ticks. -/
theorem length_of_stops {y : ClosedLoop σ F K} (h : Stops s y) :
    0 < y.rows.length ∧ y.rows.length ≤ s.run.nTicks := by
  constructor
  · rcases h with h | h
    · rw [length_of_run h]
      exact s.nTicks_pos
    · obtain ⟨k, t, -, -, htick⟩ := runUntil_range_stop_iff.mp h
      obtain ⟨_, -, hrows⟩ := tick_logged (.inr htick)
      rw [hrows, List.length_append]
      exact Nat.succ_pos _
  · obtain ⟨es, -, hlen, hlogs⟩ := ticks_of_stops h
    rw [hlogs.length]
    exact hlen

/-- A row shows the craft as armed exactly if `ArmedIn` says so. -/
theorem armedIn_of_stops (hintact : Intact s) {y : ClosedLoop σ F K} (h : Stops s y) {k : Nat} {row : Row F}
    (hrow : y.rows[k]? = some row) : row.out.armed = .int 1 ↔ ArmedIn s y.rows k := by
  have hlogged := armingLogged_of_stops hintact h
  unfold ArmedIn
  cases harm : s.fw.armTest with
  | true =>
    rw [hlogged.requested harm k row hrow]
    simp
  | false =>
    rw [hlogged.armed harm k row hrow]
    simp only [true_imp_iff]
    exact and_left_comm

/-- A loaded log tells what the closed loop did, wherever the loop stopped. -/
theorem recounts_of_stops (hintact : Intact s) {str : Str F} {np : Numpy A} {y : ClosedLoop σ F K}
    (h : Stops s y) (hstr : str.ReadsBack np y.rows) {log : Log A}
    (hshows : Shows np (y.rows.map (Row.cols str)) log)
    (haborted : log.aborted = true ↔ ∃ y, run s = .inl (.diverges y)) : Recounts s str np y.rows log where
  n := by rw [hshows.n, List.length_map]
  aborted := haborted
  complete hwhole := by
    rcases h with h | h
    · rw [hshows.n, List.length_map, length_of_run h]
    · rw [haborted.mpr ⟨y, h⟩] at hwhole
      cases hwhole
  time k hk := by
    obtain ⟨row, hrow⟩ := hshows.row hk
    have hcell : cell (row.cols str) "t_us".toList = str.value (.int row.tUs) := rfl
    rw [hshows.value (by decide) hrow, hcell, ← tUs_of_stops h hrow]
    exact hstr.whole row.tUs (.inr ⟨row, List.mem_of_getElem? hrow, rfl⟩)
  failsafe := by
    have hlogged := failsafeLogged_of_stops hintact h
    exact hshows.flags hstr (by decide) (f := SilProto.OutDict.failsafe) (fun _ => rfl) hlogged.flag
      hlogged.shown
  armed := by
    have hlogged := armingLogged_of_stops hintact h
    exact hshows.flags hstr (by decide) (f := SilProto.OutDict.armed) (fun _ => rfl) hlogged.flag
      fun _ _ hrow => armedIn_of_stops hintact h hrow
  off k hk hnot i := by
    obtain ⟨row, hrow⟩ := hshows.row hk
    have hmem := List.mem_of_getElem? hrow
    have hlogged := armingLogged_of_stops hintact h
    have hzero : row.out.armed = .int 0 :=
      (hlogged.flag row hmem).resolve_right fun hone => hnot ((armedIn_of_stops hintact h hrow).mp hone)
    have hmot := hlogged.off row hmem hzero
    have hcell : cell (row.cols str) (motorColumn i) = str.value (row.out.mot.getD i (.int 0)) := by
      fin_cases i <;> rfl
    have hoff : row.out.mot.getD i (.int 0) = .float (s.bits 0) := by
      rw [hmot]
      fin_cases i <;> rfl
    rw [hshows.value (motorColumn_mem i) hrow, hcell, hoff]

end ClosedLoop

namespace Session

open ClosedLoop (Intact Recounts recounts_of_stops)
open PlantRunner

variable {σ F K A : Type} [Field K] [LinearOrder K] [FloatEnv K] [Field A] {s : Setup σ F K}

/-- A session whose plant has returned with a log stopped where its closed loop did, with the same rows, and
aborted exactly if that diverged. -/
theorem stops_of_ended {x : State σ F K} (h : Reach (step s) init x) {e : Ended} {st : RunState σ F}
    (hended : x.left = .ended e (some st)) :
    ∃ y, ClosedLoop.Stops s y ∧ st.rows = y.rows ∧
      (st.aborted = true ↔ ∃ y, ClosedLoop.run s = .inl (.diverges y)) := by
  have houtcome := outcome_of_ended h hended
  unfold Outcome at houtcome
  unfold ClosedLoop.Stops
  split at houtcome
  · next y hrun =>
    obtain ⟨-, haborted, hrows, -⟩ := houtcome
    exact ⟨y, .inl hrun, hrows, by simp [haborted, hrun]⟩
  · next y hrun =>
    obtain ⟨-, haborted, hrows, -⟩ := houtcome
    exact ⟨y, .inr hrun, hrows, by simp [haborted, hrun]⟩
  · exact houtcome.elim

/-- Two sessions with one setup leave the same log behind. -/
theorem rows_unique {x x' : State σ F K} (hreach : Reach (step s) init x) (hreach' : Reach (step s) init x')
    {e e' : Ended} {st st' : RunState σ F} (hended : x.left = .ended e (some st))
    (hended' : x'.left = .ended e' (some st')) : st.rows = st'.rows := by
  have houtcome := outcome_of_ended hreach hended
  have houtcome' := outcome_of_ended hreach' hended'
  unfold Outcome at houtcome houtcome'
  cases hrun : ClosedLoop.run s with
  | inr y =>
    rw [hrun] at houtcome houtcome'
    exact houtcome.2.2.1.trans houtcome'.2.2.1.symm
  | inl stop =>
    rw [hrun] at houtcome houtcome'
    cases stop with
    | diverges y => exact houtcome.2.2.1.trans houtcome'.2.2.1.symm
    | hangs => exact houtcome.elim

/-- **Two files of one session pass the gate.** Two sessions with one setup, whatever their interleavings, write
files that load and pass `compare_logs`, whatever the metadata, under every alignment and every tolerance that is
not negative. -/
theorem gate_passes [LinearOrder A] [FloatEnv A] [IsStrictOrderedRing A] {x x' : State σ F K}
    (hreach : Reach (step s) init x) (hreach' : Reach (step s) init x') {e e' : Ended} {st st' : RunState σ F}
    (hended : x.left = .ended e (some st)) (hended' : x'.left = .ended e' (some st')) {str : Str F} {np : Numpy A}
    (hstr : str.ReadsBack np st.rows) (hnp : np.Sorts)
    (hround : ∀ n : Int, n.natAbs < 2 ^ 53 → FloatEnv.round (n : A) = .fin (n : A)) (m m' : RunMeta)
    {args : CompareArgs A} (htol : .fin 0 ≤ args.tol) :
    ∃ w w' la lb, logFile str m st = some w ∧ logFile str m' st' = some w' ∧ loadLog np w.text = some la ∧
      loadLog np w'.text = some lb ∧ compareLogs np args la lb = some 0 := by
  obtain ⟨y, hstops, hrows, -⟩ := stops_of_ended hreach hended
  have hsame := rows_unique hreach hreach' hended hended'
  obtain ⟨w, la, hfile, hload, -, hshows⟩ := load_logFile hstr m
  obtain ⟨w', lb, hfile', hload', -, hshows'⟩ := load_logFile (hsame ▸ hstr) m'
  refine ⟨w, w', la, lb, hfile, hfile', hload, hload', ?_⟩
  rw [← hsame] at hshows'
  obtain ⟨hpos, hle⟩ := ClosedLoop.length_of_stops hstops
  rw [← hrows] at hpos hle
  have htimed := hshows.timed hstr (fun k row hrow => ClosedLoop.tUs_of_stops hstops (hrows ▸ hrow))
    (hle.trans s.nTicks_lt.le)
  have hn : 0 < la.n := by
    rw [hshows.n, List.length_map]
    exact hpos
  exact compareLogs_twins hround hnp (hshows.twins hshows') htimed hn htol

/-! ## The file of the session on the bench -/

/-- The number that a text of digits stands for, if it is one and not empty. -/
def digits (t : Text) : Option ℚ :=
  if t ≠ [] ∧ t.all Char.isDigit then some (t.foldl (fun n c => 10 * n + (c.toNat - 48)) 0) else none

/-- The number that a text without a sign stands for, with or without a decimal point. -/
def decimal (t : Text) : Option ℚ :=
  match cut '.' t with
  | none => digits t
  | some (a, b) => (digits a).bind fun n => (digits b).map fun m => n + m / 10 ^ b.length

/-- numpy on decimal numbers and sorted times, in exact arithmetic. -/
def decimals : Numpy ℚ where
  float t := (if t.head? = some '-' then (decimal t.tail).map (-·) else decimal t).map .fin
  argsort ts := List.range ts.length
  interp x xp yp := ((xp.zip yp).lookup x).getD (joined x (xp.zip yp))

/-- The floats of the session on the bench, printed as Python prints these four. -/
def benchFloat (bits : UInt32) : Text :=
  if bits = 0 then "0.0".toList
  else if bits = 0xC11CF5C3 then "-9.81".toList
  else if bits = 0x40733333 then "3.8".toList
  else "0.5".toList

def benchStr : Str UInt32 where
  value
    | .int n => (toString n).toList
    | .float bits => benchFloat bits
    | .bytes _ => "bytes".toList
  command q := if q = 0 then "0.0".toList else "1.0".toList
  float := benchFloat

/-- The metadata of the session on the bench, with the values that its arguments give. -/
def benchMeta : RunMeta where
  seed := ⟨"7".toList, by decide, by decide⟩
  plant := ⟨"rk4".toList, by decide, by decide⟩
  scenario := ⟨"rx_failsafe".toList, by decide, by decide⟩
  mode := ⟨"open-loop".toList, by decide, by decide⟩
  versions := ⟨"numpy=2.0.0".toList, by decide, by decide⟩
  paramsHash := ⟨"0".toList, by decide, by decide⟩
  resetReason := ⟨"1".toList, by decide, by decide⟩

/-- The values of the session on the bench read back. -/
theorem readsBack_flagged : ∃ x e st, Reach (step flagged) init x ∧ x.left = .ended e (some st) ∧
    benchStr.ReadsBack decimals st.rows := by
  have hrun : ((ClosedLoop.run flagged).elim (fun _ => false) fun y =>
      decide ((∀ row ∈ y.rows, ∀ name ∈ CSV_HEADER, Cell (cell (row.cols benchStr) name) ∧
        (decimals.float (cell (row.cols benchStr) name)).isSome) ∧ y.rows.map Row.tUs = [0, 1000])) = true := by
    decide +kernel
  cases hy : ClosedLoop.run flagged with
  | inl stop =>
    rw [hy] at hrun
    cases hrun
  | inr y =>
    rw [hy] at hrun
    obtain ⟨hcells, htimes⟩ := of_decide_eq_true hrun
    obtain ⟨x, e, st, hreach, hended, hrows⟩ := exists_ended hy
    refine ⟨x, e, st, hreach, hended, hrows ▸ ⟨fun row hrow name hname => (hcells row hrow name hname).1,
      fun row hrow name hname => (hcells row hrow name hname).2, ?_⟩⟩
    have hnumbers : ∀ n ∈ [0, 1, 1000], decimals.float (benchStr.value (.int n)) = some (.fin (n : ℚ)) := by
      decide +kernel
    rintro n (hn | ⟨row, hrow, rfl⟩)
    · exact hnumbers n (by simp; omega)
    · have hmem : row.tUs ∈ [0, 1000] := htimes ▸ List.mem_map_of_mem hrow
      exact hnumbers row.tUs (by simp at hmem ⊢; omega)

/-- The point of a sorted list that has some time. -/
theorem lookup_zip {ts ys : List (Flt ℚ)} (hsorted : ts.Pairwise (· < ·)) (hlen : ys.length = ts.length)
    {i : Nat} {t : ℚ} {y : Flt ℚ} (ht : ts[i]? = some (.fin t)) (hy : ys[i]? = some y) :
    (ts.zip ys).lookup (.fin t) = some y := by
  induction ts generalizing ys i with
  | nil => cases ht
  | cons u ts ih =>
    cases ys with
    | nil => cases hlen
    | cons v ys =>
      cases i with
      | zero =>
        cases ht
        cases hy
        exact List.lookup_cons_self
      | succ i =>
        obtain ⟨hfirst, hrest⟩ := List.pairwise_cons.mp hsorted
        have hne : (Flt.fin t == u) = false := by
          rw [beq_eq_false_iff_ne]
          rintro rfl
          exact lt_irrefl t (Flt.fin_lt_fin.mp (hfirst _ (List.mem_of_getElem? ht)))
        rw [List.zip_cons_cons, List.lookup_cons, hne]
        exact ih hrest (Nat.succ.inj hlen) ht hy

theorem sorts_decimals : decimals.Sorts where
  argsort _ _ := rfl
  interp ts ys hsorted hlen i t y ht hy := by
    have hlookup := lookup_zip hsorted hlen ht hy
    show ((ts.zip ys).lookup (.fin t)).getD _ = y
    rw [hlookup]
    rfl

/-- Two files of the session on the bench pass the gate. -/
theorem gate_passes_flagged : ∃ x e st w w' la lb, Reach (step flagged) init x ∧ x.left = .ended e (some st) ∧
    logFile benchStr benchMeta st = some w ∧ logFile benchStr { benchMeta with seed := benchMeta.resetReason } st
      = some w' ∧ loadLog decimals w.text = some la ∧ loadLog decimals w'.text = some lb ∧
    compareLogs decimals ⟨.arm, .fin (3 / 20)⟩ la lb = some 0 := by
  obtain ⟨x, e, st, hreach, hended, hstr⟩ := readsBack_flagged
  have htol : .fin 0 ≤ (⟨.arm, .fin (3 / 20)⟩ : CompareArgs ℚ).tol := by decide +kernel
  obtain ⟨w, w', la, lb, hpass⟩ := gate_passes hreach hreach hended hended hstr sorts_decimals (fun _ _ => rfl)
    benchMeta { benchMeta with seed := benchMeta.resetReason } htol
  exact ⟨x, e, st, w, w', la, lb, hreach, hended, hpass⟩

end Session

end DroneMini
