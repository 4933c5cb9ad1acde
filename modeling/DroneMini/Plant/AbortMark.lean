import DroneMini.Plant.Log
import Mathlib.Algebra.Order.Field.Rat

/-!
# The abort mark of a log

A log says that its run was aborted in a line that `close` writes last. The loader takes the last line that
reads so (`lastMark`), wherever it stands, and takes a log without one for complete. So a log that was closed
loads with the flag it was closed with (`aborted_of_closed`), and one that was not loads as aborted only when
a line of its own metadata or rows says so (`unfinished_flagged_iff`).
-/

namespace DroneMini

open Text

/-- What a line says of the run: nothing, or whether it was aborted. -/
def abortMark (line : Text) : Option Bool :=
  if line.head? = some '#' then
    match cut '=' (strip line.tail) with
    | some (k, v) => if k = "aborted".toList then some (strip v == "1".toList) else none
    | none => none
  else none

/-- What the last line with an abort mark says, if there is one. -/
def lastMark (ls : List Text) : Option Bool := (ls.filterMap abortMark).getLast?

/-- The texts that `write_row` writes of some rows, one after the other. -/
def rowsText (rows : List (Text → Option Text)) : Text :=
  (rows.map fun cols =>
    [','].intercalate (CSV_HEADER.map fun name => (cols name).getD "0".toList) ++ ['\n']).flatten

namespace CsvWriter

/-- A writer that was built with some metadata, wrote some rows and was then closed or left. -/
def run (metadata : List (Text × Text)) (rows : List (Text → Option Text)) (closed : Option Bool) :
    Option CsvWriter := do
  let w ← init metadata
  let w ← rows.foldlM writeRow w
  return closed.elim w w.close

/-- The first line of a log, with the version of its schema. -/
def schemaLine : Text := "# schema=".toList ++ (toString SCHEMA_VERSION).toList ++ ['\n']

/-- The line of the header, with the names of the columns. -/
def headerLine : Text := [','].intercalate CSV_HEADER ++ ['\n']

/-- What the writer has written before it is closed: schema, metadata, header and rows. -/
def body (metadata : List (Text × Text)) (rows : List (Text → Option Text)) : Text :=
  schemaLine ++ writeMeta metadata ++ headerLine ++ rowsText rows

/-- The footer that `close` writes, with the abort mark. -/
def footer (aborted : Bool) : Text :=
  "# aborted=".toList ++ (if aborted then "1".toList else "0".toList) ++ ['\n']

/-- Writing some rows to an open file appends their texts. -/
theorem foldlM_writeRow (rows : List (Text → Option Text)) {w : CsvWriter} (hopen : w.closed = false) :
    rows.foldlM writeRow w = some { w with text := w.text ++ rowsText rows } := by
  induction rows generalizing w with
  | nil => simp [rowsText]
  | cons cols rows ih =>
      rw [List.foldlM_cons, writeRow, hopen]
      refine (ih rfl).trans ?_
      simp [rowsText]

/-- The metadata is written in whole lines, whatever its keys and values are. -/
theorem whole_writeMeta (metadata : List (Text × Text)) : Whole (writeMeta metadata) := by
  refine Whole.flatten fun t ht => ?_
  obtain ⟨p, -, rfl⟩ := List.mem_map.mp ht
  exact .inr ⟨_, rfl⟩

/-- The rows are written in whole lines, whatever their cells are. -/
theorem whole_rowsText (rows : List (Text → Option Text)) : Whole (rowsText rows) := by
  refine Whole.flatten fun t ht => ?_
  obtain ⟨cols, -, rfl⟩ := List.mem_map.mp ht
  exact .inr ⟨_, rfl⟩

theorem whole_schemaLine : Whole schemaLine := .inr ⟨_, rfl⟩

theorem whole_headerLine : Whole headerLine := .inr ⟨_, rfl⟩

/-- All that is written before the footer is in whole lines. -/
theorem whole_body (metadata : List (Text × Text)) (rows : List (Text → Option Text)) :
    Whole (body metadata rows) :=
  ((whole_schemaLine.append (whole_writeMeta metadata)).append whole_headerLine).append
    (whole_rowsText rows)

/-- The writer that is built has written the body without rows. -/
theorem init_eq {metadata : List (Text × Text)} {w : CsvWriter} (h : init metadata = some w) :
    w = ⟨schemaLine ++ writeMeta metadata ++ headerLine, false⟩ := by
  unfold init at h
  split_ifs at h
  cases h
  rfl

/-- Closing a writer that is open writes the footer behind its text. -/
theorem close_of_open {w : CsvWriter} (hopen : w.closed = false) (aborted : Bool) :
    (w.close aborted).text = w.text ++ footer aborted := by
  rw [close, hopen]
  rfl

/-- The text of a run: the body, and the footer if it was closed. -/
theorem text_of_run {metadata : List (Text × Text)} {rows : List (Text → Option Text)} {closed : Option Bool}
    {w : CsvWriter} (h : run metadata rows closed = some w) :
    w.text = body metadata rows ++ closed.elim [] footer := by
  unfold run at h
  simp only [Option.bind_eq_bind, Option.bind_eq_some_iff] at h
  obtain ⟨w₀, hinit, w₁, hrows, h⟩ := h
  rw [init_eq hinit, foldlM_writeRow rows rfl] at hrows
  cases hrows
  cases h
  cases closed with
  | none => exact (List.append_nil _).symm
  | some b => exact close_of_open rfl b

end CsvWriter

/-! ## The mark -/

/-- A turn of the loader takes the mark of its line. -/
theorem Loading.aborted_line (st : Loading) (l : Text) :
    (st.line l).aborted = (abortMark l).getD st.aborted := by
  unfold Loading.line abortMark
  split_ifs with hhead
  · cases cut '=' (strip l.tail) with
    | none => rfl
    | some p =>
        dsimp only
        split_ifs <;> rfl
  · cases st.header with
    | none => rfl
    | some header =>
        dsimp only
        split_ifs <;> rfl

/-- After all lines the loader holds what the last mark says, or what it held before when there is none. -/
theorem Loading.aborted_foldl (ls : List Text) (st : Loading) :
    (ls.foldl Loading.line st).aborted = (lastMark ls).getD st.aborted := by
  induction ls generalizing st with
  | nil => rfl
  | cons l ls ih =>
      rw [List.foldl_cons, ih, Loading.aborted_line]
      unfold lastMark
      cases hm : abortMark l with
      | none => rw [List.filterMap_cons_none hm, Option.getD_none]
      | some b =>
          rw [List.filterMap_cons_some hm, List.getLast?_cons, Option.getD_some, Option.getD_some]

/-- A log that loads has the flag of its last mark. -/
theorem aborted_of_load {K : Type} {np : Numpy K} {content : Text} {log : Log K}
    (h : loadLog np content = some log) : log.aborted = (lastMark (lines content)).getD false := by
  unfold loadLog at h
  simp only [Option.bind_eq_bind, Option.bind_eq_some_iff] at h
  obtain ⟨header, -, data, -, h⟩ := h
  split_ifs at h
  cases h
  exact Loading.aborted_foldl _ _

/-- Behind whole lines the marks of a text are read on their own, line by line. -/
theorem filterMap_lines_append {t : Text} (ht : Whole t) (s : Text) :
    (lines (t ++ s)).filterMap abortMark =
      (lines t).filterMap abortMark ++ (lines s).filterMap abortMark := by
  rw [lines_append ht, List.filterMap_append]

/-- The marks of the body are those of the metadata and of the rows. -/
theorem lastMark_body (metadata : List (Text × Text)) (rows : List (Text → Option Text)) :
    lastMark (lines (CsvWriter.body metadata rows)) =
      lastMark (lines (writeMeta metadata ++ rowsText rows)) := by
  have hmeta := CsvWriter.whole_writeMeta metadata
  have hschema : (lines CsvWriter.schemaLine).filterMap abortMark = [] := by decide
  have hheader : (lines CsvWriter.headerLine).filterMap abortMark = [] := by decide
  unfold lastMark CsvWriter.body
  rw [List.append_assoc, List.append_assoc, filterMap_lines_append CsvWriter.whole_schemaLine, hschema,
    filterMap_lines_append hmeta, filterMap_lines_append CsvWriter.whole_headerLine, hheader,
    filterMap_lines_append hmeta, List.nil_append, List.nil_append]

/-- The footer is the last mark of a file that is closed, whatever the metadata says. -/
theorem lastMark_footer (metadata : List (Text × Text)) (rows : List (Text → Option Text)) (b : Bool) :
    lastMark (lines (CsvWriter.body metadata rows ++ CsvWriter.footer b)) = some b := by
  have hfooter : (lines (CsvWriter.footer b)).filterMap abortMark = [b] := by
    cases b <;> decide
  unfold lastMark
  rw [filterMap_lines_append (CsvWriter.whole_body metadata rows), hfooter, List.getLast?_concat]

variable {K : Type} {np : Numpy K} {metadata : List (Text × Text)} {rows : List (Text → Option Text)}
  {w : CsvWriter} {log : Log K}

/-- A log that was closed loads with the flag it was closed with. -/
theorem aborted_of_closed {b : Bool} (hrun : CsvWriter.run metadata rows (some b) = some w)
    (hload : loadLog np w.text = some log) : log.aborted = b := by
  rw [aborted_of_load hload, CsvWriter.text_of_run hrun]
  exact congrArg (Option.getD · false) (lastMark_footer metadata rows b)

/-- A log that was not closed loads as aborted when its metadata and rows say so. -/
theorem aborted_of_unclosed (hrun : CsvWriter.run metadata rows none = some w)
    (hload : loadLog np w.text = some log) :
    log.aborted = (lastMark (lines (writeMeta metadata ++ rowsText rows))).getD false := by
  rw [aborted_of_load hload, CsvWriter.text_of_run hrun, ← lastMark_body]
  exact congrArg (fun t => (lastMark (lines t)).getD false) (List.append_nil _)

/-- A log that loads as complete was closed as complete. -/
def AbortShown (closed : Option Bool) (log : Log K) : Prop := log.aborted = false → closed = some false

/-- **When an unfinished log loads as aborted.** The loader never takes an unfinished log for complete
exactly when the writer was closed, or the last mark among the metadata and the rows reads 1. -/
theorem unfinished_flagged_iff {closed : Option Bool} (hrun : CsvWriter.run metadata rows closed = some w)
    (hload : loadLog np w.text = some log) :
    AbortShown closed log ↔
      closed ≠ none ∨ lastMark (lines (writeMeta metadata ++ rowsText rows)) = some true := by
  cases closed with
  | none =>
      rw [AbortShown, aborted_of_unclosed hrun hload]
      generalize lastMark (lines (writeMeta metadata ++ rowsText rows)) = mark
      rcases mark with _ | _ | _ <;> simp
  | some b =>
      have hflag := aborted_of_closed hrun hload
      refine iff_of_true (fun h => ?_) (.inl (Option.some_ne_none b))
      rw [← hflag, h]

/-- A writer with one metadata entry and one row, and its log: nothing says that it was aborted. -/
theorem unfinished_flagged_iff_left : ∃ w log,
    CsvWriter.run [("kind".toList, "SIL".toList)] [fun _ => none] none = some w ∧
      loadLog Numpy.plain w.text = some log ∧
      (AbortShown none log ↔ (none : Option Bool) ≠ none ∨
        lastMark (lines (writeMeta [("kind".toList, "SIL".toList)] ++ rowsText [fun _ => none])) =
          some true) := by
  have hloads : ((CsvWriter.run [("kind".toList, "SIL".toList)] [fun _ => none] none).bind fun w =>
      loadLog Numpy.plain w.text).isSome := by decide
  obtain ⟨log, hlog⟩ := Option.isSome_iff_exists.mp hloads
  obtain ⟨w, hrun, hload⟩ := Option.bind_eq_some_iff.mp hlog
  exact ⟨w, log, hrun, hload, unfinished_flagged_iff hrun hload⟩

/-- A writer that is left at once: the log loads as complete. -/
theorem not_flagged : ∃ w log, CsvWriter.run [] [] none = some w ∧
    loadLog Numpy.plain w.text = some log ∧ ¬ AbortShown none log := by
  have hloads : ((CsvWriter.run [] [] none).bind fun w => loadLog Numpy.plain w.text).map Log.aborted =
      some false := by decide
  obtain ⟨log, hlog, hflag⟩ := Option.map_eq_some_iff.mp hloads
  obtain ⟨w, hrun, hload⟩ := Option.bind_eq_some_iff.mp hlog
  exact ⟨w, log, hrun, hload, fun h => absurd (h hflag) (Option.some_ne_none false).symm⟩

end DroneMini
