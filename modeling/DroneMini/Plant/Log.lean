import DroneMini.Lib.FltMax
import DroneMini.Lib.FltRat
import DroneMini.Lib.Text
import Mathlib.Data.Finmap

/-!
# The log of a run

`CsvWriter` and `load_log` of `plant/log.py`, and the helpers that compare two logs. The writer is the text it
has written, a row the texts of its values. The metadata that `load_log` returns are a dictionary, here Mathlib's
`Finmap`: one value a key, without the order of the keys, which nothing reads. What the module takes from numpy is
a parameter (`Numpy`); an operation that raises gives `none`.
-/

namespace DroneMini

open Text

/-! ## The writer -/

def SCHEMA_VERSION : Nat := 2

def CSV_HEADER : List Text :=
  ["t_us", "roll_cmd", "pitch_cmd", "yaw_cmd", "thr_cmd", "armed", "failsafe",
    "gyro_x", "gyro_y", "gyro_z", "acc_x", "acc_y", "acc_z",
    "roll_est", "pitch_est", "yaw_est",
    "mot0", "mot1", "mot2", "mot3",
    "vbat", "led_mode", "sat_shift"].map String.toList

/-- `write_meta`: the text it writes, the schema first and then the entries in order. -/
def writeMeta (kv : List (Text × Text)) : Text :=
  (kv.map fun p => "# ".toList ++ p.1 ++ "=".toList ++ p.2 ++ ['\n']).flatten

/-- `CsvWriter`: what it has written, and whether it is closed. -/
structure CsvWriter where
  text : Text
  closed : Bool

namespace CsvWriter

/-- `CsvWriter.__init__`. The keys are passed as keyword arguments, beside `f`. -/
def init (metadata : List (Text × Text)) : Option CsvWriter :=
  if "f".toList ∈ metadata.map Prod.fst then none
  else
    some
      { text := "# schema=".toList ++ (toString SCHEMA_VERSION).toList ++ ['\n'] ++ writeMeta metadata ++
          ([','].intercalate CSV_HEADER ++ ['\n'])
        closed := false }

/-- `CsvWriter.write_row`: the values in the order of the header, a missing one as zero. A closed file
raises. -/
def writeRow (w : CsvWriter) (cols : Text → Option Text) : Option CsvWriter :=
  if w.closed then none
  else
    some { w with
      text := w.text ++
        ([','].intercalate (CSV_HEADER.map fun name => (cols name).getD "0".toList) ++ ['\n']) }

/-- `CsvWriter.close`: the first call writes the footer, later ones do nothing. -/
def close (w : CsvWriter) (aborted : Bool) : CsvWriter :=
  if w.closed then w
  else
    { text := w.text ++ ("# aborted=".toList ++ (if aborted then "1".toList else "0".toList) ++ ['\n'])
      closed := true }

end CsvWriter

/-! ## The loader -/

/-- What the tools use of numpy: the conversion of a text to a number, the indices that sort, and the value of
the interpolation at a point. -/
structure Numpy (K : Type) where
  float : Text → Option (Flt K)
  argsort : List (Flt K) → List Nat
  interp : Flt K → List (Flt K) → List (Flt K) → Flt K

/-- `meta`, the dictionary of `load_log`: a key has at most one value. -/
abbrev Metadata : Type := Finmap fun _ : Text => Text

/-- `Log`: the columns have the names of the header, and all have one length. -/
structure Log (K : Type) where
  metadata : Metadata
  aborted : Bool
  header : List Text
  columns : List (Text × List (Flt K))
  n : Nat
  names : columns.map Prod.fst = header
  sized : ∀ c ∈ columns, c.2.length = n
  deriving DecidableEq

/-- The local variables of the loop of `load_log`, which goes over the lines of the file. -/
structure Loading where
  metadata : Metadata
  aborted : Bool
  header : Option (List Text)
  rows : List (List Text)

namespace Log

variable {K : Type}

/-- A column; of two with one name the dictionary keeps the last. -/
def column (l : Log K) (name : Text) : Option (List (Flt K)) := l.columns.reverse.lookup name

/-- The columns of an array whose rows are at least as long as the header. -/
def ofData (metadata : Metadata) (aborted : Bool) (header : List Text)
    (data : List (List (Flt K))) : Log K where
  metadata := metadata
  aborted := aborted
  header := header
  columns := header.zipIdx.map fun c => (c.1, data.map fun row => row.getD c.2 .nan)
  n := data.length
  names := by rw [List.map_map]; exact List.zipIdx_map_fst 0 header
  sized := by
    intro c hc
    obtain ⟨d, -, rfl⟩ := List.mem_map.mp hc
    exact List.length_map _

end Log

namespace Loading

/-- The variables before the loop: no metadata, not aborted, no header and no rows. -/
def start : Loading := ⟨∅, false, none, []⟩

/-- One turn of the loop of `load_log`: an empty line, a comment, the header or a row. -/
def line (st : Loading) (line : Text) : Loading :=
  if line.head? = some '#' then
    match cut '=' (strip line.tail) with
    | some (k, v) =>
      if k = "aborted".toList then { st with aborted := strip v == "1".toList }
      else { st with metadata := st.metadata.insert (strip k) (strip v) }
    | none => st
  else
    let parts := (strip line).splitOn ','
    match st.header with
    | none => { st with header := some parts }
    | some _ => if parts.head? = some [] then st else { st with rows := st.rows ++ [parts] }

/-- `np.array(rows, dtype=float)`: the texts are numbers, and the rows have one length. -/
def array {K : Type} (np : Numpy K) (rows : List (List Text)) : Option (List (List (Flt K))) := do
  let data ← rows.mapM fun row => row.mapM np.float
  if data.all fun row => row.length == (data.headD []).length then some data else none

end Loading

/-- `load_log`: the lines read one by one, and the rows converted to numbers. -/
def loadLog {K : Type} (np : Numpy K) (content : Text) : Option (Log K) := do
  let st := (lines content).foldl Loading.line .start
  let header ← st.header
  let data ← Loading.array np st.rows
  if data.all fun row => header.length ≤ row.length then
    some (.ofData st.metadata st.aborted header data)
  else none

namespace Log

variable {K : Type}

/-- A log has the columns that its header names, and no others. -/
theorem column_isSome_iff (l : Log K) (name : Text) : (l.column name).isSome ↔ name ∈ l.header := by
  rw [column, List.lookup_isSome_iff, ← l.names, List.mem_map]
  simp only [List.mem_reverse, beq_iff_eq]
  exact exists_congr fun c => and_congr_right fun _ => eq_comm

/-- Every column of a log has as many values as the log has rows. -/
theorem length_of_column {l : Log K} {name : Text} {v : List (Flt K)} (h : l.column name = some v) :
    v.length = l.n := by
  obtain ⟨before, behind, hsplit, -⟩ := List.lookup_eq_some_iff.mp h
  refine l.sized (name, v) (List.mem_reverse.mp ?_)
  rw [hsplit]
  exact List.mem_append_right _ List.mem_cons_self

end Log

/-! ## Small logs -/

/-- The value at a place of the line that joins some points, with the outer values continued. -/
def joined (x : Flt ℚ) : List (Flt ℚ × Flt ℚ) → Flt ℚ
  | [] => .nan
  | [p] => p.2
  | p :: q :: ps =>
    if x < p.1 then p.2
    else if x < q.1 then (q.2 - p.2) / (q.1 - p.1) * (x - p.1) + p.2
    else joined x (q :: ps)

/-- numpy on logs of whole numbers and `nan` whose times are sorted, in exact arithmetic. -/
def Numpy.plain : Numpy ℚ where
  float s :=
    if s = "nan".toList then some .nan
    else if s ≠ [] ∧ s.all Char.isDigit then some (.fin (s.foldl (fun n c => 10 * n + (c.toNat - 48)) 0))
    else none
  argsort t := List.range t.length
  interp x xp yp := if x = .nan then .nan else joined x (xp.zip yp)

end DroneMini
