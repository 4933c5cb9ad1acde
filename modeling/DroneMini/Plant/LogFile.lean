import DroneMini.Plant.AbortMark
import Mathlib.Data.List.Forall2

/-!
# The log as a file

What a `CsvWriter` has written, `load_log` reads: the metadata, with the last value of each key, the columns and
how the run ended (`load_of_run`), for values whose texts fit into a row and into a line.
-/

namespace DroneMini

open Text

/-- What `write_row` writes of a column: the value of the row, or zero when it has none. -/
def cell (cols : Text → Option Text) (name : Text) : Text := (cols name).getD "0".toList

/-- The values that a row writes, in the order of the header. -/
def cells (cols : Text → Option Text) : List Text := CSV_HEADER.map (cell cols)

/-- A text that fits between two commas: not empty, and without white space, comma or comment sign. -/
def Cell (t : Text) : Prop := t ≠ [] ∧ ∀ c ∈ t, isSpace c = false ∧ c ≠ ',' ∧ c ≠ '#'

instance : DecidablePred Cell := fun t =>
  have := List.decidableBAll (fun c => isSpace c = false ∧ c ≠ ',' ∧ c ≠ '#') t
  instDecidableAnd

/-- A text that fits before the `=` of some metadata. -/
def Key (t : Text) : Prop := ∀ c ∈ t, isSpace c = false ∧ c ≠ '='

instance : DecidablePred Key := List.decidableBAll fun c => isSpace c = false ∧ c ≠ '='

/-- A metadata entry that is read back from its line: a plain key, and a stripped value of one line. -/
structure Entry (p : Text × Text) : Prop where
  key : Key p.1
  unmarked : p.1 ≠ "aborted".toList
  value : strip p.2 = p.2
  oneLine : OneLine p.2

/-- The dictionary with some more entries, put in one after the other. -/
def Metadata.add (d : Metadata) (entries : List (Text × Text)) : Metadata :=
  entries.foldl (fun d p => d.insert p.1 p.2) d

/-- The metadata of a file: the version, which the writer puts first, and what it was built with. -/
def versioned (metadata : List (Text × Text)) : List (Text × Text) := ("schema".toList, "2".toList) :: metadata

/-- The line that `write_meta` writes of an entry. -/
def metaLine (p : Text × Text) : Text := '#' :: ' ' :: (p.1 ++ '=' :: p.2)

/-- The line that `write_row` writes of a row. -/
def rowLine (cols : Text → Option Text) : Text := [','].intercalate (cells cols)

/-- The lines of a file up to the footer: schema, metadata, header and rows. -/
def fileLines (metadata : List (Text × Text)) (rows : List (Text → Option Text)) : List Text :=
  (versioned metadata).map metaLine ++ [','].intercalate CSV_HEADER :: rows.map rowLine

/-! ## Values -/

/-- A key has the value of the last entry that has it, and the one it had before where no entry has it. -/
theorem Metadata.lookup_add (d : Metadata) (entries : List (Text × Text)) (key : Text) :
    (d.add entries).lookup key = (entries.reverse.lookup key).or (d.lookup key) := by
  induction entries generalizing d with
  | nil => rfl
  | cons p entries ih =>
    have hlast : [p].lookup key = if key = p.1 then some p.2 else none := by
      split_ifs with hkey
      · rw [hkey]
        exact List.lookup_cons_self
      · rw [List.lookup_cons, beq_false_of_ne hkey]
        rfl
    have hinsert : (d.insert p.1 p.2).lookup key = ([p].lookup key).or (d.lookup key) := by
      rw [hlast]
      split_ifs with hkey
      · rw [hkey]
        exact Finmap.lookup_insert d
      · exact Finmap.lookup_insert_of_ne d hkey
    have hstep : d.add (p :: entries) = Metadata.add (d.insert p.1 p.2) entries := rfl
    rw [hstep, ih, hinsert, List.reverse_cons, List.lookup_append, Option.or_assoc]

/-- The characters of a cell do not end a line. -/
theorem Cell.oneLine {t : Text} (h : Cell t) : OneLine t := by
  intro c hc
  have hspace := (h.2 c hc).1
  refine ⟨?_, ?_⟩ <;> rintro rfl <;> cases hspace

/-- The values of a row, between commas: no white space, and neither a comma nor a number sign in front. -/
theorem mem_intercalate {ts : List Text} {c : Char} (h : c ∈ [','].intercalate ts) :
    c = ',' ∨ ∃ t ∈ ts, c ∈ t := by
  induction ts with
  | nil => cases h
  | cons t ts ih =>
    cases ts with
    | nil => exact .inr ⟨t, List.mem_cons_self, by simpa using h⟩
    | cons u ts =>
      rw [List.intercalate_cons_cons, List.mem_append, List.mem_append] at h
      rcases h with (h | h) | h
      · exact .inr ⟨t, List.mem_cons_self, h⟩
      · exact .inl (by simpa using h)
      · exact (ih h).imp id fun ⟨v, hv, hc⟩ => ⟨v, List.mem_cons_of_mem t hv, hc⟩

section Row
variable {ts : List Text} (hts : ∀ t ∈ ts, Cell t)
include hts

/-- A row that is made of cells has no white space in it. -/
theorem isSpace_intercalate {c : Char} (hc : c ∈ [','].intercalate ts) : isSpace c = false := by
  rcases mem_intercalate hc with rfl | ⟨t, ht, hc⟩
  · decide
  · exact ((hts t ht).2 c hc).1

/-- A row that is made of cells is one line. -/
theorem oneLine_intercalate : OneLine ([','].intercalate ts) := by
  intro c hc
  have hspace := isSpace_intercalate hts hc
  refine ⟨?_, ?_⟩ <;> rintro rfl <;> cases hspace

/-- A row that is made of cells begins with a character of a cell, so it is no comment. -/
theorem head_intercalate (hne : ts ≠ []) : ∃ c, ([','].intercalate ts).head? = some c ∧ c ≠ '#' ∧ c ≠ ',' := by
  cases ts with
  | nil => exact absurd rfl hne
  | cons t ts =>
    obtain ⟨hcell, hchars⟩ := hts t List.mem_cons_self
    cases t with
    | nil => exact absurd rfl hcell
    | cons c t =>
      refine ⟨c, ?_, (hchars c List.mem_cons_self).2.2, (hchars c List.mem_cons_self).2.1⟩
      cases ts <;> simp

end Row

/-- The start of a row: whole cells, and the start of another. -/
theorem splitOn_prefix {ts : List Text} (hts : ∀ t ∈ ts, ',' ∉ t) {p : Text}
    (h : p <+: [','].intercalate ts) : ∃ k t, p.splitOn ',' = ts.take k ++ [t] ∧ k ≤ ts.length - 1 := by
  induction ts generalizing p with
  | nil =>
    obtain rfl := List.prefix_nil.mp h
    exact ⟨0, [], rfl, le_rfl⟩
  | cons t ts ih =>
    have hcomma : ',' ∉ t := hts t List.mem_cons_self
    have hshort (hp : p <+: t) : ∃ k u, p.splitOn ',' = (t :: ts).take k ++ [u] ∧ k ≤ (t :: ts).length - 1 :=
      ⟨0, p, List.splitOn_eq_singleton fun hmem => hcomma (hp.subset hmem), by omega⟩
    cases ts with
    | nil => exact hshort (by simpa using h)
    | cons u ts =>
      rw [List.intercalate_cons_cons, List.append_assoc] at h
      rcases List.prefix_or_prefix_of_prefix h (List.prefix_append t _) with hp | ⟨q, rfl⟩
      · exact hshort hp
      · rw [List.prefix_append_right_inj] at h
        cases q with
        | nil => exact hshort (by simp)
        | cons c q =>
          obtain ⟨rfl, hq⟩ := List.cons_prefix_cons.mp h
          obtain ⟨k, v, hsplit, hk⟩ := ih (fun w hw => hts w (List.mem_cons_of_mem t hw)) hq
          refine ⟨k + 1, v, ?_, ?_⟩
          · rw [List.splitOn_append_cons_self_of_not_mem hcomma, hsplit]
            rfl
          · simp only [List.length_cons] at hk ⊢
            omega

/-! ## The loader -/

namespace Loading

/-- The loader puts the entry of a metadata line into its dictionary. -/
theorem line_metaLine (st : Loading) {p : Text × Text} (h : Entry p) :
    st.line (metaLine p) = { st with metadata := st.metadata.insert p.1 p.2 } := by
  have hkey : strip p.1 = p.1 := strip_eq_self fun c hc => (h.key c hc).1
  have hbody : strip (metaLine p).tail = p.1 ++ '=' :: p.2 := by
    refine (strip_space _).trans (strip_of_ends ?_ ?_)
    · intro c hc
      rw [List.head?_append] at hc
      cases hk : p.1.head? with
      | none =>
        rw [hk] at hc
        obtain rfl := Option.some.inj hc
        decide
      | some d =>
        rw [hk] at hc
        obtain rfl := Option.some.inj hc
        exact (h.key d (List.mem_of_mem_head? hk)).1
    · intro c hc
      rw [List.getLast?_append, List.getLast?_cons] at hc
      cases hv : p.2.getLast? with
      | none =>
        rw [hv] at hc
        obtain rfl := Option.some.inj hc
        decide
      | some d =>
        rw [hv] at hc
        obtain rfl := Option.some.inj hc
        exact isSpace_last h.value d hv
  have hhead : (metaLine p).head? = some '#' := rfl
  have hcut : cut '=' (p.1 ++ '=' :: p.2) = some (p.1, p.2) := cut_append (fun hmem => (h.key _ hmem).2 rfl) p.2
  unfold line
  rw [if_pos hhead, hbody, hcut]
  dsimp only
  rw [if_neg h.unmarked, hkey, h.value]

variable {ts : List Text} (hts : ∀ t ∈ ts, Cell t) (hne : ts ≠ [])
include hts hne

/-- What the loader makes of the start of a row. -/
theorem line_beginning (st : Loading) {p : Text} (hp : p <+: [','].intercalate ts) (hsome : p ≠ []) :
    st.line p =
      match st.header with
      | none => { st with header := some (p.splitOn ',') }
      | some _ => { st with rows := st.rows ++ [p.splitOn ','] } := by
  obtain ⟨c, hc, hnumber, hcomma⟩ := head_intercalate hts hne
  have hfirst : p.head? = some c := by
    obtain ⟨q, hq⟩ := hp
    rw [← hq, List.head?_append_of_ne_nil p hsome] at hc
    exact hc
  have hstrip : strip p = p := strip_eq_self fun d hd => isSpace_intercalate hts (hp.subset hd)
  have hcell : (p.splitOn ',').head? ≠ some [] := by
    cases p with
    | nil => exact absurd rfl hsome
    | cons d p =>
      obtain rfl := Option.some.inj hfirst
      have hsplit := List.splitOn_ne_nil ',' p
      rw [List.splitOn_cons_eq_if_modifyHead, if_neg (by simpa using hcomma)]
      cases hp : p.splitOn ',' with
      | nil => exact absurd hp hsplit
      | cons u us => simp
  unfold line
  rw [if_neg (by rw [hfirst]; simpa using hnumber), hstrip]
  cases st.header with
  | none => rfl
  | some header => exact if_neg hcell

/-- The loader takes the first line of cells for the header, and every later one for a row. -/
theorem line_intercalate (st : Loading) : st.line ([','].intercalate ts) =
    match st.header with
    | none => { st with header := some ts }
    | some _ => { st with rows := st.rows ++ [ts] } := by
  obtain ⟨c, hc, -⟩ := head_intercalate hts hne
  have hsome : [','].intercalate ts ≠ [] := by
    intro hnil
    rw [hnil] at hc
    cases hc
  have hsplit : ([','].intercalate ts).splitOn ',' = ts :=
    List.splitOn_intercalate ',' (fun t ht hmem => ((hts t ht).2 _ hmem).2.1 rfl) hne
  rw [line_beginning hts hne st List.prefix_rfl hsome, hsplit]

end Loading

/-! ## Files -/

/-- The last line of a file that is closed, without its end. -/
def footerLine (aborted : Bool) : Text := "# aborted=".toList ++ (if aborted then "1".toList else "0".toList)

/-- The lines of a whole file, with the footer when it is closed. -/
def allLines (metadata : List (Text × Text)) (rows : List (Text → Option Text)) (closed : Option Bool) :
    List Text :=
  fileLines metadata rows ++ (closed.map footerLine).toList

/-- What a writer has written before it is closed is the lines up to the footer. -/
theorem body_eq (metadata : List (Text × Text)) (rows : List (Text → Option Text)) :
    CsvWriter.body metadata rows = unlines (fileLines metadata rows) := by
  have hschema : CsvWriter.schemaLine = unlines [metaLine ("schema".toList, "2".toList)] := by
    rw [unlines_cons]
    rfl
  have hmeta : writeMeta metadata = unlines (metadata.map metaLine) := by
    rw [writeMeta, unlines, List.map_map]
    refine congrArg List.flatten (List.map_congr_left fun p _ => ?_)
    simp [metaLine]
  have hheader : CsvWriter.headerLine = unlines [[','].intercalate CSV_HEADER] := by
    rw [CsvWriter.headerLine, unlines_cons]
    rfl
  have hrows : rowsText rows = unlines (rows.map rowLine) := by
    rw [rowsText, unlines, List.map_map]
    rfl
  rw [CsvWriter.body, hschema, hmeta, hheader, hrows, fileLines, versioned, List.map_cons, ← unlines_append, ← unlines_append,
    ← unlines_append]
  simp

theorem footer_eq (aborted : Bool) : CsvWriter.footer aborted = unlines [footerLine aborted] := by
  rw [unlines_cons, unlines_nil]
  rfl

/-- What a writer has written in the end is the lines of the file. -/
theorem text_eq {metadata : List (Text × Text)} {rows : List (Text → Option Text)} {closed : Option Bool}
    {w : CsvWriter} (h : CsvWriter.run metadata rows closed = some w) :
    w.text = unlines (allLines metadata rows closed) := by
  have hfooter : closed.elim [] CsvWriter.footer = unlines (closed.map footerLine).toList := by
    cases closed with
    | none => rfl
    | some aborted => exact footer_eq aborted
  rw [CsvWriter.text_of_run h, allLines, unlines_append, body_eq, hfooter]

/-- The names of the columns fit into a row themselves. -/
theorem cell_header : ∀ t ∈ CSV_HEADER, Cell t := by
  decide

theorem oneLine_footerLine (aborted : Bool) : OneLine (footerLine aborted) := by
  cases aborted <;> decide

/-- The line of an entry is one line. -/
theorem Entry.oneLine_metaLine {p : Text × Text} (h : Entry p) : OneLine (metaLine p) := by
  intro c hc
  simp only [metaLine, List.mem_cons, List.mem_append] at hc
  rcases hc with rfl | rfl | hc | rfl | hc
  · decide
  · decide
  · have hspace := (h.key c hc).1
    refine ⟨?_, ?_⟩ <;> rintro rfl <;> cases hspace
  · decide
  · exact h.oneLine c hc

/-- The version of the schema is metadata like any other entry. -/
theorem entry_schema : Entry ("schema".toList, "2".toList) where
  key := by decide
  unmarked := by decide
  value := by decide
  oneLine := by decide

section File
variable {metadata : List (Text × Text)} {rows : List (Text → Option Text)} {closed : Option Bool}
  (hentries : ∀ p ∈ metadata, Entry p) (hcells : ∀ cols ∈ rows, ∀ name ∈ CSV_HEADER, Cell (cell cols name))
include hentries

/-- With the version in front, the entries are still ones that are read back. -/
theorem entry_versioned : ∀ p ∈ versioned metadata, Entry p := by
  intro p hp
  rcases List.mem_cons.mp hp with rfl | hp
  · exact entry_schema
  · exact hentries p hp

/-- The loader puts the entries of metadata lines into its dictionary, in order. -/
theorem foldl_metaLine (st : Loading) : (metadata.map metaLine).foldl Loading.line st
    = { st with metadata := st.metadata.add metadata } := by
  induction metadata generalizing st with
  | nil => rfl
  | cons p ps ih =>
    rw [List.map_cons, List.foldl_cons, st.line_metaLine (hentries p List.mem_cons_self),
      ih fun q hq => hentries q (List.mem_cons_of_mem p hq)]
    rfl

/-- The state of the loader behind the metadata lines: their dictionary, and nothing else so far. -/
theorem foldl_entries : ((versioned metadata).map metaLine).foldl Loading.line .start
    = ⟨Metadata.add ∅ (versioned metadata), false, none, []⟩ :=
  foldl_metaLine (entry_versioned hentries) _

omit hentries in
include hcells in
/-- Every value of a row that is written fits between two commas. -/
theorem cell_cells {cols : Text → Option Text} (h : cols ∈ rows) : ∀ t ∈ cells cols, Cell t := by
  intro t ht
  obtain ⟨name, hname, rfl⟩ := List.mem_map.mp ht
  exact hcells cols h name hname

omit hentries in
include hcells in
/-- Once it has a header the loader takes the lines of rows for their cells. -/
theorem foldl_rowLine (st : Loading) (hheader : st.header.isSome) : (rows.map rowLine).foldl Loading.line st
    = { st with rows := st.rows ++ rows.map cells } := by
  induction rows generalizing st with
  | nil => simp
  | cons cols rows ih =>
    have hrow : st.line (rowLine cols) = { st with rows := st.rows ++ [cells cols] } := by
      obtain ⟨header, hh⟩ := Option.isSome_iff_exists.mp hheader
      rw [rowLine, Loading.line_intercalate (cell_cells hcells List.mem_cons_self) (by simp [cells, CSV_HEADER]), hh]
    rw [List.map_cons, List.foldl_cons, hrow, ih (fun c hc => hcells c (List.mem_cons_of_mem cols hc))]
    · simp
    · exact hheader

include hcells in
/-- The state of the loader behind the rows: the dictionary, the header and the cells. -/
theorem foldl_fileLines : (fileLines metadata rows).foldl Loading.line .start
    = ⟨Metadata.add ∅ (versioned metadata), false, some CSV_HEADER, rows.map cells⟩ := by
  rw [fileLines, List.foldl_append, foldl_entries hentries, List.foldl_cons,
    Loading.line_intercalate cell_header (by simp [CSV_HEADER]), foldl_rowLine hcells]
  · rfl
  · rfl

include hcells in
/-- Every line of a file is one line, so the file is read line by line. -/
theorem oneLine_allLines : ∀ l ∈ allLines metadata rows closed, OneLine l := by
  intro l hl
  simp only [allLines, fileLines, List.mem_append, List.mem_map, List.mem_cons] at hl
  rcases hl with (⟨p, hp, rfl⟩ | rfl | ⟨cols, hcols, rfl⟩) | hl
  · exact (entry_versioned hentries p hp).oneLine_metaLine
  · exact oneLine_intercalate cell_header
  · exact oneLine_intercalate (cell_cells hcells hcols)
  · cases closed with
    | none => cases hl
    | some aborted =>
      obtain rfl := List.mem_singleton.mp hl
      exact oneLine_footerLine aborted

end File

/-! ## Columns -/

/-- A list that is converted value by value corresponds to the result place by place. -/
theorem forall₂_of_mapM {α β : Type} {f : α → Option β} {xs : List α} {ys : List β}
    (h : xs.mapM f = some ys) : List.Forall₂ (fun x y => f x = some y) xs ys := by
  induction xs generalizing ys with
  | nil =>
    cases h
    exact .nil
  | cons x xs ih =>
    simp only [List.mapM_cons, Option.bind_eq_bind, Option.bind_eq_some_iff, Option.pure_def,
      Option.some.injEq] at h
    obtain ⟨y, hy, ys, hys, rfl⟩ := h
    exact .cons hy (ih hys)

/-- When each value of a list can be converted, the list can. -/
theorem exists_mapM {α β : Type} {f : α → Option β} {xs : List α} (h : ∀ x ∈ xs, (f x).isSome) :
    ∃ ys, xs.mapM f = some ys := by
  induction xs with
  | nil => exact ⟨[], rfl⟩
  | cons x xs ih =>
    obtain ⟨y, hy⟩ := Option.isSome_iff_exists.mp (h x List.mem_cons_self)
    obtain ⟨ys, hys⟩ := ih fun z hz => h z (List.mem_cons_of_mem x hz)
    exact ⟨y :: ys, by simp [hy, hys]⟩

/-- Behind a value of the one list stands, at the same place, a related value of the other. -/
theorem exists_of_forall₂ {α β : Type} {R : α → β → Prop} {xs : List α} {ys : List β}
    (h : List.Forall₂ R xs ys) {i : Nat} {y : β} (hy : ys[i]? = some y) : ∃ x, xs[i]? = some x ∧ R x y := by
  induction h generalizing i with
  | nil => cases hy
  | @cons x z xs ys hx _ ih =>
    cases i with
    | zero =>
      cases hy
      exact ⟨x, rfl, hx⟩
    | succ i => exact ih hy

variable {K : Type} {np : Numpy K}

/-- An array holds the numbers of its texts, row by row, in rows of one length. -/
theorem Loading.array_eq_some {rows : List (List Text)} {data : List (List (Flt K))}
    (h : Loading.array np rows = some data) :
    List.Forall₂ (List.Forall₂ fun t v => np.float t = some v) rows data ∧
      ∀ row ∈ data, row.length = (data.headD []).length := by
  unfold Loading.array at h
  simp only [Option.bind_eq_bind, Option.bind_eq_some_iff] at h
  obtain ⟨data', hdata, h⟩ := h
  split_ifs at h with hall
  cases h
  refine ⟨(forall₂_of_mapM hdata).imp fun row values hrow => forall₂_of_mapM hrow, fun row hrow => ?_⟩
  simpa using List.all_eq_true.mp hall row hrow

/-- What a file that loads has been read as: its header and its array are those of the loop over its lines. -/
theorem loadLog_eq_some {content : Text} {log : Log K} (h : loadLog np content = some log) :
    ∃ header data, ((lines content).foldl Loading.line .start).header = some header ∧
      Loading.array np ((lines content).foldl Loading.line .start).rows = some data ∧
      (∀ row ∈ data, header.length ≤ row.length) ∧
      log = .ofData ((lines content).foldl Loading.line .start).metadata
        ((lines content).foldl Loading.line .start).aborted header data := by
  unfold loadLog at h
  simp only [Option.bind_eq_bind, Option.bind_eq_some_iff] at h
  obtain ⟨header, hheader, data, hdata, h⟩ := h
  split_ifs at h with hall
  cases h
  exact ⟨header, data, hheader, hdata, by simpa using hall, rfl⟩

/-- A column of a log holds the values at the place of its name in the header. -/
theorem Log.column_ofData {metadata : Metadata} {aborted : Bool} {header : List Text}
    {data : List (List (Flt K))} {name : Text} {col : List (Flt K)}
    (h : (Log.ofData metadata aborted header data).column name = some col) :
    ∃ i, header[i]? = some name ∧ col = data.map fun row => row.getD i .nan := by
  obtain ⟨before, behind, hsplit, -⟩ := List.lookup_eq_some_iff.mp h
  have hmem : (name, col) ∈ (Log.ofData metadata aborted header data).columns := by
    rw [← List.mem_reverse, hsplit]
    exact List.mem_append_right _ List.mem_cons_self
  obtain ⟨⟨t, i⟩, hi, heq⟩ := List.mem_map.mp hmem
  cases heq
  exact ⟨i, List.mem_zipIdx_iff_getElem?.mp hi, rfl⟩

/-- The numbers of a row are at the places of their texts. -/
theorem getD_of_forall₂ {ts : List Text} {vs : List (Flt K)}
    (h : List.Forall₂ (fun t v => np.float t = some v) ts vs) {i : Nat} {t : Text} (ht : ts[i]? = some t) :
    np.float t = some (vs.getD i .nan) := by
  induction h generalizing i with
  | nil => cases ht
  | @cons u v ts vs hu _ ih =>
    cases i with
    | zero =>
      cases ht
      exact hu
    | succ i => exact ih ht

/-- Rows that convert to lists of one length are an array. -/
theorem Loading.array_of_length {rows : List (List Text)} {data : List (List (Flt K))} {n : Nat}
    (h : (rows.mapM fun row => row.mapM np.float) = some data) (hlen : ∀ row ∈ data, row.length = n) :
    Loading.array np rows = some data := by
  have hall : (data.all fun row => row.length == (data.headD []).length) = true := by
    rw [List.all_eq_true]
    intro row hrow
    cases data with
    | nil => cases hrow
    | cons first data => simp [hlen row hrow, hlen first List.mem_cons_self]
  rw [array, h, Option.bind_eq_bind, Option.bind_some, if_pos hall]

/-- The loader takes the abort mark from the footer. -/
theorem Loading.line_footerLine (st : Loading) (aborted : Bool) :
    st.line (footerLine aborted) = { st with aborted := aborted } := by
  have hhead : (footerLine aborted).head? = some '#' := by cases aborted <;> rfl
  have hcut : cut '=' (strip (footerLine aborted).tail)
      = some ("aborted".toList, if aborted then "1".toList else "0".toList) := by
    cases aborted <;> decide
  unfold line
  rw [if_pos hhead, hcut]
  dsimp only
  rw [if_pos rfl]
  cases aborted <;> rfl

/-! ## The round trip -/

/-- A log shows some rows: it has the columns of the header, and each holds the numbers of its values. -/
structure Shows (np : Numpy K) (rows : List (Text → Option Text)) (log : Log K) : Prop where
  header : log.header = CSV_HEADER
  n : log.n = rows.length
  column : ∀ name ∈ CSV_HEADER, ∃ col, log.column name = some col ∧
    List.Forall₂ (fun cols v => np.float (cell cols name) = some v) rows col

variable {metadata : List (Text × Text)} {rows : List (Text → Option Text)} {closed : Option Bool}
  {w : CsvWriter}

/-- The columns of an array that holds the rows show these rows. -/
theorem shows_ofData {data : List (List (Flt K))} (m : Metadata) (aborted : Bool)
    (h : List.Forall₂ (List.Forall₂ fun t v => np.float t = some v) (rows.map cells) data) :
    Shows np rows (.ofData m aborted CSV_HEADER data) where
  header := rfl
  n := by
    have hlen := h.length_eq
    rw [List.length_map] at hlen
    exact hlen.symm
  column name hname := by
    obtain ⟨col, hcol⟩ := Option.isSome_iff_exists.mp
      (((Log.ofData m aborted CSV_HEADER data).column_isSome_iff name).mpr hname)
    obtain ⟨i, hi, rfl⟩ := Log.column_ofData hcol
    refine ⟨_, hcol, ?_⟩
    rw [List.forall₂_map_left_iff] at h
    rw [List.forall₂_map_right_iff]
    refine h.imp fun cols values hrow => getD_of_forall₂ hrow ?_
    rw [cells, List.getElem?_map, hi]
    rfl

section Written
variable (hentries : ∀ p ∈ metadata, Entry p)
  (hcells : ∀ cols ∈ rows, ∀ name ∈ CSV_HEADER, Cell (cell cols name))
  (hnumbers : ∀ cols ∈ rows, ∀ name ∈ CSV_HEADER, (np.float (cell cols name)).isSome)
  (hrun : CsvWriter.run metadata rows closed = some w)
include hentries hcells hnumbers hrun

/-- What the loader makes of a file: the array of its rows. -/
theorem loadLog_of_run : ∃ data,
    loadLog np w.text
      = some (.ofData (Metadata.add ∅ (versioned metadata)) (closed.getD false) CSV_HEADER data) ∧
      List.Forall₂ (List.Forall₂ fun t v => np.float t = some v) (rows.map cells) data := by
  have hread : (lines w.text).foldl Loading.line .start
      = ⟨Metadata.add ∅ (versioned metadata), closed.getD false, some CSV_HEADER, rows.map cells⟩ := by
    rw [text_eq hrun, lines_unlines (oneLine_allLines hentries hcells), allLines, List.foldl_append,
      foldl_fileLines hentries hcells]
    cases closed with
    | none => rfl
    | some aborted => exact Loading.line_footerLine _ aborted
  obtain ⟨data, hdata⟩ : ∃ data, ((rows.map cells).mapM fun row => row.mapM np.float) = some data := by
    refine exists_mapM fun row hrow => ?_
    obtain ⟨cols, hcols, rfl⟩ := List.mem_map.mp hrow
    obtain ⟨values, hvalues⟩ : ∃ values, (cells cols).mapM np.float = some values := by
      refine exists_mapM fun t ht => ?_
      obtain ⟨name, hname, rfl⟩ := List.mem_map.mp ht
      exact hnumbers cols hcols name hname
    rw [hvalues]
    rfl
  have hnumbered := (forall₂_of_mapM hdata).imp fun row values hrow => forall₂_of_mapM hrow
  have hlen : ∀ row ∈ data, row.length = CSV_HEADER.length := by
    intro row hrow
    obtain ⟨j, hj⟩ := List.mem_iff_getElem?.mp hrow
    obtain ⟨ts, hts, htexts⟩ := exists_of_forall₂ hnumbered hj
    obtain ⟨cols, -, rfl⟩ := List.mem_map.mp (List.mem_of_getElem? hts)
    rw [← htexts.length_eq, cells, List.length_map]
  have hshort : (data.all fun row => CSV_HEADER.length ≤ row.length) = true := by
    simpa using fun row hrow => (hlen row hrow).ge
  refine ⟨data, ?_, hnumbered⟩
  rw [loadLog, hread, Option.bind_eq_bind, Option.bind_some, Option.bind_eq_bind,
    Loading.array_of_length hdata hlen, Option.bind_some, if_pos hshort]

/-- **What a writer has written loads.** A writer that was built with some metadata, wrote some rows and was
closed or left: the loader finds under every key the last value that was written under it, the version included,
and no other key; it finds the rows, and how the run ended. -/
theorem load_of_run : ∃ log,
    loadLog np w.text = some log ∧ (∀ key, log.metadata.lookup key = (versioned metadata).reverse.lookup key) ∧
      log.aborted = closed.getD false ∧ Shows np rows log := by
  obtain ⟨data, hload, hnumbered⟩ := loadLog_of_run hentries hcells hnumbers hrun
  refine ⟨_, hload, fun key => ?_, rfl, shows_ofData _ _ hnumbered⟩
  exact (Metadata.lookup_add ∅ _ key).trans Option.or_none

end Written

/-- A row at one second, whose last value is 15. -/
def oneSecond (name : Text) : Option Text :=
  [("t_us".toList, "1000000".toList), ("sat_shift".toList, "15".toList)].lookup name

/-- The values of the row `oneSecond` fit between commas, and are numbers. -/
theorem cell_oneSecond : ∀ cols ∈ [oneSecond], ∀ name ∈ CSV_HEADER,
    Cell (cell cols name) ∧ (Numpy.plain.float (cell cols name)).isSome := by
  decide

/-- Metadata with a version of their own, which stands behind that of the writer. -/
def restated : List (Text × Text) := [("kind".toList, "SIL".toList), ("schema".toList, "3".toList)]

/-- The entries that state the schema twice are read back from their lines, both values of it. -/
theorem entry_restated : ∀ p ∈ restated, Entry p := by
  simp only [restated, List.forall_mem_cons]
  refine ⟨⟨?_, ?_, ?_, ?_⟩, ⟨?_, ?_, ?_, ?_⟩, fun p hp => absurd hp List.not_mem_nil⟩ <;> decide

/-- The log of a run of one row that was aborted. Its metadata give the version a second time, and that one
stays. -/
theorem load_of_run_oneSecond : ∃ w log,
    CsvWriter.run restated [oneSecond] (some true) = some w ∧ loadLog Numpy.plain w.text = some log ∧
      log.metadata.lookup "schema".toList = some "3".toList ∧
      log.metadata.lookup "kind".toList = some "SIL".toList ∧ log.aborted = true ∧
      Shows Numpy.plain [oneSecond] log := by
  have hruns : (CsvWriter.run restated [oneSecond] (some true)).isSome := by decide
  obtain ⟨w, hrun⟩ := Option.isSome_iff_exists.mp hruns
  have hnumbers : ∀ cols ∈ [oneSecond], ∀ name ∈ CSV_HEADER, (Numpy.plain.float (cell cols name)).isSome :=
    fun cols hcols name hname => (cell_oneSecond cols hcols name hname).2
  obtain ⟨log, hload, hmeta, haborted, hshows⟩ := load_of_run entry_restated
    (fun cols hcols name hname => (cell_oneSecond cols hcols name hname).1) hnumbers hrun
  exact ⟨w, log, hrun, hload, (hmeta _).trans (by decide), (hmeta _).trans (by decide),
    haborted, hshows⟩

end DroneMini
