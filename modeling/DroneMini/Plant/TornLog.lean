import DroneMini.Plant.LogFile
import Mathlib.Data.List.Infix

/-!
# A log that is cut off

A file of which only the first `n` characters were kept. It may not load; if it does, it is a log of the rows
that were kept whole and perhaps of one more, and the only value that can be wrong is the last one of that row:
its text may have been cut short (`torn_of_load`).
-/

namespace DroneMini

open Text

section
variable (metadata : List (Text × Text)) (rows : List (Text → Option Text)) (closed : Option Bool) (n : Nat)

/-- The first `k` rows are kept whole, up to the ends of their lines. -/
def Kept (k : Nat) : Prop := k ≤ rows.length ∧ (CsvWriter.body metadata (rows.take k)).length ≤ n

/-- What the loader can have read: no header; a header and no row; or the header, the rows that were kept whole
and perhaps the start of one more. -/
def ReadOf (st : Loading) : Prop :=
  st.header = none ∨ (st.aborted = true → closed = some true) ∧
    ((∀ k, ¬ Kept metadata rows n k) ∧ st.rows = [] ∨
      st.header = some CSV_HEADER ∧ ∃ j, Kept metadata rows n j ∧ (∀ k, Kept metadata rows n k → k ≤ j) ∧
        (st.rows = (rows.take j).map cells ∨ ∃ cols k t, rows[j]? = some cols ∧ k ≤ 22 ∧
          st.rows = (rows.take j).map cells ++ [(cells cols).take k ++ [t]]))

end

variable {metadata : List (Text × Text)} {rows : List (Text → Option Text)} {closed : Option Bool} {n : Nat}

/-- What is kept is shorter than the whole lines and the line that is torn. -/
theorem lt_of_torn {whole later : List Text} {torn : Text}
    (h : (unlines (whole ++ later)).take n = unlines whole ++ torn) (htorn : torn <+: later.headD [])
    (hmore : later ≠ []) : n < (unlines (whole ++ [later.headD []])).length := by
  cases later with
  | nil => exact absurd rfl hmore
  | cons l later =>
    have hlen := congrArg List.length h
    have hshort := htorn.length_le
    simp only [List.length_take, unlines_append, unlines_cons, List.length_append, List.length_cons,
      List.headD_cons, unlines_nil, List.length_nil] at hlen hshort ⊢
    omega

/-- A file is at least as long as one with fewer lines. -/
theorem length_unlines_le {ls ms : List Text} (h : ls <+: ms) : (unlines ls).length ≤ (unlines ms).length := by
  obtain ⟨later, rfl⟩ := h
  rw [unlines_append, List.length_append]
  exact Nat.le_add_right _ _

/-- A file is at least as long as one with fewer rows. -/
theorem length_body_le {r r' : List (Text → Option Text)} (h : r <+: r') :
    (CsvWriter.body metadata r).length ≤ (CsvWriter.body metadata r').length := by
  rw [body_eq, body_eq]
  refine length_unlines_le ?_
  rw [fileLines, fileLines, List.prefix_append_right_inj, List.cons_prefix_cons]
  exact ⟨rfl, h.map rowLine⟩

/-- A comment changes neither the header nor the rows that the loader holds. -/
theorem Loading.line_comment (st : Loading) {l : Text} (h : l.head? = some '#') :
    (st.line l).header = st.header ∧ (st.line l).rows = st.rows := by
  unfold line
  rw [if_pos h]
  cases cut '=' (strip l.tail) with
  | none => exact ⟨rfl, rfl⟩
  | some p =>
    dsimp only
    split_ifs <;> exact ⟨rfl, rfl⟩

/-- The start of a comment line is a comment, as far as anything of it is left. -/
theorem head_of_torn {c : Char} {l torn : Text} (h : torn <+: c :: l) (hne : torn ≠ []) :
    torn.head? = some c := by
  cases torn with
  | nil => exact absurd rfl hne
  | cons d torn =>
    obtain ⟨rfl, -⟩ := List.cons_prefix_cons.mp h
    rfl

/-- The start of a footer does not say that the run was aborted unless the footer does. -/
theorem abortMark_footer (aborted : Bool) :
    ∀ torn ∈ (footerLine aborted).inits, abortMark torn = some true → aborted = true := by
  cases aborted <;> decide

section Cut
variable (hentries : ∀ p ∈ metadata, Entry p) (hcells : ∀ cols ∈ rows, ∀ name ∈ CSV_HEADER, Cell (cell cols name))
include hentries

/-- A file that is cut off in the metadata or in the header. -/
theorem readOf_metadata {before behind : List (Text × Text)} {rest : List Text} {torn : Text}
    (hsplit : versioned metadata = before ++ behind)
    (hcut : (unlines (before.map metaLine ++ (behind.map metaLine ++ [','].intercalate CSV_HEADER :: rest))).take n
      = unlines (before.map metaLine) ++ torn)
    (htorn : torn <+: (behind.map metaLine ++ [','].intercalate CSV_HEADER :: rest).headD []) :
    ReadOf metadata rows closed n
      ((if torn = [] then before.map metaLine else before.map metaLine ++ [torn]).foldl Loading.line .start) := by
  have hbefore : ∀ p ∈ before, Entry p := fun p hp =>
    entry_versioned hentries p (hsplit ▸ List.mem_append_left behind hp)
  have hstate := foldl_metaLine hbefore .start
  have hnone : ∀ k, ¬ Kept metadata rows n k := by
    intro k hk
    have hlt := lt_of_torn hcut htorn (by simp)
    have hprefix : before.map metaLine ++ [(behind.map metaLine ++ [','].intercalate CSV_HEADER :: rest).headD []]
        <+: fileLines metadata (rows.take k) := by
      rw [fileLines, hsplit, List.map_append, List.append_assoc, List.prefix_append_right_inj]
      cases behind <;> simp
    have hle := length_unlines_le hprefix
    rw [← body_eq] at hle
    exact absurd (hlt.trans_le (hle.trans hk.2)) (lt_irrefl n)
  split_ifs with hnil
  · rw [hstate]
    exact .inl rfl
  rw [List.foldl_append, hstate, List.foldl_cons, List.foldl_nil]
  cases behind with
  | nil =>
    rw [Loading.line_beginning cell_header (by simp [CSV_HEADER]) _ htorn hnil]
    exact .inr ⟨fun h => absurd h (by simp [Loading.start]), .inl ⟨hnone, rfl⟩⟩
  | cons q behind =>
    exact .inl (Loading.line_comment _ (head_of_torn htorn hnil)).1

include hcells

/-- What is read of a file that is cut off behind the header: the rows before the cut, and perhaps a torn
one. -/
theorem readOf_rows {before behind : List (Text → Option Text)} {torn : Text} (hsplit : rows = before ++ behind)
    (hcut : (unlines (fileLines metadata before ++ (behind.map rowLine ++ (closed.map footerLine).toList))).take n
      = unlines (fileLines metadata before) ++ torn)
    (htorn : torn <+: (behind.map rowLine ++ (closed.map footerLine).toList).headD []) :
    ReadOf metadata rows closed n
      ((if torn = [] then fileLines metadata before else fileLines metadata before ++ [torn]).foldl
        Loading.line .start) := by
  have hbefore : ∀ cols ∈ before, ∀ name ∈ CSV_HEADER, Cell (cell cols name) := fun cols hcols =>
    hcells cols (hsplit ▸ List.mem_append_left behind hcols)
  have hstate := foldl_fileLines hentries hbefore
  have htake : rows.take before.length = before := by rw [hsplit, List.take_left]
  have hkept : Kept metadata rows n before.length := by
    refine ⟨by simp [hsplit], ?_⟩
    have hlen := congrArg List.length hcut
    rw [List.length_take, List.length_append] at hlen
    rw [htake, body_eq]
    omega
  have hlast : ∀ k, Kept metadata rows n k → k ≤ before.length := by
    intro k hk
    cases behind with
    | nil => simpa [hsplit] using hk.1
    | cons cols behind =>
      by_contra hlt
      have hlt' := lt_of_torn hcut htorn (by simp)
      have hone : fileLines metadata before ++ [rowLine cols] = fileLines metadata (before ++ [cols]) := by
        simp [fileLines]
      have hprefix : before ++ [cols] <+: rows.take k := by
        rw [hsplit, List.take_append, List.take_of_length_le (by omega), List.prefix_append_right_inj]
        cases hk' : k - before.length with
        | zero => omega
        | succ m => simp
      have hle : (CsvWriter.body metadata (before ++ [cols])).length
          ≤ (CsvWriter.body metadata (rows.take k)).length := length_body_le hprefix
      simp only [List.map_cons, List.cons_append, List.headD_cons, hone] at hlt'
      rw [← body_eq] at hlt'
      exact absurd (hlt'.trans_le (hle.trans hk.2)) (lt_irrefl n)
  split_ifs with hnil
  · rw [hstate]
    exact .inr ⟨fun h => absurd h (by simp), .inr ⟨rfl, before.length, hkept, hlast, .inl (by rw [htake])⟩⟩
  rw [List.foldl_append, hstate, List.foldl_cons, List.foldl_nil]
  cases behind with
  | nil =>
    cases closed with
    | none => exact absurd (List.prefix_nil.mp htorn) hnil
    | some aborted =>
      have hhead : torn.head? = some '#' := head_of_torn htorn hnil
      obtain ⟨hheader, hrows⟩ := Loading.line_comment
        ⟨Metadata.add ∅ (versioned metadata), false, some CSV_HEADER, before.map cells⟩ hhead
      refine .inr ⟨fun h => ?_, .inr ⟨hheader, before.length, hkept, hlast, .inl (by rw [hrows, htake])⟩⟩
      rw [Loading.aborted_line] at h
      cases hmark : abortMark torn with
      | none => simp [hmark] at h
      | some b =>
        rw [hmark] at h
        obtain rfl : b = true := h
        rw [abortMark_footer aborted torn ((List.mem_inits torn _).mpr htorn) hmark]
  | cons cols behind =>
    have hcols : ∀ t ∈ cells cols, Cell t := cell_cells hcells (hsplit ▸ by simp)
    have hwhere : rows[before.length]? = some cols := by simp [hsplit]
    obtain ⟨k, t, hparts, hk⟩ := splitOn_prefix (fun u hu hmem => ((hcols u hu).2 _ hmem).2.1 rfl) htorn
    rw [Loading.line_beginning hcols (by simp [cells, CSV_HEADER]) _ htorn hnil]
    refine .inr ⟨fun h => absurd h (by simp), .inr ⟨rfl, before.length, hkept, hlast, .inr ?_⟩⟩
    exact ⟨cols, k, t, hwhere, hk, by rw [← hparts, htake]⟩

/-- What is read of a closed file of which nothing is cut off: all rows, and its abort mark. -/
theorem readOf_all {aborted : Bool} {torn : Text}
    (hcut : (unlines (fileLines metadata rows ++ [footerLine aborted])).take n
      = unlines (fileLines metadata rows ++ [footerLine aborted]) ++ torn) (htorn : torn = []) :
    ReadOf metadata rows (some aborted) n
      ((if torn = [] then fileLines metadata rows ++ [footerLine aborted]
        else fileLines metadata rows ++ [footerLine aborted] ++ [torn]).foldl Loading.line .start) := by
  have hkept : Kept metadata rows n rows.length := by
    have hlen := congrArg List.length hcut
    rw [List.length_take, List.length_append, unlines_append, List.length_append] at hlen
    refine ⟨le_rfl, ?_⟩
    rw [List.take_length, body_eq]
    omega
  rw [if_pos htorn, List.foldl_append, foldl_fileLines hentries hcells, List.foldl_cons, List.foldl_nil,
    Loading.line_footerLine]
  refine .inr ⟨congrArg some, .inr ⟨rfl, rows.length, hkept, fun k hk => hk.1, .inl ?_⟩⟩
  rw [List.take_length]

/-- **What the loader reads of a file that is cut off.** -/
theorem readOf_take {w : CsvWriter} (hrun : CsvWriter.run metadata rows closed = some w) :
    ReadOf metadata rows closed n ((lines (w.text.take n)).foldl Loading.line .start) := by
  have hall : ∀ l ∈ allLines metadata rows closed, OneLine l := oneLine_allLines hentries hcells
  obtain ⟨whole, torn, later, hls, hcut, htorn⟩ := take_unlines n (allLines metadata rows closed)
  have hwhole : ∀ l ∈ whole, OneLine l := fun l hl => hall l (hls ▸ List.mem_append_left later hl)
  have honeLine : OneLine torn := by
    cases later with
    | nil =>
      rw [List.prefix_nil.mp htorn]
      exact fun c hc => absurd hc List.not_mem_nil
    | cons l later => exact fun c hc => hall l (hls ▸ by simp) c (htorn.subset hc)
  rw [text_eq hrun, hcut, lines_torn hwhole honeLine]
  rw [hls] at hcut
  have hlines : allLines metadata rows closed = (versioned metadata).map metaLine ++
      ([','].intercalate CSV_HEADER :: (rows.map rowLine ++ (closed.map footerLine).toList)) := by
    simp [allLines, fileLines]
  rw [hlines] at hls
  rcases List.append_eq_append_iff.mp hls.symm with ⟨gone, hmeta, rfl⟩ | ⟨more, rfl, hmore⟩
  · obtain ⟨before, behind, hsplit, rfl, rfl⟩ := List.map_eq_append_iff.mp hmeta
    exact readOf_metadata hentries hsplit hcut htorn
  cases more with
  | nil =>
    obtain rfl := hmore
    rw [List.append_nil] at hcut ⊢
    exact readOf_metadata hentries (List.append_nil _).symm hcut htorn
  | cons l more =>
    obtain ⟨rfl, hrest⟩ := List.cons_eq_cons.mp hmore
    rcases List.append_eq_append_iff.mp hrest with ⟨last, rfl, hlast⟩ | ⟨gone, hrows, rfl⟩
    · cases last with
      | nil =>
        obtain rfl := hlast
        rw [List.append_nil] at hcut ⊢
        exact readOf_rows hentries hcells (List.append_nil rows).symm hcut htorn
      | cons f last =>
        cases closed with
        | none => cases hlast
        | some aborted =>
          obtain ⟨rfl, hend⟩ := List.cons_eq_cons.mp hlast
          obtain ⟨rfl, rfl⟩ := List.append_eq_nil_iff.mp hend.symm
          have hfile : (versioned metadata).map metaLine ++
              [','].intercalate CSV_HEADER :: (rows.map rowLine ++ [footerLine aborted])
              = fileLines metadata rows ++ [footerLine aborted] := by simp [fileLines]
          rw [List.append_nil, hfile] at hcut
          rw [hfile]
          exact readOf_all hentries hcells hcut (List.prefix_nil.mp htorn)
    · obtain ⟨before, behind, rfl, rfl, rfl⟩ := List.map_eq_append_iff.mp hrows
      exact readOf_rows hentries hcells rfl hcut htorn

end Cut

/-! ## What loads -/

variable {K : Type} {np : Numpy K}

/-- A log of a file that is cut off. No row that was kept whole is lost, at most one other row is there, and
every value is the one that was written, but for the last of a row that was not kept whole. A log that says
that its run was aborted was closed so. -/
structure Torn (np : Numpy K) (metadata : List (Text × Text)) (rows : List (Text → Option Text))
    (closed : Option Bool) (n : Nat) (log : Log K) : Prop where
  kept : ∀ k, Kept metadata rows n k → k ≤ log.n
  rest : 0 < log.n → Kept metadata rows n (log.n - 1)
  value : ∀ name col i v, log.column name = some col → col[i]? = some v → ∃ cols, rows[i]? = some cols ∧
    name ∈ CSV_HEADER ∧
      (name ≠ "sat_shift".toList ∨ Kept metadata rows n (i + 1) → np.float (cell cols name) = some v)
  flag : log.aborted = true → closed = some true

/-- Where a column of a log is, and what stands behind its values. -/
theorem value_ofData {parts : List (List Text)} {data : List (List (Flt K))} {m : Metadata}
    {aborted : Bool} {header : List Text}
    (hparts : List.Forall₂ (List.Forall₂ fun t v => np.float t = some v) parts data)
    (hlong : ∀ row ∈ data, header.length ≤ row.length) {name : Text} {col : List (Flt K)} {i : Nat} {v : Flt K}
    (hcol : (Log.ofData m aborted header data).column name = some col) (hv : col[i]? = some v) :
    ∃ (place : Nat) (ts : List Text) (t : Text), header[place]? = some name ∧ parts[i]? = some ts ∧
      header.length ≤ ts.length ∧ ts[place]? = some t ∧ np.float t = some v := by
  obtain ⟨place, hplace, rfl⟩ := Log.column_ofData hcol
  rw [List.getElem?_map, Option.map_eq_some_iff] at hv
  obtain ⟨row, hrow, rfl⟩ := hv
  obtain ⟨ts, hts, hnumbers⟩ := exists_of_forall₂ hparts hrow
  have hall : header.length ≤ ts.length := (hlong row (List.mem_of_getElem? hrow)).trans hnumbers.length_eq.ge
  have hlt : place < ts.length := (List.getElem?_eq_some_iff.mp hplace).1.trans_le hall
  exact ⟨place, ts, ts[place], hplace, hts, hall, List.getElem?_eq_getElem hlt,
    getD_of_forall₂ hnumbers (List.getElem?_eq_getElem hlt)⟩

/-- Where the value of a column is in a row. -/
theorem cells_getElem? (cols : Text → Option Text) {place : Nat} {name : Text}
    (h : CSV_HEADER[place]? = some name) : (cells cols)[place]? = some (cell cols name) := by
  rw [cells, List.getElem?_map, h]
  rfl

/-- The rows that were kept whole are a matter of how much was kept. -/
theorem Kept.mono {k k' : Nat} (h : Kept metadata rows n k') (hle : k ≤ k') : Kept metadata rows n k :=
  ⟨hle.trans h.1, (length_body_le (List.take_prefix_take_left hle)).trans h.2⟩

/-- **A file that is cut off loads as a log of its rows, or not at all.** -/
theorem torn_of_load (hentries : ∀ p ∈ metadata, Entry p)
    (hcells : ∀ cols ∈ rows, ∀ name ∈ CSV_HEADER, Cell (cell cols name)) {w : CsvWriter}
    (hrun : CsvWriter.run metadata rows closed = some w) {log : Log K}
    (hload : loadLog np (w.text.take n) = some log) : Torn np metadata rows closed n log := by
  obtain ⟨header, data, hheader, harray, hlong, rfl⟩ := loadLog_eq_some hload
  obtain ⟨hparts, -⟩ := Loading.array_eq_some harray
  have hread := readOf_take (n := n) hentries hcells hrun
  generalize (lines (w.text.take n)).foldl Loading.line .start = st at hheader hparts hread
  rcases hread with hnone | ⟨hflag, ⟨hnone, hrows⟩ | ⟨hhead, j, hj, hlast, hrows⟩⟩
  · rw [hnone] at hheader
    cases hheader
  · -- cut off in the header: there is no value
    rw [hrows] at hparts
    refine ⟨fun k hk => absurd hk (hnone k), fun hpos => ?_, fun name col i v hcol hv => ?_, hflag⟩
    · have hlen : 0 = data.length := hparts.length_eq
      exact absurd hpos (not_lt.mpr hlen.ge)
    · obtain ⟨place, ts, t, -, hts, -⟩ := value_ofData hparts hlong hcol hv
      cases hts
  rw [hhead, Option.some.injEq] at hheader
  obtain rfl := hheader
  have hfirst {i : Nat} (hi : i < j) : st.rows[i]? = rows[i]?.map cells := by
    have hmapped : ((rows.take j).map cells)[i]? = rows[i]?.map cells := by
      rw [List.getElem?_map, List.getElem?_take_of_lt hi]
    have hlt : i < ((rows.take j).map cells).length := by
      rw [List.length_map, List.length_take]
      exact lt_min hi (hi.trans_le hj.1)
    rcases hrows with hrows | ⟨cols, k, t, -, -, hrows⟩
    · rw [hrows, hmapped]
    · rw [hrows, List.getElem?_append_left hlt, hmapped]
  have hvalue {name : Text} {i place : Nat} {ts : List Text} {t : Text} {v : Flt K} (hi : i < j)
      (hplace : CSV_HEADER[place]? = some name) (hts : st.rows[i]? = some ts) (ht : ts[place]? = some t)
      (hv : np.float t = some v) : ∃ cols, rows[i]? = some cols ∧ name ∈ CSV_HEADER ∧
        (name ≠ "sat_shift".toList ∨ Kept metadata rows n (i + 1) → np.float (cell cols name) = some v) := by
    rw [hfirst hi, Option.map_eq_some_iff] at hts
    obtain ⟨cols, hcols, rfl⟩ := hts
    rw [cells_getElem? cols hplace, Option.some.injEq] at ht
    exact ⟨cols, hcols, List.mem_of_getElem? hplace, fun _ => ht ▸ hv⟩
  have hn : st.rows.length = data.length := hparts.length_eq
  rcases hrows with hrows | ⟨cols, k, u, hcols, hk, hrows⟩
  · have hlen : data.length = j := by
      rw [← hn, hrows, List.length_map, List.length_take, Nat.min_eq_left hj.1]
    refine ⟨fun k hk => (hlast k hk).trans hlen.ge, fun _ => hj.mono ?_, fun name col i v hcol hv => ?_, hflag⟩
    · exact (Nat.sub_le _ _).trans hlen.le
    · obtain ⟨place, ts, t, hplace, hts, hall, ht, hnumber⟩ := value_ofData hparts hlong hcol hv
      have hi : i < j := hlen ▸ hn ▸ (List.getElem?_eq_some_iff.mp hts).1
      exact hvalue hi hplace hts ht hnumber
  · have hlen : data.length = j + 1 := by
      rw [← hn, hrows, List.length_append, List.length_map, List.length_take, Nat.min_eq_left hj.1,
        List.length_singleton]
    refine ⟨fun k hk => (hlast k hk).trans ((Nat.le_succ j).trans hlen.ge), fun _ => hj.mono ?_,
      fun name col i v hcol hv => ?_, hflag⟩
    · exact (Nat.sub_le_of_le_add hlen.le)
    · obtain ⟨place, ts, t, hplace, hts, hall, ht, hnumber⟩ := value_ofData hparts hlong hcol hv
      have hi : i < j + 1 := hlen ▸ hn ▸ (List.getElem?_eq_some_iff.mp hts).1
      rcases Nat.lt_succ_iff_lt_or_eq.mp hi with hi | rfl
      · exact hvalue hi hplace hts ht hnumber
      · -- the row that is torn has all its values, and only the last can be cut short
        have hts : ts = (cells cols).take k ++ [u] := by
          rw [hrows, List.getElem?_append_right (by simp [hj.1]), List.length_map, List.length_take,
            Nat.min_eq_left hj.1, Nat.sub_self] at hts
          exact (Option.some.inj hts).symm
        have hwidth : (cells cols).length = CSV_HEADER.length := List.length_map _
        have hk : k = 22 := by
          rw [hts, List.length_append, List.length_take, hwidth] at hall
          simp only [CSV_HEADER, List.length_map, List.length_cons, List.length_nil] at hall
          omega
        refine ⟨cols, hcols, List.mem_of_getElem? hplace, fun hright => ?_⟩
        rcases hright with hname | hright
        · have hlt : place < 22 := by
            have hplace' := (List.getElem?_eq_some_iff.mp hplace).1
            simp only [CSV_HEADER, List.length_map, List.length_cons, List.length_nil] at hplace'
            by_contra hge
            obtain rfl : place = 22 := by omega
            exact hname (Option.some.inj hplace).symm
          have hsame : ts[place]? = some (cell cols name) := by
            rw [hts, hk, List.getElem?_append_left, List.getElem?_take_of_lt hlt, cells_getElem? cols hplace]
            rw [List.length_take, hwidth]
            exact lt_min hlt (List.getElem?_eq_some_iff.mp hplace).1
          rw [hsame, Option.some.injEq] at ht
          rw [ht]
          exact hnumber
        · exact absurd (hlast _ hright) (Nat.not_succ_le_self _)

/-- The values of both rows of this file fit between commas. -/
theorem cell_twoSeconds : ∀ cols ∈ [oneSecond, oneSecond], ∀ name ∈ CSV_HEADER, Cell (cell cols name) := by
  intro cols hcols
  obtain rfl : cols = oneSecond := by simpa using hcols
  exact fun name hname => (cell_oneSecond oneSecond List.mem_cons_self name hname).1

/-- A file of two rows that is cut off in its last value loads with both rows; the second ends in the number that
is left of its last value, 1 where 15 was written. -/
theorem torn_of_load_twoSeconds : ∃ w log,
    CsvWriter.run restated [oneSecond, oneSecond] none = some w ∧
      loadLog Numpy.plain (w.text.take 302) = some log ∧
      log.column "sat_shift".toList = some [.fin 15, .fin 1] ∧
      Torn Numpy.plain restated [oneSecond, oneSecond] none 302 log := by
  have hloads : ((CsvWriter.run restated [oneSecond, oneSecond] none).bind fun w =>
      loadLog Numpy.plain (w.text.take 302)).map (fun log => log.column "sat_shift".toList) =
        some (some [.fin 15, .fin 1]) := by decide +kernel
  obtain ⟨log, hlog, hcolumn⟩ := Option.map_eq_some_iff.mp hloads
  obtain ⟨w, hrun, hload⟩ := Option.bind_eq_some_iff.mp hlog
  exact ⟨w, log, hrun, hload, hcolumn, torn_of_load entry_restated cell_twoSeconds hrun hload⟩

end DroneMini
