import Mathlib.Data.List.Basic

/-!
# Text and its lines

A text is a list of characters. `lines` are its lines as a file opened for reading gives them: `\r\n` and a
lone `\r` end a line like `\n` (`universal`), and the line ends are left out. Text written in whole lines is
read line by line (`lines_append`).
-/

namespace DroneMini

/-- A text is a list of characters. -/
abbrev Text := List Char

namespace Text

/-- The white space that `strip` removes from the ends of a text. -/
def isSpace (c : Char) : Bool :=
  let n := c.toNat
  (0x09 ≤ n && n ≤ 0x0D) || (0x1C ≤ n && n ≤ 0x20) || n == 0x85 || n == 0xA0 || n == 0x1680 ||
    (0x2000 ≤ n && n ≤ 0x200A) || n == 0x2028 || n == 0x2029 || n == 0x202F || n == 0x205F || n == 0x3000

/-- The text without the white space at its two ends. -/
def strip (s : Text) : Text := ((s.dropWhile isSpace).reverse.dropWhile isSpace).reverse

/-- The parts before and behind the first `sep`; none if there is no `sep`. -/
def cut (sep : Char) : Text → Option (Text × Text)
  | [] => none
  | c :: s => if c = sep then some ([], s) else (cut sep s).map fun p => (c :: p.1, p.2)

/-- Universal newlines: a carriage return, alone or before a line feed, is read as one line feed. -/
def universal : Text → Text
  | [] => []
  | '\r' :: '\n' :: s => '\n' :: universal s
  | '\r' :: s => '\n' :: universal s
  | c :: s => c :: universal s

/-- The lines of a text. What follows the last newline is a line if it is not empty. -/
def lines (s : Text) : List Text :=
  let ls := (universal s).splitOn '\n'
  if ls.getLast? = some [] then ls.dropLast else ls

/-- A text that is empty or whose last line is ended, so that what is written behind it starts a new line. -/
def Whole (s : Text) : Prop := s = [] ∨ ∃ t, s = t ++ ['\n']

/-- Whole lines written behind whole lines are whole lines. -/
theorem Whole.append {s t : Text} (hs : Whole s) (ht : Whole t) : Whole (s ++ t) := by
  rcases ht with rfl | ⟨u, rfl⟩
  · rwa [List.append_nil]
  · exact .inr ⟨s ++ u, (List.append_assoc _ _ _).symm⟩

/-- Any number of texts of whole lines, written one after the other, are whole lines. -/
theorem Whole.flatten {ts : List Text} (h : ∀ t ∈ ts, Whole t) : Whole ts.flatten := by
  induction ts with
  | nil => exact .inl rfl
  | cons t ts ih =>
      rw [List.flatten_cons]
      exact (h t List.mem_cons_self).append (ih fun u hu => h u (List.mem_cons_of_mem t hu))

/-- Any character but a carriage return is read as it is. -/
theorem universal_cons {c : Char} (hc : c ≠ '\r') (s : Text) : universal (c :: s) = c :: universal s :=
  universal.eq_4 c s (fun _ h _ => hc h) hc

/-- A carriage return that no newline follows is read as one. -/
theorem universal_cr {c : Char} (hc : c ≠ '\n') (s : Text) :
    universal ('\r' :: c :: s) = '\n' :: universal (c :: s) :=
  universal.eq_3 (c :: s) fun _ h => hc (List.cons_eq_cons.mp h).1

/-- What follows a newline is read apart from what stands before it. -/
theorem universal_append (t s : Text) :
    universal (t ++ '\n' :: s) = universal (t ++ ['\n']) ++ universal s := by
  induction t using universal.induct with
  | case1 => rfl
  | case2 t ih => exact congrArg ('\n' :: ·) ih
  | case3 t h ih =>
      -- a carriage return takes the newline with it when it is the last character
      cases t with
      | nil => rfl
      | cons c t =>
          have hc : c ≠ '\n' := fun hc => h t (by rw [hc])
          rw [List.cons_append, List.cons_append, universal_cr hc, List.cons_append, List.cons_append,
            universal_cr hc]
          exact congrArg ('\n' :: ·) ih
  | case4 c t h hc ih =>
      rw [List.cons_append, universal_cons hc, List.cons_append, universal_cons hc, ih,
        List.cons_append]

/-- What is read up to a newline ends with it. -/
theorem universal_ends (t : Text) : ∃ u, universal (t ++ ['\n']) = u ++ ['\n'] := by
  induction t using universal.induct with
  | case1 => exact ⟨[], rfl⟩
  | case2 t ih =>
      obtain ⟨u, hu⟩ := ih
      exact ⟨'\n' :: u, congrArg ('\n' :: ·) hu⟩
  | case3 t h ih =>
      cases t with
      | nil => exact ⟨[], rfl⟩
      | cons c t =>
          have hc : c ≠ '\n' := fun hc => h t (by rw [hc])
          obtain ⟨u, hu⟩ := ih
          refine ⟨'\n' :: u, ?_⟩
          rw [List.cons_append, List.cons_append, universal_cr hc]
          exact congrArg ('\n' :: ·) hu
  | case4 c t h hc ih =>
      obtain ⟨u, hu⟩ := ih
      refine ⟨c :: u, ?_⟩
      rw [List.cons_append, universal_cons hc, hu, List.cons_append]

/-- **Whole lines are read apart from what follows them.** The lines of the two parts together are those of
the first and then those of the second. -/
theorem lines_append {t : Text} (ht : Whole t) (s : Text) : lines (t ++ s) = lines t ++ lines s := by
  rcases ht with rfl | ⟨t, rfl⟩
  · rfl
  obtain ⟨u, hu⟩ := universal_ends t
  have hwhole : lines (t ++ ['\n']) = u.splitOn '\n' := by
    dsimp only [lines]
    rw [hu, List.splitOn_append_cons_self, List.splitOn_nil, List.getLast?_concat, if_pos rfl,
      List.dropLast_concat]
  have hne := List.splitOn_ne_nil '\n' (universal s)
  rw [hwhole]
  dsimp only [lines]
  rw [List.append_assoc, List.singleton_append, universal_append, hu, List.append_assoc,
    List.singleton_append, List.splitOn_append_cons_self, List.getLast?_append_of_ne_nil _ hne,
    List.dropLast_append_of_ne_nil hne]
  split_ifs <;> rfl

/-! ## Lines that are written -/

/-- A text without a character that ends a line. -/
def OneLine (s : Text) : Prop := ∀ c ∈ s, c ≠ '\n' ∧ c ≠ '\r'

-- by the list: the characters are finitely many too
instance : DecidablePred OneLine := List.decidableBAll fun c => c ≠ '\n' ∧ c ≠ '\r'

/-- The text that some lines make when each of them is written with its end. -/
def unlines (ls : List Text) : Text := (ls.map (· ++ ['\n'])).flatten

@[simp] theorem unlines_nil : unlines [] = [] := rfl

@[simp] theorem unlines_cons (l : Text) (ls : List Text) : unlines (l :: ls) = l ++ '\n' :: unlines ls := by
  simp [unlines]

@[simp] theorem unlines_append (ls ms : List Text) : unlines (ls ++ ms) = unlines ls ++ unlines ms := by
  simp [unlines]

/-- Lines that are each written with their end are whole lines. -/
theorem whole_unlines (ls : List Text) : Whole (unlines ls) := by
  refine Whole.flatten fun t ht => ?_
  obtain ⟨l, -, rfl⟩ := List.mem_map.mp ht
  exact .inr ⟨l, rfl⟩

/-- A text without carriage returns is read as it is. -/
theorem universal_eq_self {s : Text} (h : '\r' ∉ s) : universal s = s := by
  induction s with
  | nil => rfl
  | cons c s ih =>
    simp only [List.mem_cons, not_or] at h
    rw [universal_cons (Ne.symm h.1), ih h.2]

/-- What follows the last newline is a line if it is not empty. -/
theorem lines_of_oneLine {s : Text} (h : OneLine s) (hne : s ≠ []) : lines s = [s] := by
  have hread : universal s = s := universal_eq_self fun hmem => (h _ hmem).2 rfl
  have hsplit : s.splitOn '\n' = [s] := List.splitOn_eq_singleton fun hmem => (h _ hmem).1 rfl
  simp [lines, hread, hsplit, hne]

/-- One line that is written with its end is read as this line. -/
theorem lines_concat {s : Text} (h : OneLine s) : lines (s ++ ['\n']) = [s] := by
  have hread : universal (s ++ ['\n']) = s ++ ['\n'] := by
    refine universal_eq_self fun hmem => ?_
    rcases List.mem_append.mp hmem with hmem | hmem
    · exact (h _ hmem).2 rfl
    · simp at hmem
  have hsplit : s.splitOn '\n' = [s] := List.splitOn_eq_singleton fun hmem => (h _ hmem).1 rfl
  simp [lines, hread, List.splitOn_append_cons_self, hsplit]

/-- **Lines that are written are read again.** None of them may hold a character that ends a line. -/
theorem lines_unlines {ls : List Text} (h : ∀ l ∈ ls, OneLine l) : lines (unlines ls) = ls := by
  induction ls with
  | nil => rfl
  | cons l ls ih =>
    have hfirst : Whole (l ++ ['\n']) := .inr ⟨l, rfl⟩
    rw [unlines_cons, List.append_cons, lines_append hfirst, lines_concat (h l List.mem_cons_self),
      ih fun m hm => h m (List.mem_cons_of_mem l hm), List.singleton_append]

/-- What is written up to some character: whole lines, and the start of the line that follows them. -/
theorem take_unlines (n : Nat) (ls : List Text) : ∃ whole torn later, ls = whole ++ later ∧
    (unlines ls).take n = unlines whole ++ torn ∧ torn <+: later.headD [] := by
  induction ls generalizing n with
  | nil => exact ⟨[], [], [], rfl, by simp, List.prefix_rfl⟩
  | cons l ls ih =>
    rcases Nat.lt_or_ge l.length n with hlt | hle
    · obtain ⟨whole, torn, later, hls, htake, htorn⟩ := ih (n - (l.length + 1))
      refine ⟨l :: whole, torn, later, by rw [hls, List.cons_append], ?_, htorn⟩
      have hfit : (l ++ ['\n']).length ≤ n := by
        rw [List.length_append, List.length_singleton]
        exact hlt
      rw [unlines_cons, unlines_cons, List.append_cons, List.take_append, List.take_of_length_le hfit,
        List.length_append, List.length_singleton, htake]
      simp
    · refine ⟨[], l.take n, l :: ls, rfl, ?_, List.take_prefix n l⟩
      rw [unlines_cons, List.take_append_of_le_length hle, unlines_nil, List.nil_append]

/-- Of whole lines and a torn one behind them the whole lines are read, and the torn one when there is
anything of it. -/
theorem lines_torn {whole : List Text} (hwhole : ∀ l ∈ whole, OneLine l) {torn : Text} (htorn : OneLine torn) :
    lines (unlines whole ++ torn) = if torn = [] then whole else whole ++ [torn] := by
  rw [lines_append (whole_unlines whole), lines_unlines hwhole]
  split_ifs with hnil
  · rw [hnil]
    exact List.append_nil whole
  · rw [lines_of_oneLine htorn hnil]

/-- A text that neither begins nor ends with white space is not stripped. -/
theorem strip_of_ends {s : Text} (hhead : ∀ c ∈ s.head?, isSpace c = false)
    (hlast : ∀ c ∈ s.getLast?, isSpace c = false) : strip s = s := by
  have hdrop (t : Text) (ht : ∀ c ∈ t.head?, isSpace c = false) : t.dropWhile isSpace = t := by
    cases t with
    | nil => rfl
    | cons c t => exact List.dropWhile_cons_of_neg (by simp [ht c rfl])
  rw [strip, hdrop s hhead, hdrop s.reverse (by rwa [List.head?_reverse]), List.reverse_reverse]

/-- Stripping leaves a text without white space alone. -/
theorem strip_eq_self {s : Text} (h : ∀ c ∈ s, isSpace c = false) : strip s = s :=
  strip_of_ends (fun c hc => h c (List.mem_of_mem_head? hc)) fun c hc => h c (List.mem_of_getLast? hc)

/-- A space in front of a text is stripped with the rest. -/
theorem strip_space (s : Text) : strip (' ' :: s) = strip s := by
  rw [strip, List.dropWhile_cons_of_pos (by decide)]
  rfl

/-- A text that stripping leaves alone does not end with white space. -/
theorem isSpace_last {s : Text} (h : strip s = s) : ∀ c ∈ s.getLast?, isSpace c = false := by
  intro c hc
  rw [← h, strip, List.getLast?_reverse, Option.mem_def] at hc
  have hstop := List.head?_dropWhile_not isSpace (s.dropWhile isSpace).reverse
  rw [hc] at hstop
  exact hstop

/-- Cutting at the first `sep` gives the parts of the text before and behind it. -/
theorem cut_append {sep : Char} {t : Text} (h : sep ∉ t) (s : Text) : cut sep (t ++ sep :: s) = some (t, s) := by
  induction t with
  | nil => exact if_pos rfl
  | cons c t ih =>
    simp only [List.mem_cons, not_or] at h
    rw [List.cons_append, cut, if_neg (Ne.symm h.1), ih h.2]
    rfl

end Text

end DroneMini
