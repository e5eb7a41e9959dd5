import SeriesPivot.CommandLine.Table
import SeriesPivot.Proofs.Store.Batches
import Mathlib.Data.List.Forall2

/-!
# Tables are aligned

The width of a column is counted in bytes, and the blanks that fill up a cell are counted in characters. No
text has more characters than bytes, so every cell fits into its column, and all lines of a table have one
layout.

* `width_le_iff`: the width of a column is the least one that its name and its cells fit into, in bytes.
* `columnStart` and `tableWidth` are the layout that widths make.
* `LaidOut`: a line has this layout and shows these cells.
* `laidOut_tableLine`: cells that fit into their columns make such a line.
* `documentTable_aligned`: the header and the lines of all documents have one layout, and the dashes are as
  many as these have characters.
-/

namespace SeriesPivot

/-- A character takes at least one byte. -/
theorem length_le_utf8ByteSize (s : String) : s.length ≤ s.utf8ByteSize := by
  have hlist : ∀ cs : List Char, cs.length ≤ (String.ofList cs).utf8ByteSize := by
    intro cs
    induction cs with
    | nil => simp
    | cons c cs ih =>
      have hc := c.utf8Size_pos
      rw [String.ofList_cons, String.utf8ByteSize_append, String.utf8ByteSize_singleton, List.length_cons]
      omega
  have hs := hlist s.toList
  rwa [String.length_toList, String.ofList_toList] at hs

namespace Text

theorem toList_padEnd (width : ℕ) (s : String) :
    (padEnd width s).toList = s.toList ++ List.replicate (width - s.length) ' ' := by
  simp [padEnd]

theorem length_padEnd {width : ℕ} {s : String} (h : s.length ≤ width) :
    (padEnd width s).length = width := by
  rw [← String.length_toList, toList_padEnd, List.length_append, List.length_replicate,
    String.length_toList]
  omega

end Text

namespace CommandLine

/-! ### Widths -/

theorem foldl_max_le_iff {l : List ℕ} {a n : ℕ} : l.foldl max a ≤ n ↔ a ≤ n ∧ ∀ b ∈ l, b ≤ n := by
  induction l generalizing a with
  | nil => simp
  | cons b l ih =>
    rw [List.foldl_cons, ih, max_le_iff, List.forall_mem_cons, and_assoc]

/-- The width of a column is the least one that its name and its cells fit into, in bytes. -/
theorem width_le_iff {documents : List Row} {column : String} {n : ℕ} :
    width documents column ≤ n ↔
      column.utf8ByteSize ≤ n ∧ ∀ d ∈ documents, (cell d column).utf8ByteSize ≤ n := by
  rw [width, foldl_max_le_iff, List.forall_mem_map]

/-- A name fits into its column. -/
theorem length_le_width (documents : List Row) (column : String) :
    column.length ≤ width documents column :=
  (length_le_utf8ByteSize column).trans (width_le_iff.1 (le_refl (width documents column))).1

/-- So does each cell below it. -/
theorem length_cell_le_width {documents : List Row} {d : Row} (hd : d ∈ documents) (column : String) :
    (cell d column).length ≤ width documents column :=
  (length_le_utf8ByteSize (cell d column)).trans
    ((width_le_iff.1 (le_refl (width documents column))).2 d hd)

/-! ### Lines of a table -/

/-- Where a column starts: behind the columns before it, each with a gap of two blanks. -/
def columnStart (widths : List ℕ) (j : ℕ) : ℕ :=
  (widths.take j).sum + 2 * j

/-- How many characters a line has: those of all columns and the gaps between them. -/
def tableWidth (widths : List ℕ) : ℕ :=
  widths.sum + 2 * (widths.length - 1)

/-- A line shows each cell from where its column starts, and blanks fill up the column. -/
structure LaidOut (widths : List ℕ) (cells : List String) (line : String) : Prop where
  length : line.length = tableWidth widths
  shows : ∀ j width text, widths[j]? = some width → cells[j]? = some text → text.length ≤ width ∧
    (line.toList.drop (columnStart widths j)).take width =
      text.toList ++ List.replicate (width - text.length) ' '

theorem columnStart_succ (width : ℕ) (widths : List ℕ) (j : ℕ) :
    columnStart (width :: widths) (j + 1) = width + 2 + columnStart widths j := by
  simp [columnStart]
  omega

/-- What follows the first cell of a line: nothing, or a gap and the line of the others. -/
theorem tableLine_cons (c : String × ℕ) (cells : List (String × ℕ)) :
    tableLine (c :: cells) =
      Text.padEnd c.2 c.1 ++ if cells = [] then "" else "  " ++ tableLine cells := by
  cases cells with
  | nil => simp [tableLine]
  | cons d cells => simp [tableLine, String.append_assoc]

theorem length_tableLine {cells : List (String × ℕ)} (h : ∀ c ∈ cells, c.1.length ≤ c.2) :
    (tableLine cells).length = tableWidth (cells.map Prod.snd) := by
  induction cells with
  | nil => rfl
  | cons c cells ih =>
    obtain ⟨hc, hcells⟩ := List.forall_mem_cons.1 h
    have hgap : "  ".length = 2 := rfl
    rw [tableLine_cons, String.length_append, Text.length_padEnd hc]
    cases cells with
    | nil => simp [tableWidth]
    | cons d cells =>
      rw [if_neg (List.cons_ne_nil d cells), String.length_append, hgap, ih hcells]
      simp [tableWidth]
      omega

/-- Each cell of a line is where its column starts. -/
theorem take_drop_tableLine {cells : List (String × ℕ)} (h : ∀ c ∈ cells, c.1.length ≤ c.2) {j : ℕ}
    {c : String × ℕ} (hj : cells[j]? = some c) :
    ((tableLine cells).toList.drop (columnStart (cells.map Prod.snd) j)).take c.2 =
      (Text.padEnd c.2 c.1).toList := by
  induction cells generalizing j with
  | nil => cases hj
  | cons first cells ih =>
    obtain ⟨hfirst, hcells⟩ := List.forall_mem_cons.1 h
    have hlength := Text.length_padEnd hfirst
    rw [← String.length_toList] at hlength
    cases j with
    | zero =>
      obtain rfl := Option.some.inj hj
      rw [tableLine_cons, String.toList_append]
      exact List.take_left' hlength
    | succ j =>
      have hne : cells ≠ [] := by
        rintro rfl
        cases hj
      have hbefore : ((Text.padEnd first.2 first.1).toList ++ "  ".toList).length = first.2 + 2 := by
        rw [List.length_append, hlength]
        rfl
      rw [tableLine_cons, if_neg hne, String.toList_append, String.toList_append, ← List.append_assoc,
        List.map_cons, columnStart_succ, ← hbefore, List.drop_length_add_append]
      exact ih hcells hj

/-- Cells that fit into their columns make a line with the layout of the columns. -/
theorem laidOut_tableLine {cells : List (String × ℕ)} (h : ∀ c ∈ cells, c.1.length ≤ c.2) :
    LaidOut (cells.map Prod.snd) (cells.map Prod.fst) (tableLine cells) := by
  refine ⟨length_tableLine h, fun j width text hwidth htext => ?_⟩
  rw [List.getElem?_map, Option.map_eq_some_iff] at hwidth htext
  obtain ⟨c, hc, rfl⟩ := hwidth
  obtain ⟨c', hc', rfl⟩ := htext
  obtain rfl := Option.some.inj (hc.symm.trans hc')
  exact ⟨h c (List.mem_of_getElem? hc), by rw [take_drop_tableLine h hc, Text.toList_padEnd]⟩

/-- So do texts that fit, one in each column. -/
theorem laidOut_map {columns : List String} {text : String → String} {size : String → ℕ}
    (h : ∀ c ∈ columns, (text c).length ≤ size c) :
    LaidOut (columns.map size) (columns.map text) (tableLine (columns.map fun c => (text c, size c))) := by
  have hfits : ∀ cell ∈ columns.map fun c => (text c, size c), cell.1.length ≤ cell.2 :=
    List.forall_mem_map.2 h
  have hline := laidOut_tableLine hfits
  rwa [List.map_map, List.map_map] at hline

theorem newline_not_mem_tableLine {cells : List (String × ℕ)} (h : ∀ c ∈ cells, '\n' ∉ c.1.toList) :
    '\n' ∉ (tableLine cells).toList := by
  induction cells with
  | nil => simp [tableLine]
  | cons c cells ih =>
    obtain ⟨hc, hcells⟩ := List.forall_mem_cons.1 h
    rw [tableLine_cons, String.toList_append, Text.toList_padEnd]
    split_ifs
    · simp [hc]
    · simp [hc, ih hcells]

/-! ### Tables -/

/-- Lines without newlines are the lines of the text that is printed, and an empty one is behind them. -/
theorem lines_lines {ls : List String} (h : ∀ l ∈ ls, '\n' ∉ l.toList) :
    SeriesPivot.lines (lines ls) = ls ++ [""] := by
  induction ls with
  | nil => rfl
  | cons l ls ih =>
    obtain ⟨hl, hls⟩ := List.forall_mem_cons.1 h
    have hcons : lines (l :: ls) = l ++ "\n" ++ lines ls := by
      rw [← String.toList_inj]
      simp [lines]
    rw [hcons, lines_append_newline, lines_of_not_mem hl, ih hls]
    rfl

/-- The lines of a table of at least one document. -/
theorem documentTable_eq (columns : List String) {documents : List Row} (h : documents ≠ []) :
    documentTable columns documents =
      lines (tableLine (columns.map fun c => (c, width documents c)) ::
        dashes (tableWidth (columns.map (width documents))) ::
        documents.map (fun d => tableLine (columns.map fun c => (cell d c, width documents c))) ++
        ["", toString documents.length ++ " rows"]) := by
  have hwidth : (columns.map fun c => (c, width documents c)).foldl (fun n c => n + c.2) 0 +
      2 * ((columns.map fun c => (c, width documents c)).length - 1) =
        tableWidth (columns.map (width documents)) := by
    rw [tableWidth, List.sum_eq_foldl, List.foldl_map, List.foldl_map, List.length_map, List.length_map]
  rw [documentTable, if_neg (by simpa using h), ← hwidth]
  simp only [List.map_map]
  rfl

/-- If no name and no cell has a newline, then the lines of a table are the lines of the text. -/
theorem lines_documentTable {columns : List String} {documents : List Row} (h : documents ≠ [])
    (hnewline : ∀ column ∈ columns,
      '\n' ∉ column.toList ∧ ∀ d ∈ documents, '\n' ∉ (cell d column).toList) :
    SeriesPivot.lines (documentTable columns documents) =
      tableLine (columns.map fun c => (c, width documents c)) ::
        dashes (tableWidth (columns.map (width documents))) ::
        documents.map (fun d => tableLine (columns.map fun c => (cell d c, width documents c))) ++
        ["", toString documents.length ++ " rows", ""] := by
  have hheader : '\n' ∉ (tableLine (columns.map fun c => (c, width documents c))).toList :=
    newline_not_mem_tableLine (List.forall_mem_map.2 fun c hc => (hnewline c hc).1)
  have hrows : ∀ d ∈ documents,
      '\n' ∉ (tableLine (columns.map fun c => (cell d c, width documents c))).toList := fun d hd =>
    newline_not_mem_tableLine (List.forall_mem_map.2 fun c hc => (hnewline c hc).2 d hd)
  have hcount : '\n' ∉ (toString documents.length).toList := fun hmem =>
    absurd (Decimal.isDigit_of_mem_toString hmem) (by decide)
  rw [documentTable_eq columns h, lines_lines]
  · simp
  · rw [List.forall_mem_append, List.forall_mem_cons, List.forall_mem_cons, List.forall_mem_map]
    exact ⟨⟨hheader, by simp [dashes], hrows⟩, by simpa using hcount⟩

/-- In a table of at least one document, the header and the lines of all documents have one layout: as many
characters, and each cell from where its column starts. The dashes below the header are as many. If no name
and no cell has a newline, then these are the lines of the table as it is printed. -/
theorem documentTable_aligned (columns : List String) {documents : List Row} (h : documents ≠ []) :
    let widths := columns.map (width documents)
    ∃ header rule rows,
      documentTable columns documents =
        lines (header :: rule :: rows ++ ["", toString documents.length ++ " rows"]) ∧
      LaidOut widths columns header ∧
      rule.length = tableWidth widths ∧ (∀ c ∈ rule.toList, c = '-') ∧
      List.Forall₂ (fun d row => LaidOut widths (columns.map (cell d)) row) documents rows ∧
      ((∀ column ∈ columns, '\n' ∉ column.toList ∧ ∀ d ∈ documents, '\n' ∉ (cell d column).toList) →
        SeriesPivot.lines (documentTable columns documents) =
          header :: rule :: rows ++ ["", toString documents.length ++ " rows", ""]) := by
  intro widths
  refine ⟨_, _, _, documentTable_eq columns h, ?_, ?_, ?_, ?_, lines_documentTable h⟩
  · have hheader := laidOut_map fun c (_ : c ∈ columns) => length_le_width documents c
    rwa [List.map_id'] at hheader
  · rw [dashes, String.length_ofList, List.length_replicate]
  · simp [dashes]
  · rw [List.forall₂_map_right_iff, List.forall₂_same]
    exact fun d hd => laidOut_map fun c _ => length_cell_le_width hd c

/-- Documents with cells of one, two and three bytes a character, one of them without a number. -/
def accented : List Row :=
  [[("n", .ofInt 10), ("naïve", .string "é")], [("naïve", .string "€€€")]]

theorem documentTable_aligned_accented :
    accented ≠ [] ∧ ["naïve", "n"].map (width accented) = [9, 2] ∧
    ∃ header rule rows,
      documentTable ["naïve", "n"] accented = lines (header :: rule :: rows ++ ["", "2 rows"]) ∧
      LaidOut [9, 2] ["naïve", "n"] header ∧
      rule.length = tableWidth [9, 2] ∧ (∀ c ∈ rule.toList, c = '-') ∧
      List.Forall₂ (fun d row => LaidOut [9, 2] (["naïve", "n"].map (cell d)) row) accented rows ∧
      SeriesPivot.lines (documentTable ["naïve", "n"] accented) =
        header :: rule :: rows ++ ["", "2 rows", ""] := by
  have hne : accented ≠ [] := by decide
  have hwidths : ["naïve", "n"].map (width accented) = [9, 2] := by decide +kernel
  have haligned := documentTable_aligned ["naïve", "n"] hne
  rw [hwidths] at haligned
  obtain ⟨header, rule, rows, htable, hheader, hlength, hdashes, hrows, hlines⟩ := haligned
  exact ⟨hne, hwidths, header, rule, rows, htable, hheader, hlength, hdashes, hrows,
    hlines (by decide +kernel)⟩

example : documentTable ["naïve", "n"] accented =
    "naïve      n \n-------------\né          10\n€€€        - \n\n2 rows\n" := by
  decide +kernel

end CommandLine

end SeriesPivot
