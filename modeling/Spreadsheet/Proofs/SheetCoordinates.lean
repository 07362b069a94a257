import Spreadsheet.Proofs.CompiledSheets
import Spreadsheet.Proofs.CsvTables
import Spreadsheet.Proofs.SheetPhases

/-!
Where the cells of a compiled sheet stand in its CSV text. Main statement: the cell of a row and a
column is read back from the record and the field of those numbers, and there is nothing else in
the text but the empty rows and columns in front.
-/
namespace Spreadsheet

namespace Cell

/-- The row and the column of a cell. -/
def coordinates (c : Cell) : Nat × Nat :=
  (c.row, c.column)

theorem column_read {place : Place} {rowDefaults : Modifier} {first : Bool} {field : List Char}
    {rowModifier : Option Modifier} {cell : Cell}
    (h : Cell.read place rowDefaults first field = .ok (rowModifier, cell)) :
    cell.column = place.column := by
  unfold Cell.read at h
  split at h
  next => cases h
  next =>
    split at h
    next => cases h
    next =>
      cases h
      rfl

end Cell

namespace Row

/-- Whether the row has cells and they stand side by side from the given column on. -/
structure Aligned (column : Nat) (r : Row) : Prop where
  cells_ne_nil : r.cells ≠ []
  columns : r.cells.map (·.column) = List.range' column r.cells.length

/-- Whether the row has cells and they stand side by side in the row `index`. -/
structure StandsAt (index column : Nat) (r : Row) : Prop where
  cells_ne_nil : r.cells ≠ []
  coordinates : r.cells.map Cell.coordinates =
    (List.range' column r.cells.length).map fun column => (index, column)

theorem StandsAt.congr {index column : Nat} {r r' : Row} (h : r.StandsAt index column)
    (hcells : r'.cells.map Cell.coordinates = r.cells.map Cell.coordinates) :
    r'.StandsAt index column := by
  have hlength : r'.cells.length = r.cells.length := by
    simpa using congrArg List.length hcells
  refine ⟨fun hnil => h.cells_ne_nil ?_, ?_⟩
  · rw [hnil] at hlength
    exact List.length_eq_zero_iff.1 hlength.symm
  · rw [hcells, hlength, h.coordinates]

theorem StandsAt.cell {index column j : Nat} {r : Row} (h : r.StandsAt index column) {cell : Cell}
    (hcell : r.cells[j]? = some cell) : cell.row = index ∧ cell.column = column + j := by
  have hj : j < r.cells.length := (List.getElem?_eq_some_iff.1 hcell).1
  have hget := congrArg (fun places => places[j]?) h.coordinates
  simp only [List.getElem?_map, hcell, List.getElem?_range' hj, Option.map_some, Cell.coordinates,
    Option.some.injEq, Prod.mk.injEq] at hget
  omega

/-- A row that is moved takes its cells along. -/
theorem Aligned.standsAt_moveTo {column : Nat} {r : Row} (h : r.Aligned column) (index : Nat) :
    (r.moveTo index).StandsAt index column := by
  have hcolumns := congrArg (List.map fun column => (index, column)) h.columns
  rw [List.map_map] at hcolumns
  constructor
  · rw [cells_moveTo]
    exact fun hnil => h.cells_ne_nil (List.map_eq_nil_iff.1 hnil)
  · rw [cells_moveTo, List.map_map, List.length_map, ← hcolumns]
    rfl

/-! ## Reading rows -/

theorem columns_readCells {place : Place} {rowDefaults : Modifier} {fields : List (List Char)}
    {cells : List Cell} (h : readCells place rowDefaults fields = .ok cells) :
    cells.map (·.column) = List.range' place.column fields.length := by
  induction fields generalizing place cells with
  | nil =>
    cases h
    rfl
  | cons field rest ih =>
    rw [readCells] at h
    split at h
    next => cases h
    next first hfirst =>
      split at h
      next => cases h
      next more hmore =>
        cases h
        rw [List.map_cons, ih hmore, Cell.column_read hfirst]
        rfl

theorem aligned_ofFields {place : Place} {fields : List (List Char)} {row : Row}
    (hfields : fields ≠ []) (h : ofFields place fields = .ok row) : row.Aligned place.column := by
  cases fields with
  | nil => exact absurd rfl hfields
  | cons field rest =>
    rw [ofFields] at h
    split at h
    next => cases h
    next hfirst =>
      dsimp only at h
      split at h
      next => cases h
      next more hmore =>
        cases h
        have hcolumns := columns_readCells hmore
        have hlength : more.length = rest.length := by
          simpa using congrArg List.length hcolumns
        refine ⟨List.cons_ne_nil _ _, ?_⟩
        rw [List.map_cons, hcolumns, Cell.column_read hfirst, List.length_cons, hlength]
        rfl

end Row

theorem Csv.fields_ne_nil (record : List Char) : Csv.fields record ≠ [] :=
  List.reverse_ne_nil_iff.2 (List.cons_ne_nil _ _)

namespace Sheet

theorem aligned_readRows {source : Source} {columnOffset index : Nat} {records : List Csv.Record}
    {rows : List Row} (h : readRows source columnOffset index records = .ok rows) :
    ∀ row ∈ rows, row.Aligned columnOffset := by
  induction records generalizing index rows with
  | nil =>
    cases h
    exact List.forall_mem_nil _
  | cons record rest ih =>
    rw [readRows] at h
    split at h
    next => cases h
    next first hfirst =>
      split at h
      next => cases h
      next more hmore =>
        cases h
        have haligned := Row.aligned_ofFields (Csv.fields_ne_nil record.text) hfirst
        exact List.forall_mem_cons.2 ⟨haligned, ih hmore⟩

theorem aligned_read {source : Source} {options : Options} {t : Sheet}
    (h : Sheet.read source options = .ok t) :
    t.rowOffset = options.rowOffset ∧ ∀ row ∈ t.rows, row.Aligned options.columnOffset := by
  unfold Sheet.read at h
  split at h
  next => cases h
  next hrows =>
    cases h
    exact ⟨rfl, aligned_readRows hrows⟩

/-! ## Placing and resolving rows -/

theorem index_layout (fill next : Nat) (rows : List Row) :
    (layout fill next rows).map (·.index) = List.range' next (layout fill next rows).length := by
  induction rows generalizing next with
  | nil => rfl
  | cons row rest ih =>
    have hblock : (row.block fill next).map (·.index) = List.range' next (row.height fill) := by
      rw [Row.block, List.map_map, List.range'_eq_map_range]
      rfl
    have hlength : (row.block fill next).length = row.height fill := by
      rw [Row.block, List.length_map, List.length_range]
    rw [layout_cons, List.map_append, hblock, ih, List.length_append, hlength]
    exact List.range'_append_1

/-- The rows are numbered without a gap. -/
theorem index_of_getElem?_layout {fill next i : Nat} {rows : List Row} {row : Row}
    (h : (layout fill next rows)[i]? = some row) : row.index = next + i := by
  have hi : i < (layout fill next rows).length := (List.getElem?_eq_some_iff.1 h).1
  have hget := congrArg (fun indices => indices[i]?) (index_layout fill next rows)
  simp only [List.getElem?_map, h, List.getElem?_range' hi, Option.map_some,
    Option.some.injEq] at hget
  omega

/-- Rows that were read stand one below the other once their copies are placed. -/
theorem standsAt_layout {fill next column : Nat} {rows : List Row}
    (haligned : ∀ row ∈ rows, row.Aligned column) {i : Nat} {row : Row}
    (h : (layout fill next rows)[i]? = some row) : row.StandsAt (next + i) column := by
  have hindex := index_of_getElem?_layout h
  obtain ⟨original, horiginal, first, copy, rfl⟩ :=
    exists_of_mem_layout (List.mem_of_getElem? h)
  -- the index of a moved row is where it was moved to
  change first + copy = next + i at hindex
  rw [hindex]
  have hcells := Row.cells_placeAt fill first original
  have hplaced : (original.placeAt fill first).Aligned column :=
    ⟨by rw [hcells]; exact (haligned original horiginal).cells_ne_nil,
      by rw [hcells]; exact (haligned original horiginal).columns⟩
  exact hplaced.standsAt_moveTo (next + i)

theorem coordinates_attemptCell (filename : String) (s : Scope) (cell : Cell) :
    (attemptCell filename s cell).1.coordinates = cell.coordinates := by
  unfold attemptCell
  split
  next hcell =>
    unfold resolveCell at hcell
    split at hcell
    next =>
      cases hcell
      rfl
    next =>
      split at hcell
      next =>
        cases hcell
        rfl
      next => cases hcell
  next => rfl

theorem coordinates_resolve {t t' : Sheet} {s : Scope} (h : t.resolve s = (t', none)) :
    t'.rows.map (fun row => row.cells.map Cell.coordinates) =
      t.rows.map fun row => row.cells.map Cell.coordinates := by
  unfold Sheet.resolve at h
  split at h
  next => cases h
  next =>
    split at h
    next => cases h
    next rows hrows =>
      cases h
      have hkept := map_mapUntilError (f := attemptRow t.filename s)
        (k := fun row => row.cells.map Cell.coordinates)
        (fun row => map_mapUntilError (coordinates_attemptCell t.filename s) row.cells) t.rows
      rw [hrows] at hkept
      exact hkept

end Sheet

/-! ## Rendered rows -/

theorem Csv.renderRecord_replicate (n : Nat) {record : List (List Char)} (hrecord : record ≠ []) :
    Csv.renderRecord (List.replicate n [] ++ record) =
      List.replicate n ',' ++ Csv.renderRecord record := by
  induction n with
  | zero => rfl
  | succ n ih =>
    have hmore : List.replicate n [] ++ record ≠ [] :=
      fun hnil => hrecord (List.append_eq_nil_iff.1 hnil).2
    rw [List.replicate_succ, List.cons_append, Csv.renderRecord_cons hmore, ih,
      List.replicate_succ]
    rfl

namespace Sheet

/-- The texts of a row, behind the empty columns in front of it. -/
def rowTexts (columnOffset : Nat) (row : Row) : List (List Char) :=
  List.replicate columnOffset [] ++ row.cells.map (·.text.toList)

theorem renderRow_eq (columnOffset : Nat) {row : Row} (hrow : row.cells ≠ []) :
    renderRow columnOffset row = Csv.renderRecord (rowTexts columnOffset row) ++ ['\n'] := by
  have htexts : row.cells.map (·.text.toList) ≠ [] := fun hnil => hrow (List.map_eq_nil_iff.1 hnil)
  rw [rowTexts, Csv.renderRecord_replicate columnOffset htexts, Csv.renderRecord, List.map_map]
  rfl

/-- The text of a sheet is that of a table: the empty rows, then the rows of the sheet. -/
theorem renderCsv_eq {t : Sheet} (hphase : t.phase = .resolved)
    (hrows : ∀ row ∈ t.rows, row.cells ≠ []) (options : Options) :
    t.renderCsv options = .ok (String.ofList
      ((List.replicate options.rowOffset [[]] ++ t.rows.map (rowTexts options.columnOffset)).flatMap
        fun record => Csv.renderRecord record ++ ['\n'])) := by
  have hempty : (List.replicate options.rowOffset [[]]).flatMap
      (fun record => Csv.renderRecord record ++ ['\n']) =
        List.replicate options.rowOffset '\n' := by
    induction options.rowOffset with
    | zero => rfl
    | succ n ih => rw [List.replicate_succ, List.flatMap_cons, ih, List.replicate_succ]; rfl
  have hrender : t.rows.flatMap (renderRow options.columnOffset) =
      (t.rows.map (rowTexts options.columnOffset)).flatMap
        fun record => Csv.renderRecord record ++ ['\n'] := by
    rw [List.flatMap_def, List.flatMap_def, List.map_map]
    congr 1
    exact List.map_congr_left fun row hrow => renderRow_eq _ (hrows row hrow)
  rw [renderCsv, if_pos hphase, List.flatMap_append, hempty, hrender]

end Sheet

namespace Source

theorem standsAt_compile {source : Source} {options : Options} {sheet : Sheet}
    (h : source.compile options = .ok sheet) {i : Nat} {row : Row}
    (hrow : sheet.rows[i]? = some row) :
    row.StandsAt (options.rowOffset + i) options.columnOffset := by
  obtain ⟨s, parsed, expanded, bound, s', -, hread, hexpand, hbind, hresolve⟩ := compile_steps h
  obtain ⟨hoffset, haligned⟩ := Sheet.aligned_read hread
  -- resolving touches no coordinates, so that they are those of the expanded row
  have hkept := congrArg (fun rows => rows[i]?) (Sheet.coordinates_resolve hresolve)
  simp only [List.getElem?_map, hrow, Option.map_some, (Sheet.bind_spec hbind).1] at hkept
  obtain ⟨placed, hplaced, hcells⟩ := Option.map_eq_some_iff.1 hkept.symm
  rw [Sheet.eq_of_expand hexpand] at hplaced
  rw [← hoffset]
  exact (Sheet.standsAt_layout haligned hplaced).congr hcells.symm

/-- A compiled sheet is read back from its CSV text, each cell in its own row and column. -/
theorem table_compile {source : Source} {options : Options} {sheet : Sheet}
    (h : source.compile options = .ok sheet) :
    ∃ out, sheet.renderCsv options = .ok out ∧
      (Csv.table out.toList).length = options.rowOffset + sheet.rows.length ∧
      (∀ i < options.rowOffset, (Csv.table out.toList)[i]? = some [[]]) ∧
      ∀ i row, sheet.rows[i]? = some row →
        ∃ record, (Csv.table out.toList)[options.rowOffset + i]? = some record ∧
          record.length = options.columnOffset + row.cells.length ∧
          (∀ j < options.columnOffset, record[j]? = some []) ∧
          ∀ j cell, row.cells[j]? = some cell →
            cell.row = options.rowOffset + i ∧ cell.column = options.columnOffset + j ∧
              record[cell.column]? = some (Csv.readBack cell.text.toList) := by
  obtain ⟨s, parsed, expanded, bound, s', -, -, -, -, hresolve⟩ := compile_steps h
  have hrows : ∀ row ∈ sheet.rows, row.cells ≠ [] := by
    intro row hrow
    obtain ⟨i, hi⟩ := List.getElem?_of_mem hrow
    exact (standsAt_compile h hi).cells_ne_nil
  have hrecords : ∀ record ∈ List.replicate options.rowOffset [[]] ++
      sheet.rows.map (Sheet.rowTexts options.columnOffset), record ≠ [] := by
    intro record hrecord
    rcases List.mem_append.1 hrecord with hempty | htexts
    · rw [List.eq_of_mem_replicate hempty]
      exact List.cons_ne_nil _ _
    · obtain ⟨row, hrow, rfl⟩ := List.mem_map.1 htexts
      intro hnil
      exact hrows row hrow (List.map_eq_nil_iff.1 (List.append_eq_nil_iff.1 hnil).2)
  have htable := Csv.table_renderTable hrecords
  refine ⟨_, Sheet.renderCsv_eq (Sheet.phase_resolve hresolve) hrows options, ?_⟩
  rw [String.toList_ofList, htable]
  refine ⟨by simp, fun i hi => ?_, fun i row hrow => ?_⟩
  · rw [List.map_append, List.getElem?_append_left (by simpa using hi)]
    simp [hi, Csv.readBack_nil]
  · refine ⟨(Sheet.rowTexts options.columnOffset row).map Csv.readBack, ?_, ?_, ?_, ?_⟩
    · simp [List.getElem?_append_right, hrow]
    · simp [Sheet.rowTexts]
    · intro j hj
      rw [Sheet.rowTexts, List.map_append, List.getElem?_append_left (by simpa using hj)]
      simp [hj, Csv.readBack_nil]
    · intro j cell hcell
      obtain ⟨hplaceRow, hplaceColumn⟩ := (standsAt_compile h hrow).cell hcell
      refine ⟨hplaceRow, hplaceColumn, ?_⟩
      rw [hplaceColumn, Sheet.rowTexts]
      simp [List.getElem?_append_right, hcell]

/-- A text with quotes and one with a blank at its end, an empty row, and a text of two lines. -/
def quotedCells : Source :=
  { filename := "cells.csvpp"
    definitions := none
    sheet := "\"say \"\"hi\"\"\",\" padded \"\n\n\"two\nlines\"".toList
    sheetLine := 1 }

theorem table_compile_quotedCells :
    ∃ sheet out, quotedCells.compile { rowOffset := 1, columnOffset := 2 } = .ok sheet ∧
      sheet.renderCsv { rowOffset := 1, columnOffset := 2 } = .ok out ∧
      (Csv.table out.toList).length = 4 ∧ (Csv.table out.toList)[0]? = some [[]] ∧
      ∃ record, (Csv.table out.toList)[1]? = some record ∧ record.length = 4 ∧
        record[1]? = some [] ∧ record[2]? = some "say \"hi\"".toList ∧
        record[3]? = some "padded".toList := by
  have hcompile : ∃ sheet, quotedCells.compile { rowOffset := 1, columnOffset := 2 } = .ok sheet ∧
      sheet.rows.map (fun row => row.cells.map (·.text.toList)) =
        [["say \"hi\"".toList, "padded ".toList], [[]], ["two\nlines".toList]] := by
    unfold compile
    rw [buildScope_of_no_definitions rfl rfl]
    exact ⟨_, rfl, rfl⟩
  obtain ⟨sheet, hcompile, htexts⟩ := hcompile
  obtain ⟨out, hout, hlength, hempty, hrows⟩ := table_compile hcompile
  have hsize : sheet.rows.length = 3 := by simpa using congrArg List.length htexts
  have hfirst : sheet.rows[0]?.map (fun row => row.cells.map (·.text.toList)) =
      some ["say \"hi\"".toList, "padded ".toList] := by
    rw [← List.getElem?_map, htexts]
    rfl
  obtain ⟨row, hrow, hcells⟩ := Option.map_eq_some_iff.1 hfirst
  obtain ⟨record, hrecord, hwidth, hcolumns, hfields⟩ := hrows 0 row hrow
  have hcount : row.cells.length = 2 := by simpa using congrArg List.length hcells
  -- the text of a cell of the row, read back at the column behind the two empty ones
  have hfield : ∀ j text, (row.cells.map (·.text.toList))[j]? = some text →
      record[2 + j]? = some (Csv.readBack text) := by
    intro j text htext
    rw [List.getElem?_map] at htext
    obtain ⟨cell, hcell, rfl⟩ := Option.map_eq_some_iff.1 htext
    obtain ⟨-, hcolumn, hread⟩ := hfields j cell hcell
    rw [hcolumn] at hread
    exact hread
  rw [hcells] at hfield
  refine ⟨sheet, out, hcompile, hout, by rw [hlength, hsize], hempty 0 (by decide), record, hrecord,
    by rw [hwidth, hcount], hcolumns 1 (by decide), ?_, ?_⟩
  · exact hfield 0 _ rfl
  · exact hfield 1 _ rfl

end Source
end Spreadsheet
