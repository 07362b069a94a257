import Spreadsheet.Proofs.CompiledSheets
import Spreadsheet.Proofs.CsvTables
import Spreadsheet.Proofs.EffectiveDefinitions
import Spreadsheet.Proofs.SheetPhases

/-!
Tables of literal texts, written with quotes around every field and compiled. Main statement: the
compiled sheet has the rows and cells of the table, and each cell has its text without the blanks at
the front, so that a table is unchanged exactly if no text of it starts with a blank.
-/
namespace Spreadsheet

theorem map_eq_self_iff {α : Type} (f : α → α) (items : List α) :
    items.map f = items ↔ ∀ item ∈ items, f item = item := by
  simpa using List.map_inj_left (f := f) (g := id) (l := items)

/-! ## Lines and sections -/

namespace Text

theorem linesFrom_eq (lines : List (List Char)) (done s : List Char) :
    linesFrom lines done s = lines.reverse ++ linesFrom [] done s := by
  induction s generalizing lines done with
  | nil =>
    unfold linesFrom
    split <;> simp
  | cons c rest ih =>
    unfold linesFrom
    split
    · rw [ih, ih [_]]
      simp
    · exact ih lines (c :: done)

theorem flatten_linesFrom (done s : List Char) :
    (linesFrom [] done s).flatten = done.reverse ++ s := by
  induction s generalizing done with
  | nil =>
    unfold linesFrom
    split <;> simp_all
  | cons c rest ih =>
    unfold linesFrom
    split
    · rw [linesFrom_eq, List.flatten_append, ih]
      simp
    · rw [ih]
      simp

/-- The lines of a text together are the text. -/
theorem flatten_lines (s : List Char) : (lines s).flatten = s :=
  flatten_linesFrom [] s

theorem trimStart_trimStart (s : List Char) : trimStart (trimStart s) = trimStart s :=
  List.dropWhile_idempotent _ _

/-- Whether the text starts with a blank. -/
def startsBlank (s : List Char) : Bool :=
  s.head?.any isBlank

theorem trimStart_eq_self_iff (s : List Char) : trimStart s = s ↔ startsBlank s = false := by
  rw [trimStart, List.dropWhile_eq_self_iff]
  cases s with
  | nil => simp [startsBlank]
  | cons c rest => simp [startsBlank]

/-- Trimming the texts of a table changes it exactly where a text starts with a blank. -/
theorem map_trimStart_eq_self_iff (table : List (List (List Char))) :
    (table.map fun row => row.map trimStart) = table ↔
      ∀ row ∈ table, ∀ text ∈ row, startsBlank text = false := by
  rw [map_eq_self_iff]
  refine forall₂_congr fun row _ => ?_
  rw [map_eq_self_iff]
  exact forall₂_congr fun text _ => trimStart_eq_self_iff text

end Text

/-- A file that starts with the separator has no definitions, and all the rest is the sheet. -/
theorem Source.split_separator (filename : String) (rest : List Char) :
    Source.split filename ("---\n".toList ++ rest) =
      { filename := filename, definitions := some [], sheet := rest, sheetLine := 2 } := by
  have hlines : Text.lines ("---\n".toList ++ rest) = "---\n".toList :: Text.lines rest :=
    Text.linesFrom_eq ["---\n".toList] [] rest
  have hsplit : splitAtSeparator [] (Text.lines ("---\n".toList ++ rest)) =
      some ([], Text.lines rest) := by
    rw [hlines, splitAtSeparator]
    rfl
  rw [Source.split, hsplit]
  simp [Text.flatten_lines]

/-! ## Literal cells -/

theorem map_eq_of_forall₂ {α β γ : Type} {R : α → β → Prop} {f : α → γ} {g : β → γ}
    (hfg : ∀ a b, R a b → g b = f a) {as : List α} {bs : List β} (h : as.Forall₂ R bs) :
    bs.map g = as.map f := by
  induction h with
  | nil => rfl
  | cons hfirst _ ih => rw [List.map_cons, List.map_cons, hfg _ _ hfirst, ih]

namespace Cell

/-- Whether a text has neither a formula nor a modifier at its front. -/
structure IsLiteral (field : List Char) : Prop where
  no_formula : ¬['='] <+: Text.trimStart field
  no_modifier : ¬['[', '['] <+: Text.trimStart field
  no_rowModifier : ¬['!', '[', '['] <+: Text.trimStart field

instance (field : List Char) : Decidable (IsLiteral field) :=
  decidable_of_iff (¬['='] <+: Text.trimStart field ∧ ¬['[', '['] <+: Text.trimStart field ∧
      ¬['!', '[', '['] <+: Text.trimStart field)
    ⟨fun ⟨h, h', h''⟩ => ⟨h, h', h''⟩, fun ⟨h, h', h''⟩ => ⟨h, h', h''⟩⟩

/-- Whether the cell holds the text, without the blanks at its front, and no formula. -/
structure Holds (field : List Char) (c : Cell) : Prop where
  value : c.value = String.ofList (Text.trimStart field)
  formula : c.formula = none

theorem Holds.text {field : List Char} {c : Cell} (h : c.Holds field) :
    c.text.toList = Text.trimStart field := by
  rw [Cell.text, h.formula]
  dsimp only
  rw [h.value, String.toList_ofList]

theorem read_literal {field : List Char} (h : IsLiteral field) (place : Place)
    (rowDefaults : Modifier) (first : Bool) :
    ∃ cell, Cell.read place rowDefaults first field = .ok (none, cell) ∧ cell.Holds field := by
  have hrow : Modifier.readRowModifier first (Text.trimStart field) =
      .ok (none, Text.trimStart field) := by
    unfold Modifier.readRowModifier
    split
    next body hbody => exact absurd ⟨body, hbody.symm⟩ h.no_rowModifier
    next => rfl
  have hcell : Modifier.readCellModifier rowDefaults (Text.trimStart field) =
      .ok (rowDefaults, Text.trimStart field) := by
    unfold Modifier.readCellModifier
    split
    next body hbody => exact absurd ⟨body, hbody.symm⟩ h.no_modifier
    next => rfl
  have hformula : readFormula (Text.trimStart field) = .ok none := by
    unfold readFormula
    rw [Text.trimStart_trimStart]
    split
    next body hbody => exact absurd ⟨body, hbody.symm⟩ h.no_formula
    next => rfl
  simp only [Cell.read, ParsedCell.read, hrow, hcell, hformula]
  exact ⟨_, rfl, rfl, rfl⟩

end Cell

namespace Row

/-- Whether the row has a cell for each of the texts, and no modifier. -/
structure Holds (fields : List (List Char)) (r : Row) : Prop where
  modifier : r.modifier = {}
  cells : fields.Forall₂ (fun field cell => cell.Holds field) r.cells

theorem readCells_literal {fields : List (List Char)} (h : ∀ field ∈ fields, Cell.IsLiteral field)
    (place : Place) (rowDefaults : Modifier) :
    ∃ cells, readCells place rowDefaults fields = .ok cells ∧
      fields.Forall₂ (fun field cell => cell.Holds field) cells := by
  induction fields generalizing place with
  | nil => exact ⟨[], rfl, .nil⟩
  | cons field rest ih =>
    obtain ⟨hfield, hrest⟩ := List.forall_mem_cons.1 h
    obtain ⟨cell, hread, hcell⟩ := Cell.read_literal hfield place rowDefaults false
    obtain ⟨cells, hmore, hcells⟩ := ih hrest { place with column := place.column + 1 }
    refine ⟨cell :: cells, ?_, .cons hcell hcells⟩
    simp only [readCells, hread, hmore]

theorem ofFields_literal {fields : List (List Char)} (h : ∀ field ∈ fields, Cell.IsLiteral field)
    (place : Place) : ∃ row, ofFields place fields = .ok row ∧ row.Holds fields := by
  cases fields with
  | nil => exact ⟨_, rfl, rfl, .nil⟩
  | cons field rest =>
    obtain ⟨hfield, hrest⟩ := List.forall_mem_cons.1 h
    obtain ⟨cell, hread, hcell⟩ := Cell.read_literal hfield place {} true
    obtain ⟨cells, hmore, hcells⟩ := readCells_literal hrest
      { place with column := place.column + 1 } (Option.getD none {} : Modifier).cellDefaults
    simp only [ofFields, hread, hmore]
    exact ⟨_, rfl, rfl, .cons hcell hcells⟩

/-- A row that is moved has the same texts. -/
theorem Holds.moveTo {fields : List (List Char)} {r : Row} (h : r.Holds fields) (index : Nat) :
    (r.moveTo index).Holds fields := by
  refine ⟨h.modifier, ?_⟩
  rw [cells_moveTo, List.forall₂_map_right_iff]
  exact h.cells.imp fun _ _ hcell => ⟨hcell.value, hcell.formula⟩

theorem Holds.no_formulas {fields : List (List Char)} {r : Row} (h : r.Holds fields) :
    ∀ cell ∈ r.cells, cell.formula = none := by
  intro cell hcell
  obtain ⟨_, _, hholds⟩ := exists_of_mem_forall₂ h.cells hcell
  exact hholds.formula

theorem Holds.texts {fields : List (List Char)} {r : Row} (h : r.Holds fields) :
    r.cells.map (·.text.toList) = fields.map Text.trimStart :=
  map_eq_of_forall₂ (fun _ _ hcell => hcell.text) h.cells

end Row

namespace Sheet

/-- Whether the rows of the sheet hold the rows of the table. -/
def Holds (table : List (List (List Char))) (t : Sheet) : Prop :=
  table.Forall₂ (fun fields row => row.Holds fields) t.rows

/-- The texts of the cells, row by row. -/
def texts (t : Sheet) : List (List (List Char)) :=
  t.rows.map fun row => row.cells.map (·.text.toList)

theorem Holds.texts {table : List (List (List Char))} {t : Sheet} (h : t.Holds table) :
    t.texts = table.map fun row => row.map Text.trimStart :=
  map_eq_of_forall₂ (fun _ _ hrow => hrow.texts) h

theorem Holds.rows {table : List (List (List Char))} {t : Sheet} (h : t.Holds table) :
    ∀ row ∈ t.rows, row.modifier = {} ∧ ∀ cell ∈ row.cells, cell.formula = none := by
  intro row hrow
  obtain ⟨_, _, hholds⟩ := exists_of_mem_forall₂ h hrow
  exact ⟨hholds.modifier, hholds.no_formulas⟩

/-! ## Reading -/

theorem dropBlankEnd_eq_self {records : List Csv.Record}
    (h : ∀ record ∈ records, Text.allBlank record.text = false) :
    dropBlankEnd records = records := by
  rw [dropBlankEnd, List.dropWhile_eq_self_iff.2, List.reverse_reverse]
  intro hlength
  rw [h _ (List.mem_reverse.1 (List.getElem_mem hlength))]
  exact Bool.false_ne_true

theorem readRows_literal {records : List Csv.Record}
    (h : ∀ record ∈ records, ∀ field ∈ Csv.fields record.text, Cell.IsLiteral field)
    (source : Source) (columnOffset index : Nat) :
    ∃ rows, readRows source columnOffset index records = .ok rows ∧
      (records.map fun record => Csv.fields record.text).Forall₂
        (fun fields row => row.Holds fields) rows := by
  induction records generalizing index with
  | nil => exact ⟨[], rfl, .nil⟩
  | cons record rest ih =>
    obtain ⟨hrecord, hrest⟩ := List.forall_mem_cons.1 h
    obtain ⟨row, hread, hrow⟩ := Row.ofFields_literal hrecord
      { filename := source.filename, line := source.lineOfSheet record.line, row := index,
        column := columnOffset }
    obtain ⟨rows, hmore, hrows⟩ := ih hrest (index + 1)
    refine ⟨row :: rows, ?_, .cons hrow hrows⟩
    simp only [readRows, hread, hmore]

theorem read_literal {source : Source}
    (hrecords : ∀ record ∈ Csv.records source.sheet, Text.allBlank record.text = false)
    (hfields : ∀ fields ∈ Csv.table source.sheet, ∀ field ∈ fields, Cell.IsLiteral field)
    (options : Options) :
    ∃ t, Sheet.read source options = .ok t ∧ t.phase = .parsed ∧
      t.Holds (Csv.table source.sheet) := by
  obtain ⟨rows, hread, hrows⟩ := readRows_literal
    (fun record hrecord => hfields _ (List.mem_map_of_mem hrecord)) source options.columnOffset
    options.rowOffset
  unfold Sheet.read
  rw [dropBlankEnd_eq_self hrecords, hread]
  exact ⟨_, rfl, rfl, hrows⟩

/-! ## Expanding and resolving -/

theorem holds_layout {table : List (List (List Char))} {rows : List Row}
    (h : table.Forall₂ (fun fields row => row.Holds fields) rows) (fill next : Nat) :
    table.Forall₂ (fun fields row => row.Holds fields) (layout fill next rows) := by
  induction h generalizing next with
  | nil => exact .nil
  | cons hrow _ ih =>
    -- a row without a modifier is one row, moved to the next place
    rw [layout, hrow.modifier]
    exact .cons (hrow.moveTo next) (ih (next + 1))

theorem Holds.expand {table : List (List (List Char))} {t : Sheet} (h : t.Holds table)
    (hphase : t.phase = .parsed) :
    ∃ t', t.expand = .ok t' ∧ t'.phase = .expanded ∧ t'.Holds table := by
  have hbounded : t.rows.filter Row.isUnbounded = [] := by
    rw [List.filter_eq_nil_iff]
    intro row hrow
    rw [Row.isUnbounded, (h.rows row hrow).1]
    exact Bool.false_ne_true
  obtain ⟨t', hexpand⟩ := expand_iff.2 ⟨hphase, by rw [hbounded]; exact Nat.zero_le 1⟩
  refine ⟨t', hexpand, ?_⟩
  rw [eq_of_expand hexpand]
  exact ⟨rfl, holds_layout h _ _⟩

/-- Where there are no formulas, there is nothing to resolve. -/
theorem Holds.resolve {table : List (List (List Char))} {t : Sheet} (h : t.Holds table)
    (hphase : t.phase = .bound) (s : Scope) :
    t.resolve s = ({ t with phase := .resolved }, none) := by
  have hcell (cell : Cell) (hformula : cell.formula = none) :
      attemptCell t.filename s cell = (cell, none) := by
    rw [attemptCell, resolveCell, hformula]
  have hrow (row : Row) (hin : row ∈ t.rows) :
      attemptRow t.filename s row = (row, none) := by
    have hnone := (h.rows row hin).2
    rw [attemptRow, mapUntilError_eq_self fun cell hin => hcell cell (hnone cell hin)]
  rw [Sheet.resolve, (requirePhase_iff "resolve").2 hphase]
  dsimp only
  rw [mapUntilError_eq_self hrow]

end Sheet

namespace Source

theorem buildScope_of_empty_section {source : Source} (h : source.definitions = some []) :
    source.buildScope {} = .ok {} := by
  have hdefines : source.Defines {} := by
    unfold Defines
    rw [h]
    show Definitions.parse _ = _
    cbv
  have hempty : Scope.ofDefinitions {} {} = {} := rfl
  rw [buildScope_of_defines hdefines, hempty, resolveVariables_empty]
  rfl

/-- The file of a table: no definitions, and every field in quotes. -/
def ofTable (filename : String) (table : List (List (List Char))) : Source :=
  Source.split filename ("---\n".toList ++ Csv.FieldWriter.enclosing.text table)

theorem sheet_ofTable (filename : String) (table : List (List (List Char))) :
    (ofTable filename table).sheet = Csv.FieldWriter.enclosing.text table := by
  rw [ofTable, split_separator]

theorem definitions_ofTable (filename : String) (table : List (List (List Char))) :
    (ofTable filename table).definitions = some [] := by
  rw [ofTable, split_separator]

/-- A record with quotes is not blank. -/
theorem allBlank_enclosing {fields : List (List Char)} (h : fields ≠ []) :
    Text.allBlank (Csv.FieldWriter.enclosing.record fields) = false := by
  have hquote (rest : List Char) : Text.allBlank ('"' :: rest) = false := rfl
  cases fields with
  | nil => exact absurd rfl h
  | cons first rest =>
    by_cases hrest : rest = []
    · subst hrest
      exact hquote _
    · rw [Csv.FieldWriter.record_cons _ hrest]
      exact hquote _

theorem table_ofTable (filename : String) {table : List (List (List Char))}
    (hrows : ∀ row ∈ table, row ≠ []) : Csv.table (ofTable filename table).sheet = table := by
  rw [sheet_ofTable, Csv.FieldWriter.table_text _ hrows]
  exact (List.map_congr_left fun row _ => List.map_id row).trans (List.map_id table)

/-- No row of a table is taken for a blank line at the end of the file. -/
theorem allBlank_records_ofTable (filename : String) {table : List (List (List Char))}
    (hrows : ∀ row ∈ table, row ≠ []) :
    ∀ record ∈ Csv.records (ofTable filename table).sheet, Text.allBlank record.text = false := by
  intro record hrecord
  have htext := List.mem_map_of_mem (f := Csv.Record.text) hrecord
  rw [sheet_ofTable, Csv.FieldWriter.records_text] at htext
  obtain ⟨row, hrow, heq⟩ := List.mem_map.1 htext
  rw [← heq]
  exact allBlank_enclosing (hrows row hrow)

theorem holds_compile_ofTable (filename : String) {table : List (List (List Char))}
    (hrows : ∀ row ∈ table, row ≠ [])
    (hliteral : ∀ row ∈ table, ∀ text ∈ row, Cell.IsLiteral text) :
    ∃ sheet, (ofTable filename table).compile {} = .ok sheet ∧ sheet.Holds table := by
  have htable := table_ofTable filename hrows
  obtain ⟨parsed, hread, hparsed, hholds⟩ := Sheet.read_literal
    (allBlank_records_ofTable filename hrows) (by rw [htable]; exact hliteral) {}
  rw [htable] at hholds
  obtain ⟨expanded, hexpand, hphase, hholds⟩ := hholds.expand hparsed
  -- what is bound does not matter, as no formula is there to use it
  obtain ⟨⟨bound, s⟩, hbind⟩ := Sheet.bind_iff (s := {}).2 hphase
  have hbound : bound.Holds table := by
    unfold Sheet.Holds
    rw [(Sheet.bind_spec hbind).1]
    exact hholds
  have hresolve := hbound.resolve (Sheet.phase_bind hbind) s
  refine ⟨{ bound with phase := .resolved }, ?_, hbound⟩
  simp only [compile, buildScope_of_empty_section (definitions_ofTable filename table), hread,
    hexpand, hbind, hresolve]

/-- A table of literal texts compiles to a sheet with the same rows and cells. A cell has its text
without the blanks at the front, so that nothing changes exactly if no text starts with one. -/
theorem compile_ofTable (filename : String) {table : List (List (List Char))}
    (hrows : ∀ row ∈ table, row ≠ [])
    (hliteral : ∀ row ∈ table, ∀ text ∈ row, Cell.IsLiteral text) :
    ∃ sheet, (ofTable filename table).compile {} = .ok sheet ∧
      sheet.texts = (table.map fun row => row.map Text.trimStart) ∧
      (sheet.texts = table ↔ ∀ row ∈ table, ∀ text ∈ row, Text.startsBlank text = false) := by
  obtain ⟨sheet, hcompile, hholds⟩ := holds_compile_ofTable filename hrows hliteral
  refine ⟨sheet, hcompile, hholds.texts, ?_⟩
  rw [hholds.texts]
  exact Text.map_trimStart_eq_self_iff table

/-- Texts with quotes, a separator and line ends of two kinds in them, one that ends in a blank, and
a row that is empty but for its quotes. -/
def markedTexts : List (List (List Char)) :=
  [["say \"hi\"".toList, "a,b ".toList], ["two\r\n---\nlines\r".toList], [[]]]

theorem compile_ofTable_markedTexts :
    ∃ sheet, (ofTable "marks.csvpp" markedTexts).compile {} = .ok sheet ∧
      sheet.texts = markedTexts := by
  have hrows : ∀ row ∈ markedTexts, row ≠ [] := by decide
  have hliteral : ∀ row ∈ markedTexts, ∀ text ∈ row, Cell.IsLiteral text := by decide
  obtain ⟨sheet, hcompile, -, hsame⟩ := compile_ofTable "marks.csvpp" hrows hliteral
  exact ⟨sheet, hcompile, hsame.2 (by decide)⟩

/-- A blank at the front of a literal text is lost, although it stands in quotes. -/
theorem compile_leadingBlank :
    Cell.IsLiteral " a".toList ∧
      ofTable "t.csvpp" [[" a".toList]] = Source.split "t.csvpp" "---\n\" a\"\n".toList ∧
      ∃ sheet, (ofTable "t.csvpp" [[" a".toList]]).compile {} = .ok sheet ∧
        sheet.texts = [["a".toList]] := by
  have hscope : (ofTable "t.csvpp" [[" a".toList]]).buildScope {} = .ok {} :=
    buildScope_of_empty_section rfl
  refine ⟨by decide, rfl, ?_⟩
  unfold compile
  rw [hscope]
  exact ⟨_, rfl, rfl⟩

end Source
end Spreadsheet
