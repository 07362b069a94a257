import Spreadsheet.Sheet.Expand

/-!
Sheets as CSV text, and in one line.
-/
namespace Spreadsheet.Sheet

/-- A row as a line: empty columns in front, then its cells. -/
def renderRow (columnOffset : Nat) (row : Row) : List Char :=
  List.replicate columnOffset ',' ++
    joinChars [','] (row.cells.map fun cell => Csv.renderField cell.text.toList) ++ ['\n']

/-- The CSV text of a resolved sheet, with empty rows and columns in front of it. -/
def renderCsv (t : Sheet) (options : Options) : Except CompileError String :=
  if t.phase = .resolved then
    .ok (String.ofList (List.replicate options.rowOffset '\n' ++
      t.rows.flatMap (renderRow options.columnOffset)))
  else
    .error (.notResolved t.phase)

/-- The ranges of the repeated rows, as they stand in the sheet. -/
def expandedRanges (t : Sheet) : List RowRange :=
  t.rows.filterMap fun row =>
    match row.modifier.expand.bind Expand.rows? with
    | some rows => if rows.first = row.index then some rows else none
    | none => none

/-- The sheet in one line. -/
def summary (t : Sheet) : String :=
  let counts := t.filename ++ ": " ++ toString t.rows.length ++ " rows, " ++
    toString t.cells.length ++ " cells, " ++
    toString (t.cells.filter (·.isFormula)).length ++ " formulas"
  match t.expandedRanges with
  | [] => counts
  | ranges => counts ++ ", expanded rows " ++ ", ".intercalate (ranges.map (·.render))

end Spreadsheet.Sheet
