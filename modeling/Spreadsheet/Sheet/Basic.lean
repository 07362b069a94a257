import Spreadsheet.CompileError
import Spreadsheet.Csv.Fields
import Spreadsheet.Csv.Records
import Spreadsheet.Formula.Parser
import Spreadsheet.Formula.Render
import Spreadsheet.Modifier.Cell
import Spreadsheet.Source

/-!
Sheets: rows of cells, read from the sheet section of a source file.
-/
namespace Spreadsheet

structure Cell where
  column : Nat
  row : Nat
  line : Nat
  /-- The text behind the modifiers. -/
  value : String
  modifier : Modifier
  /-- The formula, if the text starts with `=`. -/
  formula : Option Formula
deriving Inhabited

namespace Cell

def position (c : Cell) : Position :=
  { row := c.row, column := c.column, line := c.line }

def isFormula (c : Cell) : Bool :=
  c.formula.isSome

/-- What is written for the cell: its formula, or else its text. -/
def text (c : Cell) : String :=
  match c.formula with
  | some f => String.ofList ('=' :: f.renderChars c.position)
  | none => c.value

/-- The formula in a cell's text, if the text is one. -/
def readFormula (value : List Char) : Except SyntaxError (Option Formula) :=
  match Text.trimStart value with
  | '=' :: _ =>
    match Formula.parse (String.ofList value) with
    | .ok f => .ok (some f)
    | .error e => .error e
  | _ => .ok none

/-- Reads a field as the cell at the given place; gives also the modifier of the whole row, which
the first cell may hold. -/
def read (place : Place) (rowDefaults : Modifier) (first : Bool) (field : List Char) :
    Except CompileError (Option Modifier × Cell) :=
  match ParsedCell.read field rowDefaults first with
  | .error e => .error (.modifier place e)
  | .ok parsed =>
    match readFormula parsed.value with
    | .error e => .error (.cell place (.malformed e))
    | .ok formula =>
      .ok (parsed.rowModifier,
        { column := place.column, row := place.row, line := place.line
          value := String.ofList parsed.value, modifier := parsed.modifier, formula := formula })

end Cell

structure Row where
  index : Nat
  line : Nat
  /-- The modifier of the whole row. -/
  modifier : Modifier
  cells : List Cell
deriving Inhabited

namespace Row

/-- Reads the fields behind the first as cells; `place` is the place of the next one. -/
def readCells (place : Place) (rowDefaults : Modifier) :
    List (List Char) → Except CompileError (List Cell)
  | [] => .ok []
  | field :: rest =>
    match Cell.read place rowDefaults false field with
    | .error e => .error e
    | .ok (_, cell) =>
      match readCells { place with column := place.column + 1 } rowDefaults rest with
      | .error e => .error e
      | .ok cells => .ok (cell :: cells)

/-- Reads the fields of a record as a row whose first cell is at the given place. -/
def ofFields (place : Place) : List (List Char) → Except CompileError Row
  | [] => .ok { index := place.row, line := place.line, modifier := {}, cells := [] }
  | field :: rest =>
    match Cell.read place {} true field with
    | .error e => .error e
    | .ok (rowModifier, cell) =>
      let modifier := rowModifier.getD {}
      match readCells { place with column := place.column + 1 } modifier.cellDefaults rest with
      | .error e => .error e
      | .ok cells =>
        .ok { index := place.row, line := place.line, modifier := modifier, cells := cell :: cells }

/-- The row at another index. -/
def moveTo (r : Row) (index : Nat) : Row :=
  { r with index := index, cells := r.cells.map fun cell => { cell with row := index } }

end Row

structure Sheet where
  filename : String
  rows : List Row
  phase : Phase := .parsed
  rowOffset : Nat
deriving Inhabited

namespace Sheet

/-- The records up to the last one that is not blank. -/
def dropBlankEnd (records : List Csv.Record) : List Csv.Record :=
  (records.reverse.dropWhile fun record => Text.allBlank record.text).reverse

/-- Reads records as rows, the first of them at the given index. -/
def readRows (source : Source) (columnOffset : Nat) : (index : Nat) → List Csv.Record →
    Except CompileError (List Row)
  | _, [] => .ok []
  | index, record :: rest =>
    let place : Place :=
      { filename := source.filename, line := source.lineOfSheet record.line, row := index,
        column := columnOffset }
    match Row.ofFields place (Csv.fields record.text) with
    | .error e => .error e
    | .ok row =>
      match readRows source columnOffset (index + 1) rest with
      | .error e => .error e
      | .ok rows => .ok (row :: rows)

/-- Reads the sheet section of a file. Rows and columns are counted from the offsets on; blank
lines at the end are no rows. -/
def read (source : Source) (options : Options) : Except CompileError Sheet :=
  match readRows source options.columnOffset options.rowOffset
      (dropBlankEnd (Csv.records source.sheet)) with
  | .error e => .error e
  | .ok rows =>
    .ok { filename := source.filename, rows := rows, rowOffset := options.rowOffset }

/-- All cells, row by row. -/
def cells (t : Sheet) : List Cell :=
  t.rows.flatMap (·.cells)

end Sheet
end Spreadsheet
