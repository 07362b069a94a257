import Spreadsheet.Resolution
import Spreadsheet.Sheet.Expand

/-!
Binding variables to cells and resolving the formulas.
-/
namespace Spreadsheet

namespace Row

/-- Whether the row binds variables. Of the copies of a repeated row only the first does. -/
def binds (r : Row) : Bool :=
  match r.modifier.expand with
  | none => true
  | some expand => expand.placed.map (·.1) == some r.index

/-- Binds the variables of the row itself and of its cells, which can be seen on all copies of the
row, or everywhere if it is not repeated. -/
def bind (s : Scope) (r : Row) : Scope :=
  if r.binds then
    let rows := r.modifier.expand.bind Expand.rows?
    let s := match r.modifier.boundName with
      | some id => s.bindCell id (Address.row r.index) rows
      | none => s
    r.cells.foldl
      (fun s cell => match cell.modifier.boundName with
        | some id => s.bindCell id (Address.cell cell.column cell.row) rows
        | none => s) s
  else
    s

end Row

namespace Sheet

/-- Binds the variables of all rows. -/
def bind (t : Sheet) (s : Scope) : Except CompileError (Sheet × Scope) :=
  match t.requirePhase .expanded "bind variables of" with
  | .error e => .error e
  | .ok () => .ok ({ t with phase := .bound }, t.rows.foldl Row.bind s)

/-- The cell with its formula resolved. -/
def resolveCell (filename : String) (s : Scope) (cell : Cell) : Except CompileError Cell :=
  match cell.formula with
  | none => .ok cell
  | some f =>
    match s.resolve cell.position f with
    | .ok f => .ok { cell with formula := some f }
    | .error e =>
      .error (.cell { filename := filename, line := cell.line, row := cell.row,
                      column := cell.column } e)

/-- The items with `f` applied up to the first failure, and the failure. -/
def mapUntilError {α ε : Type} (f : α → α × Option ε) : List α → List α × Option ε
  | [] => ([], none)
  | item :: rest =>
    match f item with
    | (item, some e) => (item :: rest, some e)
    | (item, none) =>
      let (rest, failure) := mapUntilError f rest
      (item :: rest, failure)

/-- A cell with its formula resolved, or as it was and the failure. -/
def attemptCell (filename : String) (s : Scope) (cell : Cell) : Cell × Option CompileError :=
  match resolveCell filename s cell with
  | .ok cell => (cell, none)
  | .error e => (cell, some e)

/-- A row with its cells resolved up to the first failure. -/
def attemptRow (filename : String) (s : Scope) (row : Row) : Row × Option CompileError :=
  let (cells, failure) := mapUntilError (attemptCell filename s) row.cells
  ({ row with cells := cells }, failure)

/-- Resolves the formulas row by row. A failure leaves the cells before it resolved. -/
def resolve (t : Sheet) (s : Scope) : Sheet × Option CompileError :=
  match t.requirePhase .bound "resolve" with
  | .error e => (t, some e)
  | .ok () =>
    match mapUntilError (attemptRow t.filename s) t.rows with
    | (rows, some e) => ({ t with rows := rows }, some e)
    | (rows, none) => ({ t with rows := rows, phase := .resolved }, none)

end Sheet
end Spreadsheet
