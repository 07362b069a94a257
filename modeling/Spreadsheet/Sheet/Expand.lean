import Spreadsheet.Sheet.Basic

/-!
Repeating rows. A row with an amount becomes that many copies of itself; one without fills the
sheet. Every copy knows the rows that all the copies together take up.
-/
namespace Spreadsheet

namespace Row

def isUnbounded (r : Row) : Bool :=
  match r.modifier.expand with
  | some expand => expand.isUnbounded
  | none => false

/-- How many rows a row becomes; one without an amount is not counted. -/
def fixedAmount (r : Row) : Nat :=
  match r.modifier.expand with
  | some expand => expand.amount.getD 0
  | none => 1

/-- The copies of a row from `first` on. -/
def copies (r : Row) (expand : Expand) (first amount : Nat) : List Row :=
  let placed : Expand := { expand with placed := some (first, first + amount - 1) }
  let row : Row := { r with modifier := { r.modifier with expand := some placed } }
  (List.range amount).map fun copy => row.moveTo (first + copy)

end Row

namespace Sheet

/-- Succeeds in the given phase only. -/
def requirePhase (t : Sheet) (expected : Phase) (action : String) : Except CompileError Unit :=
  if t.phase = expected then .ok () else .error (.wrongPhase action t.phase expected)

/-- At most one row may be repeated without an amount. -/
def checkUnbounded (t : Sheet) : Except CompileError Unit :=
  match t.rows.filter (·.isUnbounded) with
  | first :: second :: _ =>
    .error (.secondUnbounded
      { filename := t.filename, line := second.line, row := second.index, column := 0 } first.line)
  | _ => .ok ()

/-- How many rows there will be besides the copies of a row without an amount. -/
def fixedRows (t : Sheet) : Nat :=
  t.rows.foldl (fun count row => count + row.fixedAmount) 0

/-- How many copies a row without an amount gets: enough to fill the sheet, and at least one. -/
def fillAmount (t : Sheet) : Nat :=
  max 1 (sheetRows - (t.rowOffset + t.fixedRows))

/-- The rows with all copies, numbered from `next` on. -/
def layout (fill : Nat) : (next : Nat) → List Row → List Row
  | _, [] => []
  | next, row :: rest =>
    match row.modifier.expand with
    | none => row.moveTo next :: layout fill (next + 1) rest
    | some expand =>
      let amount := expand.amount.getD fill
      row.copies expand next amount ++ layout fill (next + amount) rest

/-- Puts copies in the place of every repeated row and numbers all rows. -/
def expand (t : Sheet) : Except CompileError Sheet :=
  match t.requirePhase .parsed "expand" with
  | .error e => .error e
  | .ok () =>
    match t.checkUnbounded with
    | .error e => .error e
    | .ok () =>
      .ok { t with rows := layout t.fillAmount t.rowOffset t.rows, phase := .expanded }

end Sheet
end Spreadsheet
