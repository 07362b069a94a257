/-!
References to cells. An address names a cell, a whole column, a whole row, or a range between two
corners, on this sheet or a named one. Rows and columns are counted from zero.
-/
namespace Spreadsheet

/-- One corner of an address. A fixed axis is marked with `$` where it is written. -/
structure Corner where
  column : Option Nat := none
  row : Option Nat := none
  columnFixed : Bool := false
  rowFixed : Bool := false
deriving DecidableEq, Inhabited

namespace Corner

/-- Whether neither axis is given. -/
def isEmpty (c : Corner) : Bool :=
  c.column.isNone && c.row.isNone

end Corner

/-- A reference to a cell, a column, a row or, when the last corner is not empty, a range. -/
structure Address where
  sheet : Option String := none
  first : Corner := {}
  last : Corner := {}
deriving DecidableEq, Inhabited

namespace Address

/-- The address of a single cell. -/
def cell (column row : Nat) : Address :=
  { first := { column := some column, row := some row } }

/-- The address of a whole row. -/
def row (row : Nat) : Address :=
  { first := { row := some row } }

def isRange (a : Address) : Bool :=
  !a.last.isEmpty

/-- Whether the address names exactly one cell. -/
def isCell (a : Address) : Bool :=
  a.first.column.isSome && a.first.row.isSome && !a.isRange

/-- The address moved to another row, its column and sheet kept. -/
def withRow (a : Address) (row : Nat) : Address :=
  { a with first := { a.first with row := some row } }

/-- What is said of an address without axes. -/
def needsAxis : String :=
  "a cell reference needs a row or a column"

/-- The address with the given axes; at least one is needed. -/
def ofAxes (column row : Option Nat) : Option Address :=
  if column.isNone && row.isNone then none
  else some { first := { column := column, row := row } }

end Address
end Spreadsheet
