import Spreadsheet.Formula.Basic
import Spreadsheet.Number.Decimal

/-!
The names of the built-in variables and functions, and the values of the variables.
-/
namespace Spreadsheet

namespace BuiltinVariable

def all : List BuiltinVariable :=
  [.cellNumber, .cellReference, .rowNumber, .rowReference, .rowAbove, .rowBelow]

def name : BuiltinVariable → String
  | .cellNumber => "cellnum"
  | .cellReference => "cellref"
  | .rowNumber => "rownum"
  | .rowReference => "rowref"
  | .rowAbove => "rowabove"
  | .rowBelow => "rowbelow"

/-- The built-in variable of the given name. -/
def named? (id : String) : Option BuiltinVariable :=
  all.find? fun v => v.name == id

/-- The value at a cell. Numbers count from one; the row above the first row is the first. -/
def value (p : Position) : BuiltinVariable → Literal
  | .cellNumber => .number (Number.ofNat (p.column + 1))
  | .cellReference => .cell (Address.cell p.column p.row) none
  | .rowNumber => .number (Number.ofNat (p.row + 1))
  | .rowReference => .cell (Address.row p.row) none
  | .rowAbove => .cell (Address.row (p.row - 1)) none
  | .rowBelow => .cell (Address.row (p.row + 1)) none

end BuiltinVariable

namespace BuiltinFunction

def all : List BuiltinFunction :=
  [.cellAbove, .cellAdjacent, .cellBelow]

def name : BuiltinFunction → String
  | .cellAbove => "cellabove"
  | .cellAdjacent => "celladjacent"
  | .cellBelow => "cellbelow"

/-- The built-in function of the given name. -/
def named? (id : String) : Option BuiltinFunction :=
  all.find? fun f => f.name == id

end BuiltinFunction

namespace Builtin

def name : Builtin → String
  | .ofVariable v => v.name
  | .ofFunction f => f.name

end Builtin
end Spreadsheet
