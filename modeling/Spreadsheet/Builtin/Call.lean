import Spreadsheet.Error
import Spreadsheet.Formula.Render

/-!
Calls of the built-in functions. Each takes one reference with a column and moves it to a row near
the cell at which it is called.
-/
namespace Spreadsheet

namespace Formula

/-- The address that a formula is or spells. -/
def address? : Formula → Option Address
  | .literal (.cell address _) => some address
  | .name id => Address.read id
  | _ => none

end Formula

namespace BuiltinFunction

/-- The single argument of a call, as an address with a column. -/
def columnArgument (f : BuiltinFunction) (arguments : List Formula) :
    Except FormulaError Address :=
  match arguments with
  | [argument] =>
    match argument.address? with
    | some address =>
      if address.first.column.isSome && !address.isRange then .ok address
      else .error (.invalidArgument f.name (.notColumn (argument.render {})))
    | none => .error (.invalidArgument f.name (.notColumn (argument.render {})))
  | _ => .error (.argumentCount f.name 1 arguments.length)

/-- The row that a function moves its argument to. -/
def targetRow (p : Position) : BuiltinFunction → Except FormulaError Nat
  | .cellAbove =>
    match p.row with
    | 0 => .error (.invalidArgument BuiltinFunction.cellAbove.name .noRowAbove)
    | row + 1 => .ok row
  | .cellAdjacent => .ok p.row
  | .cellBelow => .ok (p.row + 1)

/-- Calls the function at the cell `p`. -/
def call (p : Position) (f : BuiltinFunction) (arguments : List Formula) :
    Except FormulaError Formula :=
  match f.columnArgument arguments with
  | .error e => .error e
  | .ok address =>
    match f.targetRow p with
    | .error e => .error e
    | .ok row => .ok (.cell (address.withRow row))

end BuiltinFunction

namespace Builtin

/-- Evaluates what the language provides at the cell `p`. Variables look at no arguments. -/
def call (p : Position) (arguments : List Formula) : Builtin → Except FormulaError Formula
  | .ofVariable v => .ok (.literal (v.value p))
  | .ofFunction f => f.call p arguments

end Builtin
end Spreadsheet
