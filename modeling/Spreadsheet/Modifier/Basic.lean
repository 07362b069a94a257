import Spreadsheet.Formula.Position
import Spreadsheet.Modifier.Color

/-!
Modifiers: how a cell or a row is shown, which variable it is bound to and how often a row is
repeated.
-/
namespace Spreadsheet

inductive HorizontalAlign where
  | left
  | center
  | right
deriving DecidableEq, Inhabited

inductive VerticalAlign where
  | top
  | center
  | bottom
deriving DecidableEq, Inhabited

inductive BorderSide where
  | all
  | top
  | bottom
  | left
  | right
deriving DecidableEq, Inhabited

inductive BorderStyle where
  | dashed
  | dotted
  | double
  | solid
  | solidMedium
  | solidThick
deriving DecidableEq, Inhabited

inductive TextFormat where
  | bold
  | italic
  | strikethrough
  | underline
deriving DecidableEq, Inhabited

inductive NumberFormat where
  | currency
  | date
  | dateTime
  | number
  | percent
  | text
  | time
  | timeDuration
deriving DecidableEq, Inhabited

/-- How often a row is repeated; without an amount, down to the end of the sheet. Once the row has
been placed, also its first and last copy. -/
structure Expand where
  amount : Option Nat
  placed : Option (Nat × Nat) := none
deriving DecidableEq, Inhabited

namespace Expand

def isUnbounded (e : Expand) : Bool :=
  e.amount.isNone

/-- The rows on which variables bound inside can be seen. Without an amount they have no end. -/
def rows? (e : Expand) : Option RowRange :=
  e.placed.map fun (first, last) =>
    { first := first, last := if e.isUnbounded then none else some last }

end Expand

/-- All settings of a cell or a row. -/
structure Modifier where
  horizontalAlign : Option HorizontalAlign := none
  verticalAlign : Option VerticalAlign := none
  borders : List BorderSide := []
  borderColor : Option Color := none
  borderStyle : Option BorderStyle := none
  color : Option Color := none
  fontColor : Option Color := none
  fontFamily : Option String := none
  fontSize : Option Nat := none
  formats : List TextFormat := []
  note : Option String := none
  numberFormat : Option NumberFormat := none
  validate : Option String := none
  boundName : Option String := none
  expand : Option Expand := none
  freeze : Bool := false
deriving DecidableEq, Inhabited

namespace Modifier

/-- What a row hands down to its cells: all but its own binding and what makes sense only for
rows. -/
def cellDefaults (m : Modifier) : Modifier :=
  { m with boundName := none, expand := none, freeze := false }

def isEmpty (m : Modifier) : Bool :=
  m == {}

end Modifier
end Spreadsheet
