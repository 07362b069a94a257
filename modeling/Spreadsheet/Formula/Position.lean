import Spreadsheet.Text.Digits

/-!
Places in a sheet: the cell at which a formula is looked at, and ranges of rows. All indices are
counted from zero; only what is printed counts from one.
-/
namespace Spreadsheet

/-- The cell at which a formula is looked at, and the source line it came from. -/
structure Position where
  row : Nat := 0
  column : Nat := 0
  line : Nat := 0
deriving DecidableEq, Inhabited

/-- The rows of an expanded row; without a last row they go on to the end of the sheet. -/
structure RowRange where
  first : Nat
  last : Option Nat
deriving DecidableEq, Inhabited

namespace RowRange

def contains (r : RowRange) (row : Nat) : Bool :=
  r.first ≤ row && match r.last with
    | some last => row ≤ last
    | none => true

def render (r : RowRange) : String :=
  String.ofList (Text.decimal (r.first + 1) ++ '-' ::
    match r.last with
    | some last => Text.decimal (last + 1)
    | none => [])

end RowRange
end Spreadsheet
