/-!
Operators and how strongly they bind.
-/
namespace Spreadsheet.Operator

/-- The operators between two operands, the weakest level first. Those of one level group to the
left. -/
def levels : List (List String) :=
  [["=", "<>", "<", ">", "<=", ">="], ["&"], ["+", "-"], ["*", "/"], ["^"]]

/-- How strongly an operator binds its two operands; greater is stronger. -/
def strength? (operator : String) : Option Nat :=
  (levels.findIdx? fun level => level.contains operator).map (· + 1)

/-- An operator in front of its operand binds more strongly than any between two. -/
def unaryStrength : Nat :=
  6

end Spreadsheet.Operator
