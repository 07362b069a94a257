import Spreadsheet.Formula.Position
import Spreadsheet.Token.Basic

/-!
What can go wrong with formulas and definitions, and the wording of each failure.
-/
namespace Spreadsheet

/-- The broad kinds of failure. -/
inductive ErrorCategory where
  | grammar
  | formula
  | modifier
  | compiler
deriving DecidableEq, Inhabited

/-- Why a text is not a formula or a definition section. -/
inductive SyntaxFault where
  | unrecognized (c : Char)
  | missingEquals
  | emptyFormula
  | unexpected (found : Token)
  | unexpectedAfter (found : Token)
  | expected (what : String) (found : Token)
  | invalidDate
  | invalidAddress (text : String)
  | duplicateFormal (name function : String)
deriving DecidableEq, Inhabited

namespace SyntaxFault

def message : SyntaxFault → String
  | .unrecognized c => "unrecognized input `" ++ String.singleton c ++ "`"
  | .missingEquals => "a formula must start with `=`"
  | .emptyFormula => "empty formula"
  | .unexpected found => "unexpected " ++ found.describe
  | .unexpectedAfter found => "unexpected " ++ found.describe ++ " after expression"
  | .expected what found => "expected " ++ what ++ ", found " ++ found.describe
  | .invalidDate => "invalid date: input is out of range"
  | .invalidAddress text => "Invalid cell reference: " ++ text
  | .duplicateFormal name function =>
    "duplicate argument `" ++ name ++ "` in function " ++ function

end SyntaxFault

/-- A fault and the byte at which it was met. -/
structure Misfit where
  fault : SyntaxFault
  offset : Nat
deriving DecidableEq, Inhabited

/-- A misfit together with the text from there on. -/
structure SyntaxError where
  fault : SyntaxFault
  offset : Nat
  remaining : String
deriving DecidableEq, Inhabited

/-- Why a built-in function refuses its argument. -/
inductive ArgumentFault where
  | notColumn (text : String)
  | noRowAbove
deriving DecidableEq, Inhabited

namespace ArgumentFault

def message : ArgumentFault → String
  | .notColumn text => "expected a cell or column reference, got `" ++ text ++ "`"
  | .noRowAbove => "there is no row above the first row"

end ArgumentFault

/-- Failures of reading, ordering and resolving formulas. -/
inductive FormulaError where
  | malformed (error : SyntaxError)
  | undefinedVariable (id : String)
  | undefinedVariables (ids : List String)
  | undefinedFunction (id : String)
  | argumentCount (id : String) (expected given : Nat)
  | invalidArgument (id : String) (fault : ArgumentFault)
  | invalidAddress (text : String)
  | cyclicDependency (path : List String)
  | outOfScope (id : String) (rows : RowRange) (row : Nat)
  | didNotConverge (ids : List String)
deriving DecidableEq, Inhabited

namespace FormulaError

/-- The wording of a failure. Rows are counted from one. -/
def message : FormulaError → String
  | .malformed error =>
    "Syntax error: " ++ error.fault.message ++ " (at `" ++ error.remaining ++ "`)"
  | .undefinedVariable id => "Undefined variable: " ++ id
  | .undefinedVariables ids => "Undefined variables: " ++ ", ".intercalate ids
  | .undefinedFunction id => "Undefined function: " ++ id
  | .argumentCount id expected given =>
    "Function " ++ id ++ " expects " ++ toString expected ++
      " argument(s) but was called with " ++ toString given
  | .invalidArgument id fault => "Invalid argument to " ++ id ++ ": " ++ fault.message
  | .invalidAddress text => "Invalid cell reference: " ++ text
  | .cyclicDependency path => "Cyclic variable dependency: " ++ " -> ".intercalate path
  | .outOfScope id rows row =>
    "Variable " ++ id ++ " is only in scope for rows " ++ rows.render ++
      ", but was referenced from row " ++ toString (row + 1)
  | .didNotConverge ids => "Reference resolution did not converge: " ++ ", ".intercalate ids

def category : FormulaError → ErrorCategory
  | .malformed _ => .grammar
  | .outOfScope .. => .modifier
  | _ => .formula

end FormulaError
end Spreadsheet
