import Spreadsheet.Error
import Spreadsheet.FileError
import Spreadsheet.Modifier.Setting
import Spreadsheet.Options

/-!
What can go wrong in a compilation, and where.
-/
namespace Spreadsheet

/-- How far a sheet has come. -/
inductive Phase where
  | parsed
  | expanded
  | bound
  | resolved
deriving DecidableEq, Inhabited

namespace Phase

def name : Phase → String
  | .parsed => "Parsed"
  | .expanded => "Expanded"
  | .bound => "Bound"
  | .resolved => "Resolved"

end Phase

/-- A cell in a source file. Rows and columns are counted from zero, lines from one. -/
structure Place where
  filename : String
  line : Nat
  row : Nat
  column : Nat
deriving DecidableEq, Inhabited

namespace Place

/-- How messages name a place; everything is counted from one. -/
def render (p : Place) : String :=
  p.filename ++ ":" ++ toString p.line ++ ": row " ++ toString (p.row + 1) ++ ", cell " ++
    toString (p.column + 1)

end Place

inductive CompileError where
  | file (error : FileError)
  /-- The definition section cannot be read. -/
  | definitionSection (filename : String) (line : Nat) (error : FormulaError)
  /-- The definitions cannot be put in order. -/
  | definitions (filename : String) (error : FormulaError)
  | cell (place : Place) (error : FormulaError)
  | modifier (place : Place) (error : ModifierError)
  /-- A second row is repeated without an amount. -/
  | secondUnbounded (place : Place) (firstLine : Nat)
  | option (fault : OptionFault)
  /-- A step was asked for in the wrong phase. -/
  | wrongPhase (action : String) (phase expected : Phase)
  | notResolved (phase : Phase)
deriving DecidableEq, Inhabited

namespace CompileError

def message : CompileError → String
  | .file error => "IO error: " ++ error.message
  | .definitionSection filename line error =>
    filename ++ ":" ++ toString line ++ ": " ++ error.message
  | .definitions filename error => filename ++ ": in the code section: " ++ error.message
  | .cell place error => place.render ++ ": " ++ error.message
  | .modifier place error => place.render ++ ": " ++ error.message
  | .secondUnbounded place firstLine =>
    place.render ++ ": only one row may use an unbounded expand, but line " ++
      toString firstLine ++ " already does"
  | .option fault => "Invalid option: " ++ fault.message
  | .wrongPhase action phase expected =>
    "Compiler error: cannot " ++ action ++ " a template that is " ++ phase.name ++
      ", expected " ++ expected.name
  | .notResolved phase =>
    "Compiler error: cannot write a template that is still " ++ phase.name

/-- The failure of a formula behind this one, if there is one. -/
def formulaError? : CompileError → Option FormulaError
  | .definitionSection _ _ error => some error
  | .definitions _ error => some error
  | .cell _ error => some error
  | _ => none

def category : CompileError → ErrorCategory
  | .definitionSection _ _ error => error.category
  | .definitions _ error => error.category
  | .cell _ error => error.category
  | .modifier .. => .modifier
  | .secondUnbounded .. => .modifier
  | _ => .compiler

end CompileError
end Spreadsheet
