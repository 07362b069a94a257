import Spreadsheet.Address.Basic
import Spreadsheet.Dictionary
import Spreadsheet.Formula.Date
import Spreadsheet.Formula.Position
import Spreadsheet.Number.Basic
import Spreadsheet.Text.Case

/-!
Formula trees. Leaves are literals, names still to be looked up, and built-in values that depend
on the cell they are looked at from; inner nodes are calls and the bodies of functions.
-/
namespace Spreadsheet

/-- A leaf that stands for itself. A cell bound inside an expanded row knows that row's range and
follows the row it is looked at from. -/
inductive Literal where
  | number (value : Number)
  | text (value : String)
  | boolean (value : Bool)
  | date (value : Date)
  | cell (address : Address) (rows : Option RowRange)
deriving DecidableEq, Inhabited

/-- The built-in variables. -/
inductive BuiltinVariable where
  | cellNumber
  | cellReference
  | rowNumber
  | rowReference
  | rowAbove
  | rowBelow
deriving DecidableEq, Inhabited

/-- The built-in functions. -/
inductive BuiltinFunction where
  | cellAbove
  | cellAdjacent
  | cellBelow
deriving DecidableEq, Inhabited

/-- What the language itself provides. -/
inductive Builtin where
  | ofVariable (v : BuiltinVariable)
  | ofFunction (f : BuiltinFunction)
deriving DecidableEq, Inhabited

/-- How a call is written: `SUM(a, b)`, or as an operator with its operands. -/
inductive CallForm where
  | named
  | operator
deriving DecidableEq, Inhabited

/-- A formula. A `name` is a variable, or a cell if nothing defines it. -/
inductive Formula where
  | literal (value : Literal)
  | name (id : String)
  | call (form : CallForm) (id : String) (arguments : List Formula)
  | function (id : String) (formals : List String) (body : Formula)
  | builtin (value : Builtin)
deriving Inhabited

/-- A function that a definition section provides. -/
structure Function where
  id : String
  formals : List String
  body : Formula
deriving Inhabited

namespace Literal

/-- Equality of literals; numbers are compared by value. -/
def same : Literal → Literal → Bool
  | .number x, .number y => x.same y
  | a, b => a == b

end Literal

namespace Formula

def number (value : Number) : Formula :=
  .literal (.number value)

def text (value : String) : Formula :=
  .literal (.text value)

def cell (address : Address) : Formula :=
  .literal (.cell address none)

/-- A name, which is kept in lower case. -/
def reference (id : String) : Formula :=
  .name (Text.lower id)

/-- A call by name, which is kept in lower case. -/
def namedCall (id : String) (arguments : List Formula) : Formula :=
  .call .named (Text.lower id) arguments

/-- An operator between two operands. -/
def binary (operator : String) (left right : Formula) : Formula :=
  .call .operator operator [left, right]

/-- An operator in front of its operand. -/
def unary (operator : String) (operand : Formula) : Formula :=
  .call .operator operator [operand]

/-- The formulas directly below the root. -/
def children : Formula → List Formula
  | .call _ _ arguments => arguments
  | .function _ _ body => [body]
  | _ => []

mutual

/-- Every formula in the tree, each before those below it. -/
def nodes : Formula → List Formula
  | .call form id arguments => .call form id arguments :: nodesAll arguments
  | .function id formals body => .function id formals body :: nodes body
  | f => [f]
termination_by structural f => f

/-- Every formula in the trees, one tree after the other. -/
def nodesAll : List Formula → List Formula
  | [] => []
  | f :: rest => nodes f ++ nodesAll rest
termination_by structural fs => fs

end

mutual

/-- Equality of trees; numbers are compared by value. -/
def same : Formula → Formula → Bool
  | .literal a, .literal b => a.same b
  | .name a, .name b => a == b
  | .call form id arguments, .call form' id' arguments' =>
    form == form' && id == id' && sameAll arguments arguments'
  | .function id formals body, .function id' formals' body' =>
    id == id' && formals == formals' && same body body'
  | .builtin a, .builtin b => a == b
  | _, _ => false
termination_by structural f => f

/-- Equality of lists of trees. -/
def sameAll : List Formula → List Formula → Bool
  | [], [] => true
  | f :: rest, f' :: rest' => same f f' && sameAll rest rest'
  | _, _ => false
termination_by structural fs => fs

end

mutual

/-- The tree with every name that `values` knows replaced by its value. The formals of a function
hide outer names inside its body. -/
def substitute (values : String → Option Formula) : Formula → Formula
  | .name id => (values id).getD (.name id)
  | .call form id arguments => .call form id (substituteAll values arguments)
  | .function id formals body =>
    .function id formals
      (substitute (fun name => if formals.contains name then none else values name) body)
  | f => f
termination_by structural f => f

/-- Substitution in every tree of a list. -/
def substituteAll (values : String → Option Formula) : List Formula → List Formula
  | [] => []
  | f :: rest => substitute values f :: substituteAll values rest
termination_by structural fs => fs

end

theorem nodesAll_eq (fs : List Formula) : nodesAll fs = fs.flatMap nodes := by
  induction fs with
  | nil => rfl
  | cons f rest ih => simp [nodesAll, ih]

theorem substituteAll_eq (values : String → Option Formula) (fs : List Formula) :
    substituteAll values fs = fs.map (substitute values) := by
  induction fs with
  | nil => rfl
  | cons f rest ih => simp [substituteAll, ih]

end Formula

namespace Function

/-- A function with its name and formals in lower case. -/
def define (id : String) (formals : List String) (body : Formula) : Function :=
  { id := Text.lower id, formals := formals.map Text.lower, body := body }

/-- The tree that stands for the function itself. -/
def toFormula (f : Function) : Formula :=
  .function f.id f.formals f.body

/-- The body with each formal replaced by its argument. Of formals with one name the last
counts. -/
def inline (f : Function) (arguments : List Formula) : Formula :=
  f.body.substitute (Dictionary.ofList (f.formals.zip arguments)).get?

end Function
end Spreadsheet
