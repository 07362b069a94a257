import Spreadsheet.Address.A1
import Spreadsheet.Builtin

/-!
The variables that a formula refers to. Names that need no definition do not count: built-in
variables, names that spell a cell, and column names given to built-in functions.
-/
namespace Spreadsheet.Formula

/-- Whether a name has a meaning without being defined. -/
def resolvesAlone (id : String) : Bool :=
  (BuiltinVariable.named? id).isSome ||
    match Address.read id with
    | some address => address.first.row.isSome
    | none => false

/-- Whether an argument of a built-in function is a column name that nothing defines. -/
def isBareAddress (defined : String → Bool) : Formula → Bool
  | .name id => !defined id && (Address.read id).isSome
  | _ => false

/-- The names found so far and behind them `id`, unless it is one of them. -/
def addName (found : List String) (id : String) : List String :=
  if found.contains id then found else found ++ [id]

mutual

/-- Adds the variables that a formula refers to, in the order of the text, to those found so far.
The formals of a function are not its variables. -/
def collect (defined : String → Bool) (found : List String) : Formula → List String
  | .name id => if defined id || !resolvesAlone id then addName found id else found
  | .call _ id arguments =>
    if (BuiltinFunction.named? id).isSome then collectArguments defined found arguments
    else collectAll defined found arguments
  | .function _ formals body =>
    ((collect defined [] body).filter fun id => !formals.contains id).foldl addName found
  | _ => found
termination_by structural f => f

/-- Adds the variables of a list of formulas. -/
def collectAll (defined : String → Bool) (found : List String) : List Formula → List String
  | [] => found
  | f :: rest => collectAll defined (collect defined found f) rest
termination_by structural fs => fs

/-- Adds the variables in the arguments of a built-in function. -/
def collectArguments (defined : String → Bool) (found : List String) :
    List Formula → List String
  | [] => found
  | f :: rest =>
    collectArguments defined (if isBareAddress defined f then found else collect defined found f)
      rest
termination_by structural fs => fs

end

/-- The variables that a formula refers to, each once, in the order of their first occurrence. -/
def references (defined : String → Bool) (f : Formula) : List String :=
  collect defined [] f

end Spreadsheet.Formula
