import Spreadsheet.Builtin
import Spreadsheet.Dependency.Order
import Spreadsheet.Formula.Parser

/-!
The definitions of one source file. Names are compared in lower case. What the file defines hides
what the language provides.
-/
namespace Spreadsheet

structure Scope where
  /-- The variables with their values. -/
  values : Dictionary Formula := .empty
  functions : Dictionary Function := .empty
deriving Inhabited

/-- What a function name stands for. -/
inductive FunctionMeaning where
  | defined (f : Function)
  | builtin (f : BuiltinFunction)
deriving Inhabited

namespace Formula

/-- The rows on which a variable with this value can be seen, if they are limited. -/
def visibleRows? : Formula → Option RowRange
  | .literal (.cell _ rows) => rows
  | _ => none

end Formula

namespace Scope

/-- Defines a variable. The last definition counts. -/
def defineVariable (s : Scope) (id : String) (value : Formula) : Scope :=
  { s with values := s.values.insert (Text.lower id) value }

/-- Defines a function under a name. The last definition counts. -/
def defineFunction (s : Scope) (id : String) (f : Function) : Scope :=
  { s with functions := s.functions.insert (Text.lower id) f }

/-- Binds a variable to a cell, which is seen only on the given rows if there are any. -/
def bindCell (s : Scope) (id : String) (address : Address) (rows : Option RowRange) : Scope :=
  s.defineVariable id (.literal (.cell address rows))

/-- Adds a definition section, its functions first. -/
def addDefinitions (s : Scope) (d : Definitions) : Scope :=
  let withFunctions := d.functions.foldl (fun s f => s.defineFunction f.id f) s
  d.values.foldl (fun s (id, value) => s.defineVariable id value) withFunctions

/-- Whether the name is a variable, of the file or of the language. -/
def isVariable (s : Scope) (id : String) : Bool :=
  let id := Text.lower id
  s.values.contains id || (BuiltinVariable.named? id).isSome

/-- Whether the name is a function, of the file or of the language. -/
def isFunction (s : Scope) (id : String) : Bool :=
  let id := Text.lower id
  s.functions.contains id || (BuiltinFunction.named? id).isSome

/-- Whether the name is a variable that can be seen from the row of `p`. -/
def isInScope (s : Scope) (id : String) (p : Position) : Bool :=
  let id := Text.lower id
  match s.values.get? id with
  | some value =>
    match value.visibleRows? with
    | some rows => rows.contains p.row
    | none => true
  | none => (BuiltinVariable.named? id).isSome

/-- The value of a variable as seen from `p`. A built-in variable is not evaluated yet. -/
def lookupVariable (s : Scope) (id : String) (p : Position) : Except FormulaError Formula :=
  let id := Text.lower id
  match s.values.get? id with
  | some value =>
    match value.visibleRows? with
    | some rows => if rows.contains p.row then .ok value else .error (.outOfScope id rows p.row)
    | none => .ok value
  | none =>
    match BuiltinVariable.named? id with
    | some v => .ok (.builtin (.ofVariable v))
    | none => .error (.undefinedVariable id)

/-- What a function name stands for. -/
def lookupFunction (s : Scope) (id : String) : Except FormulaError FunctionMeaning :=
  let id := Text.lower id
  match s.functions.get? id with
  | some f => .ok (.defined f)
  | none =>
    match BuiltinFunction.named? id with
    | some f => .ok (.builtin f)
    | none => .error (.undefinedFunction id)

/-- Puts the values found so far in the place of the given variables, one after another. -/
def settle (settled : Dictionary Formula) (dependencies : List String) (value : Formula) :
    Formula :=
  dependencies.foldl
    (fun value id => value.substitute fun name => if name = id then settled.get? id else none)
    value

/-- The values of the variables in `order`, each free of the variables before it. -/
def settleAll (values : Dictionary Formula) (g : DependencyGraph) (order : List String) :
    Dictionary Formula :=
  order.foldl
    (fun settled id =>
      match values.get? id with
      | some value => settled.insert id (settle settled (g.dependencies id) value)
      | none => settled)
    .empty

/-- Replaces every variable by its value freed of all other variables. -/
def resolveVariables (s : Scope) : Except FormulaError Scope :=
  match DependencyGraph.ofVariables s.values with
  | .error e => .error e
  | .ok g =>
    match g.topologicalOrder with
    | .error e => .error e
    | .ok order => .ok { s with values := settleAll s.values g order }

/-- Resolves the variables where they are. A scope with variables that cannot be resolved stays as
it is. -/
def resolveInPlace (s : Scope) : Scope × Option FormulaError :=
  match s.resolveVariables with
  | .error e => (s, some e)
  | .ok resolved => (resolved, none)

end Scope
end Spreadsheet
