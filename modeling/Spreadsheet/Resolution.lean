import Spreadsheet.Builtin.Call
import Spreadsheet.Scope

/-!
Resolving the formula of a cell. Each pass replaces every name and every call of a known function
once; passes go on until nothing is left to replace. Functions that nobody defines belong to the
spreadsheet and stay as they are.
-/
namespace Spreadsheet

namespace Function

/-- The body for the given arguments, as many as there are formals. -/
def apply (f : Function) (arguments : List Formula) : Except FormulaError Formula :=
  if arguments.length = f.formals.length then .ok (f.inline arguments)
  else .error (.argumentCount f.id f.formals.length arguments.length)

end Function

namespace Scope

/-- What a pass puts in the place of a name. -/
def resolveName (s : Scope) (p : Position) (id : String) : Except FormulaError Formula :=
  if s.isVariable id then
    match s.lookupVariable id p with
    | .ok (.builtin value) => value.call p []
    | result => result
  else
    match Address.read id with
    | some address =>
      if address.first.row.isSome then .ok (.cell address) else .error (.undefinedVariable id)
    | none => .error (.undefinedVariable id)

mutual

/-- One pass over a formula. -/
def pass (s : Scope) (p : Position) : Formula → Except FormulaError Formula
  | .name id => s.resolveName p id
  | .call form id arguments =>
    if s.isFunction id then
      match s.lookupFunction id with
      | .error e => .error e
      | .ok (.defined f) => f.apply arguments
      | .ok (.builtin f) =>
        match passArguments s p arguments with
        | .error e => .error e
        | .ok arguments => f.call p arguments
    else
      match passAll s p arguments with
      | .error e => .error e
      | .ok arguments => .ok (.call form id arguments)
  | .builtin value => value.call p []
  | f => .ok f
termination_by structural f => f

/-- One pass over each formula of a list. -/
def passAll (s : Scope) (p : Position) : List Formula → Except FormulaError (List Formula)
  | [] => .ok []
  | f :: rest =>
    match pass s p f with
    | .error e => .error e
    | .ok f =>
      match passAll s p rest with
      | .error e => .error e
      | .ok rest => .ok (f :: rest)
termination_by structural fs => fs

/-- One pass over the arguments of a built-in function. The name of a column that is no variable
is the argument itself. -/
def passArguments (s : Scope) (p : Position) : List Formula → Except FormulaError (List Formula)
  | [] => .ok []
  | f :: rest =>
    match if f.isBareAddress s.isVariable then .ok f else pass s p f with
    | .error e => .error e
    | .ok f =>
      match passArguments s p rest with
      | .error e => .error e
      | .ok rest => .ok (f :: rest)
termination_by structural fs => fs

end

/-- Applies the function of the given name at the cell `p`. -/
def applyFunction (s : Scope) (p : Position) (id : String) (arguments : List Formula) :
    Except FormulaError Formula :=
  match s.lookupFunction id with
  | .error e => .error e
  | .ok (.defined f) => f.apply arguments
  | .ok (.builtin f) => f.call p arguments

/-- What a pass would replace, in the order of the text: names, and calls of known functions. -/
def pending (s : Scope) (f : Formula) : List String :=
  f.nodes.filterMap fun
    | .name id => some id
    | .call _ id _ => if s.isFunction id then some (id ++ "()") else none
    | _ => none

/-- At most `passes` passes over a formula. It is an error if one of them changes nothing, or if
they are used up. -/
def resolveWithin (s : Scope) (p : Position) : (passes : Nat) → Formula →
    Except FormulaError Formula
  | 0, f => .error (.didNotConverge (s.pending f))
  | passes + 1, f =>
    match s.pending f with
    | [] => .ok f
    | left =>
      match s.pass p f with
      | .error e => .error e
      | .ok next =>
        if next.same f then .error (.didNotConverge left) else resolveWithin s p passes next

/-- Functions that call each other without end are given up after this many passes. -/
def maxPasses : Nat :=
  256

/-- Resolves a formula as seen from the cell `p`. -/
def resolve (s : Scope) (p : Position) (f : Formula) : Except FormulaError Formula :=
  s.resolveWithin p maxPasses f

end Scope
end Spreadsheet
