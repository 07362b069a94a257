import Spreadsheet.Dependency.References
import Spreadsheet.Error

/-!
Which variables refer to which.
-/
namespace Spreadsheet

/-- Each variable with the variables that it refers to. -/
structure DependencyGraph where
  edges : Dictionary (List String)
deriving Inhabited

namespace DependencyGraph

/-- All variables, in increasing order. -/
def nodes (g : DependencyGraph) : List String :=
  g.edges.keys

/-- The variables that `id` refers to. -/
def dependencies (g : DependencyGraph) (id : String) : List String :=
  (g.edges.get? id).getD []

/-- Adds a variable and its dependencies, and every dependency that is not there yet. -/
def addEdges (edges : Dictionary (List String)) (id : String) (targets : List String) :
    Dictionary (List String) :=
  let withTargets := targets.foldl
    (fun edges target => if edges.contains target then edges else edges.insert target []) edges
  withTargets.insert id targets

/-- The graph with the given edges. Of entries for one variable the last counts. -/
def ofEdges (edges : List (String × List String)) : DependencyGraph :=
  ⟨edges.foldl (fun edges entry => addEdges edges entry.1 entry.2) .empty⟩

/-- The graph of a set of definitions. All references to what is not among them are reported
together. -/
def ofVariables (values : Dictionary Formula) : Except FormulaError DependencyGraph :=
  let edges := values.mapValues (Formula.references values.contains)
  let undefined := edges.entries.flatMap fun entry =>
    entry.2.filter fun id => !values.contains id
  if undefined.isEmpty then .ok ⟨edges⟩
  else .error (.undefinedVariables (Dictionary.sortedNames undefined))

end DependencyGraph
end Spreadsheet
