import Spreadsheet.Dependency.Graph

/-!
An order in which every variable comes after those it refers to. The graph is walked depth first;
a variable that is met again while the walk is still below it closes a cycle.
-/
namespace Spreadsheet.DependencyGraph

/-- The variables that are not on the path. -/
def offPath (g : DependencyGraph) (path : List String) : List String :=
  g.nodes.filter fun node => !path.contains node

theorem offPath_append_lt (g : DependencyGraph) {path : List String} {node : String}
    (hnode : node ∈ g.nodes) (hpath : ¬path.contains node) :
    (g.offPath (path ++ [node])).length < (g.offPath path).length := by
  have hsplit : g.offPath (path ++ [node]) = (g.offPath path).filter (· != node) := by
    simp only [offPath, List.filter_filter]
    apply List.filter_congr
    intro x _
    by_cases hx : x = node <;> simp [hx]
  have hmem : node ∈ g.offPath path := by
    simpa [offPath] using ⟨hnode, by simpa using hpath⟩
  rw [hsplit]
  apply Nat.lt_of_le_of_ne (List.length_filter_le _ _)
  intro hlen
  have hall := List.length_filter_eq_length_iff.1 hlen node hmem
  simp at hall

mutual

/-- Adds `node` and all that it refers to behind `order`. `path` leads to `node`; a cycle is
reported as the part of the path that forms it, its first member repeated at the end. -/
def visit (g : DependencyGraph) (path order : List String) (node : String) :
    Except FormulaError (List String) :=
  if order.contains node then .ok order
  else if hpath : path.contains node then
    .error (.cyclicDependency (path.dropWhile (· != node) ++ [node]))
  else
    match hget : g.edges.get? node with
    | none => .ok (order ++ [node])
    | some targets =>
      have := offPath_append_lt g (Dictionary.mem_keys_of_get? hget) hpath
      match visitAll g (path ++ [node]) order targets with
      | .error e => .error e
      | .ok order => .ok (order ++ [node])
termination_by ((g.offPath path).length, 0)
decreasing_by exact Prod.Lex.left _ _ this

/-- Adds the nodes one after another. -/
def visitAll (g : DependencyGraph) (path order : List String) (nodes : List String) :
    Except FormulaError (List String) :=
  match nodes with
  | [] => .ok order
  | node :: rest =>
    match visit g path order node with
    | .error e => .error e
    | .ok order => visitAll g path order rest
termination_by ((g.offPath path).length, nodes.length + 1)

end

/-- All variables, each after those it refers to. -/
def topologicalOrder (g : DependencyGraph) : Except FormulaError (List String) :=
  visitAll g [] [] g.nodes

end Spreadsheet.DependencyGraph
