import Spreadsheet.Proofs.CountedReferences

/-!
When a graph can be sorted. In the graphs that are built here every reference leads to a node;
such a graph is sorted if nothing refers to itself, and otherwise one of its cycles is reported.
-/
namespace Spreadsheet.DependencyGraph

variable {g : DependencyGraph}

instance (id target : String) : Decidable (g.DependsOn id target) :=
  inferInstanceAs (Decidable (target ∈ g.dependencies id))

/-- Whatever a node refers to is a node. -/
def Complete (g : DependencyGraph) : Prop :=
  ∀ id target, g.DependsOn id target → target ∈ g.nodes

/-- Nothing refers to itself, directly or through others. -/
def Acyclic (g : DependencyGraph) : Prop :=
  ∀ id, ¬Relation.TransGen g.DependsOn id id

/-- A list of all nodes, each once and behind everything it refers to. -/
structure Sorts (g : DependencyGraph) (order : List String) : Prop where
  mem_iff : ∀ id, id ∈ order ↔ id ∈ g.nodes
  nodup : order.Nodup
  before : ∀ earlier id later, order = earlier ++ id :: later →
    ∀ target, g.DependsOn id target → target ∈ earlier

/-! ## Arranged orders -/

theorem Arranged.nodup {order : List String} (h : g.Arranged order) : order.Nodup := by
  induction h with
  | nil => exact .nil
  | snoc _ hnew _ ih =>
    rw [List.nodup_append]
    refine ⟨ih, by simp, fun id hid last hlast heq => hnew ?_⟩
    rw [← List.mem_singleton.1 hlast, ← heq]
    exact hid

theorem Arranged.mem_earlier {order : List String} (h : g.Arranged order) :
    ∀ earlier id later, order = earlier ++ id :: later →
      ∀ target, g.DependsOn id target → target ∈ earlier := by
  induction h with
  | nil =>
    intro earlier id later hsplit
    simp at hsplit
  | @snoc order last _ _ hdependencies ih =>
    intro earlier id later hsplit target hstep
    -- the split either takes the last name off or lies inside the older ones
    rcases List.eq_nil_or_concat later with rfl | ⟨inner, final, rfl⟩
    · obtain ⟨rfl, hlast⟩ := List.append_inj' hsplit rfl
      cases hlast
      exact hdependencies target hstep
    · have hshift : order ++ [last] = (earlier ++ id :: inner) ++ [final] := by
        simpa using hsplit
      obtain ⟨hinner, _⟩ := List.append_inj' hshift rfl
      exact ih earlier id inner hinner target hstep

/-! ## Graphs of edges -/

theorem get?_foldl_targets (targets : List String) (edges : Dictionary (List String))
    (id : String) :
    (targets.foldl (fun edges target =>
      if edges.contains target then edges else edges.insert target []) edges).get? id =
      (edges.get? id).or (if id ∈ targets then some [] else none) := by
  induction targets generalizing edges with
  | nil => simp
  | cons target rest ih =>
    rw [List.foldl_cons, ih]
    by_cases hid : id = target
    · subst hid
      -- the name is there after its turn, with the entry that it had before or without any
      cases hget : edges.get? id with
      | some found => simp [Dictionary.contains, hget]
      | none => simp [Dictionary.contains, hget, Dictionary.get?_insert]
    · have hother : target ≠ id := fun heq => hid heq.symm
      cases hcontains : edges.contains target with
      | true => simp [hid]
      | false => simp [hid, hother, Dictionary.get?_insert]

theorem get?_addEdges (edges : Dictionary (List String)) (source : String)
    (targets : List String) (id : String) :
    (addEdges edges source targets).get? id =
      if source = id then some targets
      else (edges.get? id).or (if id ∈ targets then some [] else none) := by
  unfold addEdges
  dsimp only
  rw [Dictionary.get?_insert, get?_foldl_targets]

/-- One more entry: its targets become nodes, and all that were nodes stay so. -/
theorem Complete.addEdges {edges : Dictionary (List String)} (h : Complete ⟨edges⟩)
    (source : String) (targets : List String) :
    Complete ⟨DependencyGraph.addEdges edges source targets⟩ := by
  intro id target hstep
  show target ∈ (DependencyGraph.addEdges edges source targets).keys
  have hnode : (edges.get? target).isSome ∨ target ∈ targets := by
    simp only [DependsOn, dependencies, get?_addEdges] at hstep
    by_cases hid : source = id
    · right
      simpa [hid] using hstep
    · rw [if_neg hid] at hstep
      cases hget : edges.get? id with
      | none => by_cases hmem : id ∈ targets <;> simp [hget, hmem] at hstep
      | some found =>
        left
        have hold : target ∈ (⟨edges⟩ : DependencyGraph).nodes := by
          apply h id target
          simpa [DependsOn, dependencies, hget] using hstep
        exact Dictionary.mem_keys_iff.1 hold
  rw [Dictionary.mem_keys_iff, Dictionary.contains, get?_addEdges]
  by_cases hsource : source = target
  · simp [hsource]
  · rcases hnode with hold | hnew
    · simp [hsource, hold]
    · simp [hsource, hnew]

theorem complete_ofEdges (edges : List (String × List String)) : (ofEdges edges).Complete := by
  have hempty : Complete ⟨.empty⟩ := fun _ _ hstep => (nomatch hstep)
  exact List.foldlRecOn (motive := fun edges => Complete ⟨edges⟩) edges _ hempty
    fun _ hgraph entry _ => hgraph.addEdges entry.1 entry.2

theorem complete_ofVariables {values : Dictionary Formula} (h : ofVariables values = .ok g) :
    g.Complete := by
  rcases ofVariables_cases values with ⟨hclosed, other, hother, hrepresents⟩ | ⟨_, ids, herror⟩
  · cases h.symm.trans hother
    intro id target hstep
    rw [hrepresents.nodes]
    exact hclosed id target ((hrepresents.dependsOn id target).1 hstep)
  · cases h.symm.trans herror

/-! ## Sorting -/

theorem sorts_topologicalOrder {order : List String} (hcomplete : g.Complete)
    (h : g.topologicalOrder = .ok order) : g.Sorts order := by
  have hextends : g.Extends [] [] g.nodes order := by
    have houtcome := g.topologicalOrder_outcome
    rw [h] at houtcome
    exact houtcome
  refine ⟨fun id => ⟨fun hid => ?_, hextends.reached id⟩, hextends.arranged.nodup,
    hextends.arranged.mem_earlier⟩
  rcases hextends.source id hid with hnone | hnode | ⟨other, hstep⟩
  · cases hnone
  · exact hnode
  · exact hcomplete other id hstep

theorem topologicalOrder_of_acyclic (hcomplete : g.Complete) (hacyclic : g.Acyclic) :
    ∃ order, g.topologicalOrder = .ok order ∧ g.Sorts order := by
  obtain ⟨order, horder⟩ := g.topologicalOrder_eq_ok_iff.2 hacyclic
  exact ⟨order, horder, sorts_topologicalOrder hcomplete horder⟩

theorem topologicalOrder_of_not_acyclic (hcyclic : ¬g.Acyclic) :
    ∃ cycle, g.topologicalOrder = .error (.cyclicDependency cycle) ∧ g.IsCycle cycle := by
  have houtcome := g.topologicalOrder_outcome
  cases horder : g.topologicalOrder with
  | ok order => exact absurd (g.topologicalOrder_eq_ok_iff.1 ⟨order, horder⟩) hcyclic
  | error e =>
    rw [horder] at houtcome
    obtain ⟨cycle, rfl, hcycle⟩ := houtcome
    exact ⟨cycle, rfl, hcycle⟩

/-- Every graph of edges and every graph of definitions is complete. On any graph the walk ends with
an order or with a cycle; it sorts a complete graph without a cycle, and of a graph with one it
reports a closed walk that meets nothing else twice. -/
theorem topologicalOrder_sorts_or_reports :
    (∀ edges, (ofEdges edges).Complete) ∧
    (∀ values g, ofVariables values = .ok g → g.Complete) ∧
    (∀ g : DependencyGraph, (∃ order, g.topologicalOrder = .ok order) ∨
      ∃ cycle, g.topologicalOrder = .error (.cyclicDependency cycle)) ∧
    ∀ g : DependencyGraph, g.Complete →
      (g.Acyclic → ∃ order, g.topologicalOrder = .ok order ∧ g.Sorts order) ∧
      (¬g.Acyclic → ∃ cycle, g.topologicalOrder = .error (.cyclicDependency cycle) ∧
        g.IsCycle cycle) := by
  refine ⟨complete_ofEdges, fun _ _ => complete_ofVariables, fun g => ?_, fun g hcomplete =>
    ⟨topologicalOrder_of_acyclic hcomplete, topologicalOrder_of_not_acyclic⟩⟩
  by_cases hacyclic : g.Acyclic
  · exact .inl (g.topologicalOrder_eq_ok_iff.2 hacyclic)
  · obtain ⟨cycle, hcycle, _⟩ := topologicalOrder_of_not_acyclic hacyclic
    exact .inr ⟨cycle, hcycle⟩

/-- A cycle of two names behind a third one that leads to it, with a repeated target and a name
whose first entry is replaced. -/
def behindEntrance : DependencyGraph :=
  ofEdges [("a", ["c"]), ("a", ["b", "b"]), ("b", ["c"]), ("c", ["b"])]

theorem topologicalOrder_behindEntrance : behindEntrance.Complete ∧ ¬behindEntrance.Acyclic ∧
    ∃ cycle, behindEntrance.topologicalOrder = .error (.cyclicDependency cycle) ∧
      behindEntrance.IsCycle cycle := by
  have hcomplete : behindEntrance.Complete := topologicalOrder_sorts_or_reports.1 _
  have hthere : behindEntrance.DependsOn "b" "c" := by decide
  have hback : behindEntrance.DependsOn "c" "b" := by decide
  have hcyclic : ¬behindEntrance.Acyclic := fun hacyclic =>
    hacyclic "b" (.tail (.single hthere) hback)
  exact ⟨hcomplete, hcyclic,
    (topologicalOrder_sorts_or_reports.2.2.2 behindEntrance hcomplete).2 hcyclic⟩

end Spreadsheet.DependencyGraph
