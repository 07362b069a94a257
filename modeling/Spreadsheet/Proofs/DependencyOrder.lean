import Mathlib.Data.List.Chain
import Mathlib.Logic.Relation
import Spreadsheet.Dependency.Order

/-!
The order that the depth-first walk gives. Either every variable comes after those it refers to,
or some variables refer to each other in a circle, and the walk returns the first such circle that
it closes.
-/
namespace Spreadsheet.DependencyGraph

variable {g : DependencyGraph}

/-- `id` refers to `target` directly. -/
def DependsOn (g : DependencyGraph) (id target : String) : Prop :=
  target ∈ g.dependencies id

/-- Each name comes once, and after everything it refers to. -/
inductive Arranged (g : DependencyGraph) : List String → Prop
  | nil : Arranged g []
  | snoc {order : List String} {id : String} (horder : Arranged g order) (hnew : id ∉ order)
    (hdependencies : ∀ target, g.DependsOn id target → target ∈ order) :
    Arranged g (order ++ [id])

/-- A walk along the references that ends where it began and meets nothing else twice. -/
structure IsCycle (g : DependencyGraph) (cycle : List String) : Prop where
  closed : ∃ first inner, cycle = first :: (inner ++ [first]) ∧ (first :: inner).Nodup
  chain : cycle.IsChain g.DependsOn

theorem mem_nodes_of_dependsOn {id target : String} (h : g.DependsOn id target) : id ∈ g.nodes := by
  unfold DependsOn dependencies at h
  cases hget : g.edges.get? id with
  | none => simp [hget] at h
  | some targets => exact Dictionary.mem_keys_of_get? hget

/-! ## Arranged orders -/

theorem Arranged.mem_of_transGen {order : List String} (h : g.Arranged order) :
    ∀ id ∈ order, ∀ target, Relation.TransGen g.DependsOn id target →
      target ∈ order ∧ target ≠ id := by
  induction h with
  | nil => exact fun _ hid => nomatch hid
  | @snoc order last _ hnew hdependencies ih =>
    intro id hid target hreach
    rcases List.mem_append.1 hid with hold | hlast
    · obtain ⟨htarget, hne⟩ := ih id hold target hreach
      exact ⟨List.mem_append_left _ htarget, hne⟩
    · rw [List.mem_singleton] at hlast
      subst hlast
      -- the first step from the last name leads into the older ones, which are closed
      have htarget : target ∈ order := by
        obtain ⟨next, hstep, hrest⟩ := Relation.TransGen.head'_iff.1 hreach
        have hnext := hdependencies next hstep
        rcases Relation.reflTransGen_iff_eq_or_transGen.1 hrest with heq | htrans
        · exact heq ▸ hnext
        · exact (ih next hnext target htrans).1
      exact ⟨List.mem_append_left _ htarget, fun heq => hnew (heq ▸ htarget)⟩

theorem Arranged.mem_of_dependsOn {order : List String} {id target : String}
    (h : g.Arranged order) (hid : id ∈ order) (hstep : g.DependsOn id target) : target ∈ order :=
  (h.mem_of_transGen id hid target (.single hstep)).1

/-! ## The walk

`visit` and `visitAll` keep the order arranged and never add what is on the path. The path is a
walk along the references, so a name met on it again closes a cycle. -/

/-- What a walk below `path` from `names` makes of an order. -/
structure Extends (g : DependencyGraph) (path order names order' : List String) : Prop where
  arranged : g.Arranged order'
  kept : ∀ id ∈ order, id ∈ order'
  reached : ∀ id ∈ names, id ∈ order'
  offPath : ∀ id ∈ order', id ∈ order ∨ id ∉ path
  source : ∀ id ∈ order', id ∈ order ∨ id ∈ names ∨ ∃ other, g.DependsOn other id

variable {path order names : List String}

theorem Extends.refl (h : g.Arranged order) (hnames : ∀ id ∈ names, id ∈ order) :
    g.Extends path order names order :=
  ⟨h, fun _ hid => hid, hnames, fun _ hid => .inl hid, fun _ hid => .inl hid⟩

theorem Extends.cons {order₁ order₂ : List String} {node : String}
    (h₁ : g.Extends path order [node] order₁) (h₂ : g.Extends path order₁ names order₂) :
    g.Extends path order (node :: names) order₂ where
  arranged := h₂.arranged
  kept := fun id hid => h₂.kept id (h₁.kept id hid)
  reached := List.forall_mem_cons.2 ⟨h₂.kept node (h₁.reached node (by simp)), h₂.reached⟩
  offPath := fun id hid => (h₂.offPath id hid).elim (h₁.offPath id) .inr
  source := fun id hid => by
    have hfirst := h₁.source id
    have hrest := h₂.source id hid
    grind

/-- A name goes behind the order once all that it refers to is there. -/
theorem Extends.snoc {order' : List String} {node : String}
    (h : g.Extends (path ++ [node]) order names order')
    (hnames : ∀ target, g.DependsOn node target ↔ target ∈ names)
    (hnew : node ∉ order) (hpath : node ∉ path) :
    g.Extends path order [node] (order' ++ [node]) where
  arranged := by
    refine .snoc h.arranged (fun hmem => ?_) fun target hstep =>
      h.reached target ((hnames target).1 hstep)
    exact (h.offPath node hmem).elim hnew fun hoff => hoff (by simp)
  kept := fun id hid => List.mem_append_left _ (h.kept id hid)
  reached := by simp
  offPath := fun id hid => by
    have hbelow := h.offPath id
    grind
  source := fun id hid => by
    have hbelow := h.source id
    grind

/-- A name that is on the path already closes a cycle with the part of the path from there on. -/
theorem isCycle_of_mem_path {path : List String} {node : String} (hnodup : path.Nodup)
    (hchain : (path ++ [node]).IsChain g.DependsOn) (hnode : node ∈ path) :
    g.IsCycle (path.dropWhile (· != node) ++ [node]) := by
  obtain ⟨before, after, rfl, hbefore⟩ := List.eq_append_cons_of_mem hnode
  have hdrop : (before ++ node :: after).dropWhile (· != node) = node :: after := by
    rw [List.dropWhile_append_of_pos fun id hid => by
      simpa using fun heq : id = node => hbefore (heq ▸ hid)]
    simp
  rw [hdrop]
  refine ⟨⟨node, after, rfl, (List.nodup_append.1 hnodup).2.1⟩, ?_⟩
  exact hchain.suffix ⟨before, by simp⟩

/-- What comes of a walk below `path` from the given names. -/
def Outcome (g : DependencyGraph) (path order names : List String) :
    Except FormulaError (List String) → Prop
  | .ok order' => g.Extends path order names order'
  | .error e => ∃ cycle, e = .cyclicDependency cycle ∧ g.IsCycle cycle

mutual

theorem visit_outcome (path order : List String) (node : String) (hpath : path.Nodup)
    (hchain : (path ++ [node]).IsChain g.DependsOn) (horder : g.Arranged order) :
    g.Outcome path order [node] (g.visit path order node) := by
  unfold visit
  split
  next hdone => exact .refl horder (by simpa using hdone)
  next hdone =>
    have hnew : node ∉ order := by simpa using hdone
    split
    next hon => exact ⟨_, rfl, isCycle_of_mem_path hpath hchain (by simpa using hon)⟩
    next hon =>
      have hoff : node ∉ path := by simpa using hon
      split
      next hget =>
        have hstay : g.Extends (path ++ [node]) order [] order :=
          .refl horder fun _ hid => nomatch hid
        exact hstay.snoc (by simp [DependsOn, dependencies, hget]) hnew hoff
      next targets hget =>
        have hshorter := offPath_append_lt g (Dictionary.mem_keys_of_get? hget) hon
        have hstep (target : String) : g.DependsOn node target ↔ target ∈ targets := by
          simp [DependsOn, dependencies, hget]
        have hnodup : (path ++ [node]).Nodup := List.nodup_append.2
          ⟨hpath, by simp, fun id hid last hlast heq =>
            hoff (List.mem_singleton.1 hlast ▸ heq ▸ hid)⟩
        have hbelow := visitAll_outcome (path ++ [node]) order targets hnodup
          (fun target htarget => by
            rw [List.append_assoc]
            exact List.isChain_append_cons_cons.2
              ⟨hchain, (hstep target).2 htarget, .singleton _⟩) horder
        split
        next e he =>
          rw [he] at hbelow
          exact hbelow
        next order' horder' =>
          rw [horder'] at hbelow
          exact Extends.snoc hbelow hstep hnew hoff
termination_by ((g.offPath path).length, 0)
decreasing_by exact Prod.Lex.left _ _ hshorter

theorem visitAll_outcome (path order : List String) (nodes : List String) (hpath : path.Nodup)
    (hchain : ∀ node ∈ nodes, (path ++ [node]).IsChain g.DependsOn) (horder : g.Arranged order) :
    g.Outcome path order nodes (g.visitAll path order nodes) := by
  match nodes with
  | [] =>
    rw [visitAll]
    exact .refl horder fun _ hnode => nomatch hnode
  | node :: rest =>
    have hfirst := visit_outcome path order node hpath (hchain node (by simp)) horder
    rw [visitAll]
    split
    next e he =>
      rw [he] at hfirst
      exact hfirst
    next middle hmiddle =>
      rw [hmiddle] at hfirst
      have hrest := visitAll_outcome path middle rest hpath
        (fun id hid => hchain id (List.mem_cons_of_mem _ hid)) hfirst.arranged
      cases hlast : g.visitAll path middle rest with
      | error e =>
        rw [hlast] at hrest
        exact hrest
      | ok order' =>
        rw [hlast] at hrest
        exact hfirst.cons hrest
termination_by ((g.offPath path).length, nodes.length + 1)

end

/-! ## The whole graph -/

theorem topologicalOrder_outcome (g : DependencyGraph) :
    g.Outcome [] [] g.nodes g.topologicalOrder :=
  visitAll_outcome [] [] g.nodes .nil (fun _ _ => .singleton _) .nil

theorem IsCycle.exists_transGen {cycle : List String} (h : g.IsCycle cycle) :
    ∃ id, Relation.TransGen g.DependsOn id id := by
  obtain ⟨first, inner, rfl, _⟩ := h.closed
  have hchain := h.chain
  cases inner with
  | nil => exact ⟨first, .single (List.isChain_pair.1 hchain)⟩
  | cons next rest =>
    obtain ⟨hstep, hwalk⟩ := List.isChain_cons_cons.1 hchain
    exact ⟨first, .head' hstep
      (List.relationReflTransGen_of_exists_isChain_cons (rest ++ [first]) hwalk (by simp))⟩

/-- The walk gives an order exactly if nothing refers to itself, directly or through others. -/
theorem topologicalOrder_eq_ok_iff (g : DependencyGraph) :
    (∃ order, g.topologicalOrder = .ok order) ↔
      ∀ id, ¬Relation.TransGen g.DependsOn id id := by
  have houtcome := g.topologicalOrder_outcome
  cases horder : g.topologicalOrder with
  | error e =>
    rw [horder] at houtcome
    obtain ⟨cycle, _, hcycle⟩ := houtcome
    obtain ⟨id, hid⟩ := hcycle.exists_transGen
    constructor
    · intro ⟨_, hok⟩
      cases hok
    · intro hacyclic
      exact absurd hid (hacyclic id)
  | ok order =>
    rw [horder] at houtcome
    refine ⟨fun _ id hid => ?_, fun _ => ⟨order, rfl⟩⟩
    obtain ⟨next, hstep, _⟩ := Relation.TransGen.head'_iff.1 hid
    have hmem := houtcome.reached id (mem_nodes_of_dependsOn hstep)
    exact (houtcome.arranged.mem_of_transGen id hmem id hid).2 rfl

end Spreadsheet.DependencyGraph
