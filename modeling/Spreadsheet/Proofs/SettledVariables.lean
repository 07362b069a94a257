import Spreadsheet.Proofs.CountedReferences
import Spreadsheet.Proofs.ResolvedFormulas

/-!
What resolving makes of the variables of a scope. Values are put in one variable at a time, in the
order of the references; the result is the same as if every variable had been replaced by its final
value at once.
-/
namespace Spreadsheet

namespace Formula

/-- Trees without the bodies of functions. -/
inductive FunctionFree : Formula → Prop
  | literal (value : Literal) : FunctionFree (.literal value)
  | name (id : String) : FunctionFree (.name id)
  | builtin (value : Builtin) : FunctionFree (.builtin value)
  | call {form : CallForm} {id : String} {arguments : List Formula}
    (harguments : ∀ f ∈ arguments, FunctionFree f) : FunctionFree (.call form id arguments)

variable {f : Formula} {id : String} {σ τ : String → Option Formula} {defined : String → Bool}

@[simp]
theorem name_mem_nodes_name {other : String} :
    .name id ∈ (Formula.name other).nodes ↔ id = other := by
  simp [nodes]

@[simp]
theorem name_mem_nodes_call {form : CallForm} {function : String} {arguments : List Formula} :
    .name id ∈ (Formula.call form function arguments).nodes ↔
      ∃ f ∈ arguments, .name id ∈ f.nodes := by
  simp [nodes, nodesAll_eq]

theorem FunctionFree.substitute (hf : f.FunctionFree)
    (hσ : ∀ id value, σ id = some value → value.FunctionFree) : (f.substitute σ).FunctionFree := by
  induction hf with
  | literal value => exact .literal value
  | builtin value => exact .builtin value
  | name id =>
    rw [Formula.substitute]
    cases hid : σ id with
    | none => exact .name id
    | some value => exact hσ id value hid
  | call _ ih =>
    rw [Formula.substitute, substituteAll_eq]
    refine .call fun g hg => ?_
    obtain ⟨argument, hargument, rfl⟩ := List.mem_map.1 hg
    exact ih argument hargument

/-- Only what is put in the place of names that occur matters. -/
theorem FunctionFree.substitute_congr (hf : f.FunctionFree)
    (h : ∀ id, .name id ∈ f.nodes → σ id = τ id) : f.substitute σ = f.substitute τ := by
  induction hf with
  | literal value => rfl
  | builtin value => rfl
  | name id => rw [Formula.substitute, Formula.substitute, h id (by simp)]
  | call _ ih =>
    rw [Formula.substitute, Formula.substitute, substituteAll_eq, substituteAll_eq]
    congr 1
    apply List.map_congr_left
    intro argument hargument
    exact ih argument hargument fun id hid =>
      h id (name_mem_nodes_call.2 ⟨argument, hargument, hid⟩)

/-- One substitution after another is a single one. -/
theorem FunctionFree.substitute_substitute (hf : f.FunctionFree) (σ τ : String → Option Formula) :
    (f.substitute σ).substitute τ =
      f.substitute fun id => ((σ id).map (·.substitute τ)).or (τ id) := by
  induction hf with
  | literal value => rfl
  | builtin value => rfl
  | name id =>
    rw [Formula.substitute, Formula.substitute]
    cases σ id with
    | none => rfl
    | some value => rfl
  | call _ ih =>
    simp only [Formula.substitute, substituteAll_eq, List.map_map]
    congr 1
    exact List.map_congr_left ih

theorem FunctionFree.substitute_eq_self (hf : f.FunctionFree)
    (h : ∀ id, .name id ∈ f.nodes → σ id = none) : f.substitute σ = f := by
  induction hf with
  | literal value => rfl
  | builtin value => rfl
  | name id => rw [Formula.substitute, h id (by simp), Option.getD_none]
  | call _ ih =>
    rw [Formula.substitute, substituteAll_eq]
    congr 1
    refine (List.map_congr_left fun argument hargument => ?_).trans (List.map_id _)
    exact ih argument hargument fun id hid =>
      h id (name_mem_nodes_call.2 ⟨argument, hargument, hid⟩)

/-! ## References and substitution -/

theorem isBareAddress_eq_false (hname : .name id ∈ f.nodes) (hid : defined id = true) :
    f.isBareAddress defined = false := by
  unfold isBareAddress
  split
  next other =>
    rw [← name_mem_nodes_name.1 hname, hid]
    rfl
  next => rfl

theorem isBareAddress_of_substitute
    (hσ : ∀ other value, σ other = some value → defined other = true)
    (h : (f.substitute σ).isBareAddress defined = false) : f.isBareAddress defined = false := by
  cases f with
  | name other =>
    cases hother : σ other with
    | none => simpa [Formula.substitute, hother] using h
    | some value => simp [isBareAddress, hσ other value hother]
  | _ => rfl

/-- Every variable that occurs is referred to. -/
theorem FunctionFree.refersTo (hf : f.FunctionFree) (hname : .name id ∈ f.nodes)
    (hid : defined id = true) : f.RefersTo defined id := by
  induction hf with
  | literal value => simp [nodes] at hname
  | builtin value => simp [nodes] at hname
  | name other => exact name_mem_nodes_name.1 hname ▸ .name (.inl hid)
  | call _ ih =>
    obtain ⟨argument, hargument, hbelow⟩ := name_mem_nodes_call.1 hname
    exact .call hargument (fun _ => isBareAddress_eq_false hbelow hid)
      (ih argument hargument hbelow)

/-- What a formula refers to after a substitution is either left over or comes with a value. -/
theorem FunctionFree.refersTo_substitute (hf : f.FunctionFree)
    (hσ : ∀ other value, σ other = some value → defined other = true)
    (h : (f.substitute σ).RefersTo defined id) :
    (f.RefersTo defined id ∧ σ id = none) ∨
      ∃ other value, f.RefersTo defined other ∧ σ other = some value ∧
        value.RefersTo defined id := by
  induction hf with
  | literal value => cases h
  | builtin value => cases h
  | name other =>
    rw [Formula.substitute] at h
    cases hother : σ other with
    | none =>
      rw [hother, Option.getD_none] at h
      cases h with
      | name hid => exact .inl ⟨.name hid, hother⟩
    | some value =>
      rw [hother] at h
      exact .inr ⟨other, value, .name (.inl (hσ other value hother)), hother, h⟩
  | call _ ih =>
    rw [Formula.substitute, substituteAll_eq] at h
    cases h with
    | call hg hcolumn hbelow =>
      obtain ⟨argument, hargument, rfl⟩ := List.mem_map.1 hg
      have hplain := fun hbuiltin => isBareAddress_of_substitute hσ (hcolumn hbuiltin)
      rcases ih argument hargument hbelow with ⟨hleft, hnone⟩ | ⟨other, value, hother, hvalue, hid⟩
      · exact .inl ⟨.call hargument hplain hleft, hnone⟩
      · exact .inr ⟨other, value, .call hargument hplain hother, hvalue, hid⟩

end Formula

namespace Scope

/-! ## One variable after another -/

/-- `settle` with look-ups that have to succeed. -/
def settle? (settled : Dictionary Formula) (dependencies : List String) (value : Formula) :
    Option Formula :=
  dependencies.foldlM
    (fun value id => (settled.get? id).map fun found =>
      value.substitute fun name => if name = id then some found else none)
    value

/-- `settleAll` with look-ups that have to succeed. -/
def settleAll? (values : Dictionary Formula) (g : DependencyGraph) (order : List String) :
    Option (Dictionary Formula) :=
  order.foldlM
    (fun settled id => (values.get? id).bind fun value =>
      (settle? settled (g.dependencies id) value).map (settled.insert id))
    .empty

variable {values settled : Dictionary Formula} {g : DependencyGraph}

theorem settle?_eq_some {dependencies : List String} (value : Formula)
    (h : ∀ id ∈ dependencies, settled.contains id = true) :
    settle? settled dependencies value = some (settle settled dependencies value) := by
  induction dependencies generalizing value with
  | nil => rfl
  | cons id rest ih =>
    obtain ⟨found, hfound⟩ := Dictionary.contains_iff.1 (h id (by simp))
    have hrest := ih (value.substitute fun name => if name = id then some found else none)
      fun other hother => h other (List.mem_cons_of_mem _ hother)
    simpa [settle?, settle, hfound] using hrest

/-- Putting in values one after another that hold none of the variables is putting them in at
once. -/
theorem settle_eq_substitute {value : Formula} (hvalue : value.FunctionFree)
    (dependencies : List String)
    (hfree : ∀ id found, settled.get? id = some found →
      found.FunctionFree ∧ ∀ other ∈ dependencies, .name other ∉ found.nodes) :
    settle settled dependencies value =
      value.substitute fun id => if id ∈ dependencies then settled.get? id else none := by
  induction dependencies using List.reverseRecOn with
  | nil => exact (hvalue.substitute_eq_self fun _ _ => by simp).symm
  | append_singleton before last ih =>
    have hbefore := ih fun id found hfound =>
      ⟨(hfree id found hfound).1, fun other hother =>
        (hfree id found hfound).2 other (List.mem_append_left _ hother)⟩
    have hsnoc : settle settled (before ++ [last]) value =
        (settle settled before value).substitute
          fun name => if name = last then settled.get? last else none := by
      simp [settle]
    rw [hsnoc, hbefore, hvalue.substitute_substitute]
    apply hvalue.substitute_congr
    intro id _
    -- a value that is in place already does not hold the last variable
    have hkept (found : Formula) (hfound : settled.get? id = some found) :
        found.substitute (fun name => if name = last then settled.get? last else none) = found := by
      refine (hfree id found hfound).1.substitute_eq_self fun name hname => if_neg ?_
      rintro rfl
      exact (hfree id found hfound).2 name (by simp) hname
    by_cases hid : id ∈ before
    · cases hget : settled.get? id with
      | none =>
        have hlast (heq : id = last) : settled.get? last = none := heq ▸ hget
        simpa [hid] using hlast
      | some found => simp [hid, hkept found hget]
    · by_cases hlast : id = last
      · simp [hlast, hlast ▸ hid]
      · simp [hid, hlast]

theorem settleAll_snoc {order : List String} {id : String} {value : Formula}
    (hvalue : values.get? id = some value) :
    settleAll values g (order ++ [id]) =
      (settleAll values g order).insert id
        (settle (settleAll values g order) (g.dependencies id) value) := by
  simp [settleAll, hvalue]

/-- The variables in `order` are settled: each has its value with all variables replaced at once,
and refers to nothing any more. -/
structure Settled (values : Dictionary Formula) (order : List String)
    (settled : Dictionary Formula) : Prop where
  keys : ∀ id, settled.contains id = true ↔ id ∈ order
  fixed : ∀ id ∈ order, ∀ value, values.get? id = some value →
    settled.get? id = some (value.substitute settled.get?)
  functionFree : ∀ id value, settled.get? id = some value → value.FunctionFree
  final : ∀ id value, settled.get? id = some value → ∀ target,
    ¬value.RefersTo values.contains target

theorem Settled.name_not_mem_nodes {order : List String} {id name : String} {value : Formula}
    (h : Settled values order settled) (hvalue : settled.get? id = some value)
    (hname : values.contains name = true) : .name name ∉ value.nodes :=
  fun hmem => h.final id value hvalue name ((h.functionFree id value hvalue).refersTo hmem hname)

theorem Settled.get?_eq_none {order : List String} {id : String}
    (h : Settled values order settled) (hid : id ∉ order) : settled.get? id = none := by
  rw [← h.keys, Dictionary.contains, Bool.not_eq_true, Option.isSome_eq_false_iff] at hid
  exact Option.isNone_iff_eq_none.1 hid

/-- A variable is settled by the values of what it refers to. -/
theorem Settled.settle_eq {order : List String} {id : String} {value : Formula}
    (h : Settled values order settled) (hg : g.Represents values)
    (hdefined : ∀ id ∈ order, values.contains id = true)
    (hdependencies : ∀ target, g.DependsOn id target → target ∈ order)
    (hget : values.get? id = some value) (hvalue : value.FunctionFree) :
    settle settled (g.dependencies id) value = value.substitute settled.get? := by
  rw [settle_eq_substitute hvalue]
  · apply hvalue.substitute_congr
    intro name hname
    split
    next => rfl
    next hno =>
      -- what occurs and is not referred to is no variable
      symm
      apply h.get?_eq_none
      intro hmem
      have hrefers := hvalue.refersTo hname (hdefined name hmem)
      exact hno ((hg.dependsOn id name).2 ⟨value, hget, hrefers⟩)
  · intro other found hfound
    refine ⟨h.functionFree other found hfound, fun name hname => ?_⟩
    exact h.name_not_mem_nodes hfound (hdefined name (hdependencies name hname))

theorem settled_empty (values : Dictionary Formula) : Settled values [] .empty := by
  constructor <;> simp [Dictionary.contains, Dictionary.get?_empty]

/-- One step: the next variable is settled, and those before it stay so. -/
theorem Settled.snoc {order : List String} {id : String} {value : Formula}
    (h : Settled values order settled) (hg : g.Represents values) (horder : g.Arranged order)
    (hdefined : ∀ id ∈ order, values.contains id = true)
    (hvalues : ∀ id value, values.get? id = some value → value.FunctionFree) (hnew : id ∉ order)
    (hdependencies : ∀ target, g.DependsOn id target → target ∈ order)
    (hget : values.get? id = some value) :
    Settled values (order ++ [id]) (settled.insert id (value.substitute settled.get?)) where
  keys := fun other => by
    by_cases hother : id = other
    · simp [Dictionary.contains, Dictionary.get?_insert, hother]
    · have hne : ¬other = id := fun heq => hother heq.symm
      simpa [Dictionary.contains, Dictionary.get?_insert, hother, hne] using h.keys other
  fixed := fun other hother found hfound => by
    -- no value so far, nor the new one, holds the new variable, whose entry makes no difference
    have hinsert : found.substitute (settled.insert id (value.substitute settled.get?)).get? =
        found.substitute settled.get? := by
      apply (hvalues other found hfound).substitute_congr
      intro name hname
      rw [Dictionary.get?_insert, if_neg]
      rintro rfl
      have hrefers := (hvalues other found hfound).refersTo hname
        (Dictionary.contains_iff.2 ⟨value, hget⟩)
      have hstep := (hg.dependsOn other id).2 ⟨found, hfound, hrefers⟩
      rcases List.mem_append.1 hother with hold | hlast
      · exact hnew (horder.mem_of_dependsOn hold hstep)
      · exact hnew (hdependencies id (List.mem_singleton.1 hlast ▸ hstep))
    rw [hinsert, Dictionary.get?_insert]
    split
    next heq =>
      subst heq
      rw [Option.some.inj (hget.symm.trans hfound)]
    next hne =>
      refine h.fixed other ?_ found hfound
      simpa [Ne.symm hne] using hother
  functionFree := Dictionary.forall_insert h.functionFree
    ((hvalues id value hget).substitute h.functionFree)
  final := by
    refine Dictionary.forall_insert h.final fun target htarget => ?_
    have hknown (other : String) (found : Formula) (hfound : settled.get? other = some found) :
        values.contains other = true :=
      hdefined other ((h.keys other).1 (Dictionary.contains_iff.2 ⟨found, hfound⟩))
    rcases (hvalues id value hget).refersTo_substitute hknown htarget with
      ⟨hrefers, hnone⟩ | ⟨other, found, _, hfound, hbelow⟩
    · have hmem := hdependencies target ((hg.dependsOn id target).2 ⟨value, hget, hrefers⟩)
      rw [← h.keys, Dictionary.contains, hnone] at hmem
      cases hmem
    · exact h.final other found hfound target hbelow

/-- The whole run: all variables of an arranged order are settled, and no look-up fails. -/
theorem settled_settleAll {order : List String} (hg : g.Represents values)
    (horder : g.Arranged order) (hdefined : ∀ id ∈ order, values.contains id = true)
    (hvalues : ∀ id value, values.get? id = some value → value.FunctionFree) :
    Settled values order (settleAll values g order) ∧
      settleAll? values g order = some (settleAll values g order) := by
  induction horder with
  | nil => exact ⟨settled_empty values, rfl⟩
  | @snoc order id harranged hnew hdependencies ih =>
    have hbefore := fun other hother => hdefined other (List.mem_append_left _ hother)
    obtain ⟨hsettled, hlookups⟩ := ih hbefore
    obtain ⟨value, hget⟩ := Dictionary.contains_iff.1 (hdefined id (by simp))
    have hsettle := hsettled.settle_eq hg hbefore hdependencies hget (hvalues id value hget)
    constructor
    · rw [settleAll_snoc hget, hsettle]
      exact hsettled.snoc hg harranged hbefore hvalues hnew hdependencies hget
    · have hlast := settle?_eq_some value fun target htarget =>
        (hsettled.keys target).2 (hdependencies target htarget)
      rw [settleAll_snoc hget, settleAll?, List.foldlM_append, ← settleAll?, hlookups]
      simp [hget, hlast]

/-! ## Resolving a scope -/

/-- Some variable refers to itself, directly or through others. -/
def Cyclic (values : Dictionary Formula) : Prop :=
  ∃ id, Relation.TransGen (DependencyGraph.RefersTo values) id id

/-- The order of the graph of a closed set of definitions lists exactly their variables. -/
theorem mem_topologicalOrder_iff {order : List String} (hg : g.Represents values)
    (hclosed : DependencyGraph.Closed values) (horder : g.topologicalOrder = .ok order)
    (id : String) : id ∈ order ↔ values.contains id = true := by
  have hextends := g.topologicalOrder_outcome
  rw [horder] at hextends
  constructor
  · intro hid
    rcases hextends.source id hid with hnone | hnode | ⟨other, hstep⟩
    · cases hnone
    · exact (hg.nodes id).1 hnode
    · exact hclosed other id ((hg.dependsOn other id).1 hstep)
  · intro hid
    exact hextends.reached id ((hg.nodes id).2 hid)

variable {s : Scope}

theorem resolveVariables_of_not_closed (h : ¬DependencyGraph.Closed s.values) :
    ∃ ids, s.resolveVariables = .error (.undefinedVariables ids) := by
  rcases DependencyGraph.ofVariables_cases s.values with ⟨hclosed, _⟩ | ⟨_, ids, hids⟩
  · exact absurd hclosed h
  · exact ⟨ids, by rw [resolveVariables, hids]⟩

theorem ofVariables_of_resolveVariables_error {ids : List String}
    (h : s.resolveVariables = .error (.undefinedVariables ids)) :
    DependencyGraph.ofVariables s.values = .error (.undefinedVariables ids) := by
  unfold resolveVariables at h
  split at h
  next e hgraph =>
    cases h
    exact hgraph
  next g _ =>
    have houtcome := g.topologicalOrder_outcome
    split at h
    next e horder =>
      rw [horder] at houtcome
      obtain ⟨path, rfl, _⟩ := houtcome
      cases h
    next => cases h

theorem cyclic_iff (hg : g.Represents s.values) :
    Cyclic s.values ↔ ∃ id, Relation.TransGen g.DependsOn id id := by
  have hsame : DependencyGraph.RefersTo s.values = g.DependsOn :=
    funext fun id => funext fun target => propext (hg.dependsOn id target).symm
  rw [Cyclic, hsame]

theorem resolveVariables_of_cyclic (hclosed : DependencyGraph.Closed s.values)
    (h : Cyclic s.values) : ∃ path, s.resolveVariables = .error (.cyclicDependency path) := by
  rcases DependencyGraph.ofVariables_cases s.values with ⟨_, g, hgraph, hg⟩ | ⟨hnot, _⟩
  · obtain ⟨id, hcycle⟩ := (cyclic_iff hg).1 h
    have houtcome := g.topologicalOrder_outcome
    cases horder : g.topologicalOrder with
    | ok order => exact absurd hcycle (g.topologicalOrder_eq_ok_iff.1 ⟨order, horder⟩ id)
    | error e =>
      rw [horder] at houtcome
      obtain ⟨path, rfl, _⟩ := houtcome
      exact ⟨path, by simp only [resolveVariables, hgraph, horder]⟩
  · exact absurd hclosed hnot

theorem resolveVariables_of_acyclic (hclosed : DependencyGraph.Closed s.values)
    (h : ¬Cyclic s.values)
    (hvalues : ∀ id value, s.values.get? id = some value → value.FunctionFree) :
    ∃ g order settled, DependencyGraph.ofVariables s.values = .ok g ∧
      g.topologicalOrder = .ok order ∧ settleAll? s.values g order = some settled ∧
      s.resolveVariables = .ok { s with values := settled } ∧
      (∀ id, id ∈ order ↔ s.values.contains id = true) ∧ Settled s.values order settled := by
  rcases DependencyGraph.ofVariables_cases s.values with ⟨_, g, hgraph, hg⟩ | ⟨hnot, _⟩
  · rw [cyclic_iff hg, not_exists] at h
    obtain ⟨order, horder⟩ := g.topologicalOrder_eq_ok_iff.2 h
    have hmem := mem_topologicalOrder_iff hg hclosed horder
    have hextends := g.topologicalOrder_outcome
    rw [horder] at hextends
    obtain ⟨hsettled, hlookups⟩ := settled_settleAll hg hextends.arranged
      (fun id hid => (hmem id).1 hid) hvalues
    exact ⟨g, order, _, hgraph, horder, hlookups,
      by simp only [resolveVariables, hgraph, horder], hmem, hsettled⟩
  · exact absurd hclosed hnot

theorem settled_of_resolveVariables {s' : Scope} (h : s.resolveVariables = .ok s')
    (hvalues : ∀ id value, s.values.get? id = some value → value.FunctionFree) :
    ∃ order, (∀ id, id ∈ order ↔ s.values.contains id = true) ∧
      Settled s.values order s'.values := by
  by_cases hclosed : DependencyGraph.Closed s.values
  · by_cases hcyclic : Cyclic s.values
    · obtain ⟨path, herror⟩ := resolveVariables_of_cyclic hclosed hcyclic
      cases h.symm.trans herror
    · obtain ⟨_, order, settled, _, _, _, hresolve, hmem, hsettled⟩ :=
        resolveVariables_of_acyclic hclosed hcyclic hvalues
      cases h.symm.trans hresolve
      exact ⟨order, hmem, hsettled⟩
  · obtain ⟨ids, herror⟩ := resolveVariables_of_not_closed hclosed
    cases h.symm.trans herror

/-- Settled variables stay as they are when they are resolved again. -/
theorem resolveVariables_of_settled {order : List String} (hs : Settled values order s.values)
    (hcontains : s.values.contains = values.contains) : s.resolveVariables = .ok s := by
  have hnone (id target : String) : ¬DependencyGraph.RefersTo s.values id target := by
    rintro ⟨value, hvalue, hrefers⟩
    exact hs.final id value hvalue target (hcontains ▸ hrefers)
  have hclosed : DependencyGraph.Closed s.values :=
    fun id target hrefers => absurd hrefers (hnone id target)
  have hacyclic : ¬Cyclic s.values := by
    rintro ⟨id, hcycle⟩
    obtain ⟨next, hstep, _⟩ := Relation.TransGen.head'_iff.1 hcycle
    exact hnone id next hstep
  obtain ⟨_, order', settled, _, _, _, hresolve, hmem, hagain⟩ :=
    resolveVariables_of_acyclic hclosed hacyclic hs.functionFree
  have hsame : settled = s.values := by
    apply Dictionary.ext_get?
    intro id
    cases hvalue : s.values.get? id with
    | none =>
      apply hagain.get?_eq_none
      rw [hmem, Dictionary.contains, hvalue]
      decide
    | some value =>
      rw [hagain.fixed id ((hmem id).2 (Dictionary.contains_iff.2 ⟨value, hvalue⟩)) value hvalue]
      congr 1
      apply (hs.functionFree id value hvalue).substitute_eq_self
      intro name hname
      apply hagain.get?_eq_none
      rw [hmem, hcontains]
      exact fun hdefined => hs.name_not_mem_nodes hvalue hdefined hname
  rw [hresolve, hsame]

/-- `s'` has the variables of `s`, each with its value in which all variables are replaced at once
by their values in `s'`. -/
structure IsFixedPoint (s s' : Scope) : Prop where
  functions : s'.functions = s.functions
  contains : s'.values.contains = s.values.contains
  value : ∀ id value, s.values.get? id = some value →
    s'.values.get? id = some (value.substitute s'.values.get?)
  free : ∀ id value name, s'.values.get? id = some value → s.values.contains name = true →
    .name name ∉ value.nodes

theorem Settled.isFixedPoint {order : List String} (h : Settled s.values order settled)
    (horder : ∀ id, id ∈ order ↔ s.values.contains id = true) :
    s.IsFixedPoint { s with values := settled } where
  functions := rfl
  contains := funext fun id => Bool.eq_iff_iff.2 ((h.keys id).trans (horder id))
  value := fun id value hvalue =>
    h.fixed id ((horder id).2 (Dictionary.contains_iff.2 ⟨value, hvalue⟩)) value hvalue
  free := fun _ _ _ hvalue hname => h.name_not_mem_nodes hvalue hname

/-- Resolved variables refer to nothing. -/
theorem resolveVariables_final {s' : Scope} (h : s.resolveVariables = .ok s')
    (hvalues : ∀ id value, s.values.get? id = some value → value.FunctionFree) {id : String}
    {value : Formula} (hvalue : s'.values.get? id = some value) (target : String) :
    ¬value.RefersTo s'.values.contains target := by
  obtain ⟨order, horder, hsettled⟩ := settled_of_resolveVariables h hvalues
  have hcontains := (hsettled.isFixedPoint horder).contains
  rw [show s'.values.contains = s.values.contains from hcontains]
  exact hsettled.final id value hvalue target

theorem resolveInPlace_of_error {e : FormulaError} (h : s.resolveVariables = .error e) :
    s.resolveInPlace = (s, some e) := by
  rw [resolveInPlace, h]

theorem resolveInPlace_of_ok {s' : Scope} (h : s.resolveVariables = .ok s') :
    s.resolveInPlace = (s', none) := by
  rw [resolveInPlace, h]

/-- Resolving fails for a reference to no variable, else for a cycle of references, and then leaves
the scope as it is; otherwise it gives the fixed point of the definitions without any look-up that
fails, and has nothing left to do. -/
theorem resolveInPlace_fixedPoint (s : Scope)
    (hvalues : ∀ id value, s.values.get? id = some value → value.FunctionFree) :
    ((∃ ids, s.resolveInPlace.2 = some (.undefinedVariables ids)) ↔
      ¬DependencyGraph.Closed s.values) ∧
    (DependencyGraph.Closed s.values →
      ((∃ path, s.resolveInPlace.2 = some (.cyclicDependency path)) ↔ Cyclic s.values)) ∧
    (∀ e, s.resolveInPlace.2 = some e → s.resolveInPlace.1 = s) ∧
    (DependencyGraph.Closed s.values → ¬Cyclic s.values →
      ∃ s', s.resolveInPlace = (s', none) ∧ s.IsFixedPoint s' ∧ s'.resolveInPlace = (s', none) ∧
        ∃ g order, DependencyGraph.ofVariables s.values = .ok g ∧
          g.topologicalOrder = .ok order ∧ settleAll? s.values g order = some s'.values) := by
  by_cases hclosed : DependencyGraph.Closed s.values
  · by_cases hcyclic : Cyclic s.values
    · obtain ⟨path, herror⟩ := resolveVariables_of_cyclic hclosed hcyclic
      simp [resolveInPlace_of_error herror, hclosed, hcyclic]
    · obtain ⟨g, order, settled, hgraph, horder, hlookups, hresolve, hmem, hsettled⟩ :=
        resolveVariables_of_acyclic hclosed hcyclic hvalues
      have hfixed := hsettled.isFixedPoint hmem
      have hagain := resolveVariables_of_settled (s := { s with values := settled }) hsettled
        hfixed.contains
      have hinPlace := resolveInPlace_of_ok hresolve
      refine ⟨by simp [hinPlace, hclosed], by simp [hinPlace, hcyclic], by simp [hinPlace],
        fun _ _ => ⟨_, hinPlace, hfixed, resolveInPlace_of_ok hagain, ?_⟩⟩
      exact ⟨g, order, hgraph, horder, hlookups⟩
  · obtain ⟨ids, herror⟩ := resolveVariables_of_not_closed hclosed
    simp [resolveInPlace_of_error herror, hclosed]

/-- Two variables, one of which refers to the other twice. -/
def baseAndTotal : Scope :=
  { values := .ofList [("base", .text "b"),
      ("total", .call .operator "+" [.call .named "cellabove" [.name "base"], .name "base"])] }

theorem refersTo_baseAndTotal {id target : String}
    (h : DependencyGraph.RefersTo baseAndTotal.values id target) :
    id = "total" ∧ target = "base" := by
  obtain ⟨value, hvalue, hrefers⟩ := h
  simp only [baseAndTotal, Dictionary.ofList, Dictionary.insertAll, List.foldl_cons,
    List.foldl_nil, Dictionary.get?_insert, Dictionary.get?_empty] at hvalue
  split at hvalue
  next hid =>
    cases hvalue
    refine ⟨hid.symm, ?_⟩
    cases hrefers with
    | call hoperand _ hbelow =>
      simp only [List.mem_cons, List.not_mem_nil, or_false] at hoperand
      rcases hoperand with rfl | rfl
      · cases hbelow with
        | call hargument _ hname =>
          rw [List.mem_singleton] at hargument
          subst hargument
          cases hname
          rfl
      · cases hbelow
        rfl
  next =>
    split at hvalue
    next =>
      cases hvalue
      cases hrefers
    next => cases hvalue

theorem resolveInPlace_fixedPoint_baseAndTotal :
    (∀ id value, baseAndTotal.values.get? id = some value → value.FunctionFree) ∧
      ∃ s', baseAndTotal.resolveInPlace = (s', none) ∧ baseAndTotal.IsFixedPoint s' := by
  have hvalues : ∀ id value, baseAndTotal.values.get? id = some value → value.FunctionFree := by
    intro id value hvalue
    obtain ⟨pair, hpair, rfl⟩ := Dictionary.mem_of_get?_ofList hvalue
    simp only [List.mem_cons, List.not_mem_nil, or_false] at hpair
    rcases hpair with rfl | rfl
    · exact .literal _
    · refine .call (List.forall_mem_cons.2 ⟨.call ?_, ?_⟩)
      · simpa using Formula.FunctionFree.name "base"
      · simpa using Formula.FunctionFree.name "base"
  have hclosed : DependencyGraph.Closed baseAndTotal.values := by
    intro id target hrefers
    rw [(refersTo_baseAndTotal hrefers).2, Dictionary.contains_iff]
    exact ⟨.text "b", by simp [baseAndTotal, Dictionary.ofList, Dictionary.insertAll,
      Dictionary.get?_insert]⟩
  have hacyclic : ¬Cyclic baseAndTotal.values := by
    rintro ⟨id, hcycle⟩
    obtain ⟨before, _, hlast⟩ := Relation.TransGen.tail'_iff.1 hcycle
    obtain ⟨next, hfirst, _⟩ := Relation.TransGen.head'_iff.1 hcycle
    have hid := (refersTo_baseAndTotal hfirst).1.symm.trans (refersTo_baseAndTotal hlast).2
    exact absurd hid (by decide)
  obtain ⟨s', hresolve, hfixed, _⟩ :=
    (resolveInPlace_fixedPoint baseAndTotal hvalues).2.2.2 hclosed hacyclic
  exact ⟨hvalues, s', hresolve, hfixed⟩

end Scope
end Spreadsheet
