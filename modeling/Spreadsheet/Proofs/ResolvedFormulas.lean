import Spreadsheet.Proofs.ResolutionRuns

/-!
What resolving leaves of a formula. The values of a scope are trees of texts or single bound cells,
which each pass puts into the formula only where they can be seen; a formula that resolving
returns has neither names nor calls of known functions.
-/
namespace Spreadsheet

/-! ## Scopes -/

namespace Scope

/-- Every value is as `P` says and every body is the tree of a text. -/
structure Holds (P : Formula → Prop) (s : Scope) : Prop where
  values : ∀ id value, s.values.get? id = some value → P value
  functions : ∀ id f, s.functions.get? id = some f → f.body.Written

variable {P Q : Formula → Prop} {s : Scope}

theorem holds_empty : ({} : Scope).Holds P :=
  ⟨fun _ _ h => (nomatch h), fun _ _ h => (nomatch h)⟩

theorem Holds.mono (h : s.Holds P) (hPQ : ∀ value, P value → Q value) : s.Holds Q :=
  ⟨fun id value hvalue => hPQ value (h.values id value hvalue), h.functions⟩

theorem Holds.defineVariable (h : s.Holds P) (id : String) {value : Formula} (hvalue : P value) :
    (s.defineVariable id value).Holds P :=
  ⟨Dictionary.forall_insert h.values hvalue, h.functions⟩

theorem Holds.defineFunction (h : s.Holds P) (id : String) {f : Function}
    (hf : f.body.Written) : (s.defineFunction id f).Holds P :=
  ⟨h.values, Dictionary.forall_insert h.functions hf⟩

theorem Holds.addDefinitions (h : s.Holds Formula.Written) {d : Definitions} (hd : d.Written) :
    (s.addDefinitions d).Holds Formula.Written := by
  have hfunctions : (d.functions.foldl (fun s f => s.defineFunction f.id f) s).Holds
      Formula.Written :=
    List.foldlRecOn _ _ h fun _ hs f hf => hs.defineFunction f.id (hd.functions f hf)
  exact List.foldlRecOn _ _ hfunctions fun _ hs entry hentry =>
    hs.defineVariable entry.1 (hd.values entry hentry)

/-! ## Variables in terms of each other -/

section Settling

variable (hP : ∀ f σ, P f → (∀ id value, σ id = some value → P value) → P (Formula.substitute σ f))

include hP

/-- What substitution keeps, settling keeps. -/
theorem settle_keeps {settled : Dictionary Formula} {dependencies : List String}
    {value : Formula} (hsettled : ∀ id value, settled.get? id = some value → P value)
    (hvalue : P value) : P (settle settled dependencies value) := by
  refine List.foldlRecOn dependencies _ hvalue fun current hcurrent id _ => ?_
  apply hP _ _ hcurrent
  intro name found hfound
  split at hfound
  next => exact hsettled id found hfound
  next => cases hfound

theorem settleAll_keeps {values : Dictionary Formula} (g : DependencyGraph)
    (order : List String) (hvalues : ∀ id value, values.get? id = some value → P value) :
    ∀ id value, (settleAll values g order).get? id = some value → P value := by
  refine List.foldlRecOn (motive := fun settled : Dictionary Formula =>
    ∀ id value, settled.get? id = some value → P value) order _
    (fun _ _ h => (nomatch h)) fun settled hsettled node _ => ?_
  split
  next value hvalue =>
    exact Dictionary.forall_insert hsettled (settle_keeps hP hsettled (hvalues node value hvalue))
  next => exact hsettled

theorem resolveVariables_keeps {s' : Scope} (hresolve : s.resolveVariables = .ok s')
    (hvalues : ∀ id value, s.values.get? id = some value → P value) :
    ∀ id value, s'.values.get? id = some value → P value := by
  unfold Scope.resolveVariables at hresolve
  split at hresolve
  next => cases hresolve
  next g _ =>
    split at hresolve
    next => cases hresolve
    next order _ =>
      cases hresolve
      exact settleAll_keeps hP g order hvalues

end Settling

theorem functions_resolveVariables {s' : Scope} (h : s.resolveVariables = .ok s') :
    s'.functions = s.functions := by
  unfold Scope.resolveVariables at h
  split at h
  next => cases h
  next =>
    split at h <;> cases h
    rfl

theorem Holds.resolveVariables {s' : Scope} (h : s.Holds Formula.Written)
    (hresolve : s.resolveVariables = .ok s') : s'.Holds Formula.Written where
  values := resolveVariables_keeps (fun _ _ hf hσ => hf.substitute hσ) hresolve h.values
  functions := functions_resolveVariables hresolve ▸ h.functions

/-! ## Passes -/

/-- What a variable of a sheet stands for: the tree of a text, or a cell. -/
def Bindable (value : Formula) : Prop :=
  value.Written ∨ ∃ address rows, value = .literal (.cell address rows)

variable {p : Position} {f g : Formula}

/-- Trees that can be seen from the row of a cell. -/
abbrev SeenFrom (p : Position) (f : Formula) : Prop :=
  f.Over (Literal.isVisibleFrom p.row)

theorem seenFrom_of_written (p : Position) (h : f.Written) : SeenFrom p f :=
  h.mono fun _ => Literal.isVisibleFrom_of_isUnscoped p.row

theorem Holds.yields (hs : s.Holds Bindable) (p : Position) :
    s.Yields (Literal.isVisibleFrom p.row) p where
  unscoped := fun _ => Literal.isVisibleFrom_of_isUnscoped p.row
  values := fun id value hvalue => by
    rcases hs.values id value hvalue with hwritten | ⟨address, rows, rfl⟩
    · refine ⟨?_, fun _ => seenFrom_of_written p hwritten⟩
      rintro b rfl
      cases hwritten
    · refine ⟨?_, fun hvisible => .literal hvisible⟩
      rintro b ⟨⟩
  functions := fun id d hd => seenFrom_of_written p (hs.functions id d hd)

end Scope

namespace Formula

mutual

/-- The text of a formula as seen from `p`, with the given text for what no text stands for. -/
def renderCharsWith (missing : List Char) (p : Position) : Formula → List Char
  | .literal value => value.renderChars p
  | .name id => nameChars id
  | .call form id arguments => callChars form id arguments (renderAllCharsWith missing p arguments)
  | .function _ _ body => renderCharsWith missing p body
  | .builtin (.ofVariable v) => (v.value p).renderChars p
  | .builtin (.ofFunction _) => missing
termination_by structural f => f

def renderAllCharsWith (missing : List Char) (p : Position) : List Formula → List (List Char)
  | [] => []
  | f :: rest => renderCharsWith missing p f :: renderAllCharsWith missing p rest
termination_by structural fs => fs

end

mutual

theorem renderCharsWith_eq (p : Position) : (f : Formula) →
    renderCharsWith "#REF!".toList p f = renderChars p f
  | .literal _ => rfl
  | .name _ => rfl
  | .call _ _ arguments => by rw [renderCharsWith, renderChars, renderAllCharsWith_eq p arguments]
  | .function _ _ body => renderCharsWith_eq p body
  | .builtin (.ofVariable _) => rfl
  | .builtin (.ofFunction _) => rfl
termination_by structural f => f

theorem renderAllCharsWith_eq (p : Position) : (fs : List Formula) →
    renderAllCharsWith "#REF!".toList p fs = renderAllChars p fs
  | [] => rfl
  | f :: rest => by
    rw [renderAllCharsWith, renderAllChars, renderCharsWith_eq p f, renderAllCharsWith_eq p rest]
termination_by structural fs => fs

end

theorem renderAllCharsWith_eq_map (missing : List Char) (p : Position) (fs : List Formula) :
    renderAllCharsWith missing p fs = fs.map (renderCharsWith missing p) := by
  induction fs with
  | nil => rfl
  | cons f rest ih => rw [renderAllCharsWith, ih, List.map_cons]

/-- Nothing is missing in the text of a tree over names and literals. -/
theorem Over.renderCharsWith {leaf : Literal → Bool} {f : Formula} (h : Over leaf f)
    (missing : List Char) (p : Position) : f.renderCharsWith missing p = f.renderChars p := by
  induction h with
  | literal _ => rfl
  | name _ => rfl
  | call _ ih =>
    rw [Formula.renderCharsWith, renderChars, renderAllCharsWith_eq_map, renderAllChars_eq,
      List.map_congr_left ih]

/-- A formula with nothing left to resolve in it, every part of which can be seen from the row
of `p`. -/
structure Resolved (s : Scope) (p : Position) (f : Formula) : Prop where
  name : ∀ id, .name id ∉ f.nodes
  function : ∀ id formals body, .function id formals body ∉ f.nodes
  builtin : ∀ value, .builtin value ∉ f.nodes
  call : ∀ form id arguments, .call form id arguments ∈ f.nodes → s.isFunction id = false
  cell : ∀ address rows, .literal (.cell address (some rows)) ∈ f.nodes →
    rows.contains p.row = true
  text : ∀ missing, f.renderCharsWith missing p = f.renderChars p

theorem Resolved.of_functions_eq {s s' : Scope} {p : Position} {f : Formula}
    (h : f.Resolved s p) (hfunctions : s.functions = s'.functions) : f.Resolved s' p := by
  refine { h with call := fun form id arguments hmem => ?_ }
  rw [Scope.isFunction, ← hfunctions]
  exact h.call form id arguments hmem

theorem resolved_of_seenFrom {s : Scope} {p : Position} {f : Formula} (hseen : Scope.SeenFrom p f)
    (hdone : s.pending f = []) : f.Resolved s p := by
  have hnone := List.filterMap_eq_nil_iff.1 hdone
  constructor
  case name =>
    intro id hmem
    cases hnone _ hmem
  case function =>
    intro id formals body hmem
    cases hseen.of_mem_nodes _ hmem
  case builtin =>
    intro value hmem
    cases hseen.of_mem_nodes _ hmem
  case call =>
    intro form id arguments hmem
    have hcall := hnone _ hmem
    dsimp only at hcall
    split at hcall
    next => cases hcall
    next hfunction => exact eq_false_of_ne_true hfunction
  case cell =>
    intro address rows hmem
    cases hseen.of_mem_nodes _ hmem with
    | literal hvisible => exact hvisible
  case text => exact fun missing => hseen.renderCharsWith missing p

end Formula

namespace Scope

theorem resolved_of_resolve {s : Scope} {p : Position} {f g : Formula} (hs : s.Holds Bindable)
    (hf : f.Written) (h : s.resolve p f = .ok g) : g.Resolved s p := by
  obtain ⟨_, _, hreaches, hdone⟩ := resolveWithin_eq_ok_iff.1 h
  have hseen : SeenFrom p g :=
    hreaches.keeps (fun _ _ => (hs.yields p).over_pass) (seenFrom_of_written p hf)
  exact Formula.resolved_of_seenFrom hseen hdone

end Scope
end Spreadsheet
