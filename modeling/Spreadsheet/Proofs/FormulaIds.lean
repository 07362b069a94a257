import Spreadsheet.Proofs.LowerCase
import Spreadsheet.Proofs.ResolutionSteps

/-!
The ids that a formula mentions. Substitution brings in only the ids of the values it puts in, and
a pass only those of the definitions it looks up. In trees of texts every id is in lower case, so
that it is looked up as it stands.
-/
namespace Spreadsheet

namespace Formula

/-- What a name or a call is called. -/
def id? : Formula → Option String
  | .name id => some id
  | .call _ id _ => some id
  | _ => none

/-- The ids of all names and calls in the tree. -/
def ids (f : Formula) : List String :=
  f.nodes.filterMap id?

variable {f : Formula} {id : String} {σ : String → Option Formula}

@[simp]
theorem ids_literal (value : Literal) : (Formula.literal value).ids = [] := rfl

@[simp]
theorem ids_builtin (value : Builtin) : (Formula.builtin value).ids = [] := rfl

@[simp]
theorem ids_name (id : String) : (Formula.name id).ids = [id] := rfl

@[simp]
theorem ids_call (form : CallForm) (id : String) (arguments : List Formula) :
    (Formula.call form id arguments).ids = id :: arguments.flatMap ids := by
  unfold ids
  have hself : id? (.call form id arguments) = some id := rfl
  rw [nodes, nodesAll_eq, List.filterMap_cons_some hself, List.filterMap_flatMap]

@[simp]
theorem ids_function (id : String) (formals : List String) (body : Formula) :
    (Formula.function id formals body).ids = body.ids := by
  unfold ids
  have hself : id? (.function id formals body) = none := rfl
  rw [nodes, List.filterMap_cons_none hself]

theorem mem_ids_of_argument {form : CallForm} {function : String} {arguments : List Formula}
    (hf : f ∈ arguments) (hid : id ∈ f.ids) : id ∈ (Formula.call form function arguments).ids := by
  rw [ids_call]
  exact List.mem_cons_of_mem _ (List.mem_flatMap.2 ⟨f, hf, hid⟩)

theorem mem_ids_of_mem_nodes {node : Formula} (hnode : node ∈ f.nodes) (hid : node.id? = some id) :
    id ∈ f.ids :=
  List.mem_filterMap.2 ⟨node, hnode, hid⟩

/-- What a tree mentions after a substitution was there before or comes with a value. -/
theorem mem_ids_substitute (h : id ∈ (f.substitute σ).ids) :
    id ∈ f.ids ∨ ∃ name value, σ name = some value ∧ id ∈ value.ids := by
  induction f using inductionOn generalizing σ with
  | literal value => exact .inl h
  | builtin value => exact .inl h
  | name other =>
    rw [substitute] at h
    cases hother : σ other with
    | none =>
      rw [hother] at h
      exact .inl h
    | some value =>
      rw [hother] at h
      exact .inr ⟨other, value, hother, h⟩
  | function function formals body ih =>
    rw [substitute, ids_function] at h
    rcases ih h with hbody | ⟨name, value, hvalue, hid⟩
    · exact .inl (by rwa [ids_function])
    · -- the formals only take values away
      split at hvalue
      · cases hvalue
      · exact .inr ⟨name, value, hvalue, hid⟩
  | call form function arguments ih =>
    rw [substitute, substituteAll_eq, ids_call] at h
    rcases List.mem_cons.1 h with rfl | hbelow
    · exact .inl (by simp)
    · obtain ⟨_, hmapped, hid⟩ := List.mem_flatMap.1 hbelow
      obtain ⟨argument, hargument, rfl⟩ := List.mem_map.1 hmapped
      rcases ih argument hargument hid with hold | hnew
      · exact .inl (mem_ids_of_argument hargument hold)
      · exact .inr hnew

end Formula

theorem Function.mem_ids_inline {d : Function} {arguments : List Formula} {id : String}
    (h : id ∈ (d.inline arguments).ids) :
    id ∈ d.body.ids ∨ ∃ argument ∈ arguments, id ∈ argument.ids := by
  rcases Formula.mem_ids_substitute h with hbody | ⟨name, value, hvalue, hid⟩
  · exact .inl hbody
  · exact .inr ⟨value, (List.of_mem_zip (Dictionary.pair_mem_of_get?_ofList hvalue)).2, hid⟩

/-! ## What a pass brings in -/

namespace Scope

variable {s : Scope} {p : Position} {f g : Formula} {id : String}

theorem value_call_eq_ok {b : Builtin} {arguments : List Formula} (h : b.call p arguments = .ok g) :
    ∃ value, g = .literal value := by
  cases b with
  | ofVariable v =>
    cases h
    exact ⟨_, rfl⟩
  | ofFunction b =>
    obtain ⟨address, rfl⟩ : ∃ address, g = .cell address := builtin_call_eq_ok h
    exact ⟨_, rfl⟩

/-- A name gives way to its value, or to a literal. -/
theorem resolveName_eq_ok (h : s.resolveName p id = .ok g) :
    s.values.get? (Text.lower id) = some g ∨ ∃ value, g = .literal value := by
  unfold resolveName at h
  split at h
  next =>
    split at h
    next => exact .inr (value_call_eq_ok h)
    next hother =>
      rcases lookupVariable_eq_ok h with ⟨hfound, _⟩ | ⟨_, v, rfl⟩
      · exact .inl hfound
      · exact absurd h (hother _)
  next =>
    split at h
    · split at h <;> cases h
      exact .inr ⟨_, rfl⟩
    · cases h

/-- The definitions under a key mention the id. -/
inductive Mentioned (s : Scope) (key id : String) : Prop
  | inValue {value : Formula} (hvalue : s.values.get? key = some value) (hid : id ∈ value.ids)
  | inBody {d : Function} (hd : s.functions.get? key = some d) (hid : id ∈ d.body.ids)

/-- What a formula mentions after a pass, it mentioned before or a definition does that it
mentioned. -/
theorem mem_ids_pass (h : s.pass p f = .ok g) (hid : id ∈ g.ids) :
    id ∈ f.ids ∨ ∃ key ∈ f.ids, s.Mentioned (Text.lower key) id := by
  induction f using Formula.inductionOn generalizing g with
  | literal value =>
    cases h
    exact .inl hid
  | function function formals body =>
    cases h
    exact .inl hid
  | builtin value =>
    obtain ⟨value, rfl⟩ : ∃ value, g = .literal value := value_call_eq_ok h
    cases hid
  | name other =>
    rcases resolveName_eq_ok h with hvalue | ⟨value, rfl⟩
    · exact .inr ⟨other, List.mem_singleton.2 rfl, .inValue hvalue hid⟩
    · cases hid
  | call form function arguments ih =>
    rcases s.function_cases function with ⟨d, hd⟩ | ⟨hnone, b, hb⟩ | hunknown
    · rw [pass_defined hd, apply_eq_ok_iff] at h
      rw [h.2] at hid
      rcases Function.mem_ids_inline hid with hbody | ⟨argument, hargument, hid⟩
      · exact .inr ⟨function, by simp, .inBody hd hbody⟩
      · exact .inl (Formula.mem_ids_of_argument hargument hid)
    · obtain ⟨given, _, hcall⟩ := (pass_builtin_eq_ok_iff hnone hb).1 h
      obtain ⟨address, rfl⟩ := builtin_call_eq_ok hcall
      cases hid
    · obtain ⟨given, hgiven, rfl⟩ := (pass_unknown_eq_ok_iff hunknown).1 h
      rw [Formula.ids_call] at hid
      rcases List.mem_cons.1 hid with rfl | hbelow
      · exact .inl (by simp)
      · obtain ⟨result, hresult, hid⟩ := List.mem_flatMap.1 hbelow
        obtain ⟨argument, hargument, hpass⟩ := exists_of_mem_forall₂ hgiven hresult
        rcases ih argument hargument hpass hid with hold | ⟨key, hkey, hmentioned⟩
        · exact .inl (Formula.mem_ids_of_argument hargument hold)
        · exact .inr ⟨key, Formula.mem_ids_of_argument hargument hkey, hmentioned⟩

end Scope

/-! ## Ids in lower case -/

namespace Formula

/-- Every id in the tree is in lower case. -/
def Folded (f : Formula) : Prop :=
  ∀ id ∈ f.ids, Text.lower id = id

theorem Folded.substitute {f : Formula} {σ : String → Option Formula} (hf : f.Folded)
    (hσ : ∀ id value, σ id = some value → value.Folded) : (f.substitute σ).Folded := by
  intro id hid
  rcases mem_ids_substitute hid with hold | ⟨name, value, hvalue, hnew⟩
  · exact hf id hold
  · exact hσ name value hvalue id hnew

theorem folded_call {form : CallForm} {id : String} {arguments : List Formula}
    (hid : Text.lower id = id) (harguments : ∀ f ∈ arguments, f.Folded) :
    (Formula.call form id arguments).Folded := by
  intro other hother
  rw [ids_call] at hother
  rcases List.mem_cons.1 hother with rfl | hbelow
  · exact hid
  · obtain ⟨f, hf, hmem⟩ := List.mem_flatMap.1 hbelow
    exact harguments f hf other hmem

theorem Folded.argument {f : Formula} {form : CallForm} {id : String} {arguments : List Formula}
    (h : (Formula.call form id arguments).Folded) (hf : f ∈ arguments) : f.Folded :=
  fun other hother => h other (mem_ids_of_argument hf hother)

theorem textClosed_folded : TextClosed Folded where
  literal := fun _ _ => List.forall_mem_nil _
  reference := fun id => List.forall_mem_singleton.2 (Text.lower_lower id)
  namedCall := fun id _ harguments => folded_call (Text.lower_lower id) harguments
  operator := fun text _ htext hoperands => by
    have hlower : ∀ text ∈ Operator.levels.flatten, Text.lower text = text := by decide
    exact folded_call (hlower text htext) hoperands

end Formula
end Spreadsheet
