import Spreadsheet.Proofs.DependencyOrder

/-!
Which references count. A name refers to a variable where it is defined or has no meaning of its
own, a column given to a built-in function apart; the graph of a set of definitions has an edge for
each of them, and exists if all of them are defined.
-/
namespace Spreadsheet

namespace Formula

@[elab_as_elim]
theorem inductionOn {P : Formula → Prop} (f : Formula) (literal : ∀ value, P (.literal value))
    (name : ∀ id, P (.name id))
    (call : ∀ form id arguments, (∀ f ∈ arguments, P f) → P (.call form id arguments))
    (function : ∀ id formals body, P body → P (.function id formals body))
    (builtin : ∀ value, P (.builtin value)) : P f :=
  @Formula.rec P (fun fs => ∀ f ∈ fs, P f) literal name call function builtin
    (fun _ hf => nomatch hf) (fun _ _ hfirst hrest => List.forall_mem_cons.2 ⟨hfirst, hrest⟩) f

/-- A reference to the variable `id` that counts. The formals of a function are not its
variables. -/
inductive RefersTo (defined : String → Bool) : Formula → String → Prop
  | name {id : String} (hid : defined id = true ∨ resolvesAlone id = false) :
    RefersTo defined (.name id) id
  | call {form : CallForm} {function : String} {arguments : List Formula} {f : Formula}
    {id : String} (hf : f ∈ arguments)
    (hcolumn : (BuiltinFunction.named? function).isSome = true → f.isBareAddress defined = false)
    (h : RefersTo defined f id) : RefersTo defined (.call form function arguments) id
  | function {function : String} {formals : List String} {body : Formula} {id : String}
    (hfree : id ∉ formals) (h : RefersTo defined body id) :
    RefersTo defined (.function function formals body) id

variable {defined : String → Bool} {id : String}

theorem mem_addName {found : List String} {other : String} :
    id ∈ addName found other ↔ id ∈ found ∨ id = other := by
  unfold addName
  split
  next hfound =>
    have hmem : other ∈ found := by simpa using hfound
    exact ⟨.inl, fun h => h.elim (fun hid => hid) fun hid => hid ▸ hmem⟩
  next => simp

theorem mem_foldl_addName {names found : List String} :
    id ∈ names.foldl addName found ↔ id ∈ found ∨ id ∈ names := by
  induction names generalizing found with
  | nil => simp
  | cons other rest ih => rw [List.foldl_cons, ih, mem_addName, List.mem_cons, or_assoc]

theorem mem_collectAll {fs : List Formula} (h : ∀ f ∈ fs, ∀ found,
    id ∈ collect defined found f ↔ id ∈ found ∨ f.RefersTo defined id) (found : List String) :
    id ∈ collectAll defined found fs ↔ id ∈ found ∨ ∃ f ∈ fs, f.RefersTo defined id := by
  induction fs generalizing found with
  | nil => simp [collectAll]
  | cons f rest ih =>
    obtain ⟨hf, hrest⟩ := List.forall_mem_cons.1 h
    rw [collectAll, ih hrest, hf, List.exists_mem_cons_iff, or_assoc]

theorem mem_collectArguments {fs : List Formula} (h : ∀ f ∈ fs, ∀ found,
    id ∈ collect defined found f ↔ id ∈ found ∨ f.RefersTo defined id) (found : List String) :
    id ∈ collectArguments defined found fs ↔
      id ∈ found ∨ ∃ f ∈ fs, f.isBareAddress defined = false ∧ f.RefersTo defined id := by
  induction fs generalizing found with
  | nil => simp [collectArguments]
  | cons f rest ih =>
    obtain ⟨hf, hrest⟩ := List.forall_mem_cons.1 h
    rw [collectArguments, ih hrest, List.exists_mem_cons_iff]
    cases hcolumn : f.isBareAddress defined with
    | true => simp
    | false => simp [hf, or_assoc]

theorem mem_collect_iff (f : Formula) (found : List String) :
    id ∈ collect defined found f ↔ id ∈ found ∨ f.RefersTo defined id := by
  induction f using inductionOn generalizing found with
  | literal value => exact ⟨.inl, fun h => h.elim (fun hid => hid) fun hnone => by cases hnone⟩
  | builtin value => exact ⟨.inl, fun h => h.elim (fun hid => hid) fun hnone => by cases hnone⟩
  | name other =>
    have hrefers : RefersTo defined (.name other) id ↔
        (defined other || !resolvesAlone other) = true ∧ id = other := by
      constructor
      · intro h
        cases h with
        | name hid => exact ⟨by simpa using hid, rfl⟩
      · rintro ⟨hcounts, rfl⟩
        exact .name (by simpa using hcounts)
    rw [collect, hrefers]
    split
    next hcounts => rw [mem_addName, and_iff_right hcounts]
    next hcounts => simp [hcounts]
  | call form function arguments ih =>
    rw [collect]
    split
    next hbuiltin =>
      rw [mem_collectArguments ih]
      refine or_congr_right ⟨?_, fun h => ?_⟩
      · rintro ⟨f, hf, hcolumn, h⟩
        exact .call hf (fun _ => hcolumn) h
      · cases h with
        | call hf hcolumn h => exact ⟨_, hf, hcolumn hbuiltin, h⟩
    next hbuiltin =>
      rw [mem_collectAll ih]
      refine or_congr_right ⟨?_, fun h => ?_⟩
      · rintro ⟨f, hf, h⟩
        exact .call hf (fun h => absurd h hbuiltin) h
      · cases h with
        | call hf _ h => exact ⟨_, hf, h⟩
  | function function formals body ih =>
    rw [collect, mem_foldl_addName, List.mem_filter, ih]
    refine or_congr_right ⟨?_, fun h => ?_⟩
    · rintro ⟨h, hfree⟩
      exact .function (by simpa using hfree) (h.resolve_left List.not_mem_nil)
    · cases h with
      | function hfree h => exact ⟨.inr h, by simpa using hfree⟩

theorem mem_references_iff (f : Formula) :
    id ∈ f.references defined ↔ f.RefersTo defined id := by
  rw [references, mem_collect_iff, or_iff_right List.not_mem_nil]

end Formula

namespace DependencyGraph

variable {values : Dictionary Formula}

/-- The definition of `id` refers to `target`. -/
def RefersTo (values : Dictionary Formula) (id target : String) : Prop :=
  ∃ value, values.get? id = some value ∧ value.RefersTo values.contains target

/-- Whatever the definitions refer to is among them. -/
def Closed (values : Dictionary Formula) : Prop :=
  ∀ id target, RefersTo values id target → values.contains target = true

/-- The graph of the definitions, with an edge for each reference that counts. -/
structure Represents (g : DependencyGraph) (values : Dictionary Formula) : Prop where
  nodes : ∀ id, id ∈ g.nodes ↔ values.contains id = true
  dependsOn : ∀ id target, g.DependsOn id target ↔ RefersTo values id target

theorem represents_mapValues (values : Dictionary Formula) :
    Represents ⟨values.mapValues (Formula.references values.contains)⟩ values where
  nodes := fun id => by
    simp only [nodes, Dictionary.mem_keys_iff, Dictionary.contains, Dictionary.get?_mapValues,
      Option.isSome_map]
  dependsOn := fun id target => by
    rw [DependsOn, dependencies, Dictionary.get?_mapValues]
    cases hvalue : values.get? id with
    | none => simp [RefersTo, hvalue]
    | some value => simp [RefersTo, hvalue, Formula.mem_references_iff]

/-- What the definitions refer to and do not define. -/
theorem mem_undefined_iff {target : String} :
    (target ∈ (values.mapValues (Formula.references values.contains)).entries.flatMap
      fun entry => entry.2.filter fun id => !values.contains id) ↔
    ∃ id, RefersTo values id target ∧ values.contains target = false := by
  simp only [List.mem_flatMap, Prod.exists, ← Dictionary.get?_eq_some_iff,
    Dictionary.get?_mapValues, Option.map_eq_some_iff, List.mem_filter, RefersTo]
  constructor
  · rintro ⟨id, _, ⟨value, hvalue, rfl⟩, htarget, hundefined⟩
    exact ⟨id, ⟨value, hvalue, (Formula.mem_references_iff value).1 htarget⟩,
      by simpa using hundefined⟩
  · rintro ⟨id, ⟨value, hvalue, htarget⟩, hundefined⟩
    exact ⟨id, _, ⟨value, hvalue, rfl⟩, (Formula.mem_references_iff value).2 htarget,
      by simpa using hundefined⟩

/-- The graph exists if the definitions are closed; otherwise the missing ones are reported. -/
theorem ofVariables_cases (values : Dictionary Formula) :
    (Closed values ∧ ∃ g, ofVariables values = .ok g ∧ g.Represents values) ∨
      (¬Closed values ∧ ∃ ids, ofVariables values = .error (.undefinedVariables ids)) := by
  unfold ofVariables
  dsimp only
  split
  next hnone =>
    refine .inl ⟨fun id target hrefers => ?_, _, rfl, represents_mapValues values⟩
    apply Decidable.byContradiction
    intro hundefined
    have hmem := mem_undefined_iff.2 ⟨id, hrefers, by simpa using hundefined⟩
    rw [List.isEmpty_iff.1 hnone] at hmem
    cases hmem
  next hsome =>
    refine .inr ⟨fun hclosed => hsome ?_, _, rfl⟩
    rw [List.isEmpty_iff, List.eq_nil_iff_forall_not_mem]
    intro target hmem
    obtain ⟨id, hrefers, hundefined⟩ := mem_undefined_iff.1 hmem
    rw [hclosed id target hrefers] at hundefined
    cases hundefined

theorem ofVariables_error {ids : List String}
    (h : ofVariables values = .error (.undefinedVariables ids)) :
    ids ≠ [] ∧ ∀ target ∈ ids,
      ∃ id, RefersTo values id target ∧ values.contains target = false := by
  unfold ofVariables at h
  dsimp only at h
  split at h
  next => cases h
  next hsome =>
    cases h
    constructor
    · intro hnone
      apply hsome
      rw [List.isEmpty_iff, List.eq_nil_iff_forall_not_mem]
      intro target htarget
      have hsorted := Dictionary.mem_sortedNames_iff.2 htarget
      rw [hnone] at hsorted
      cases hsorted
    · intro target htarget
      exact mem_undefined_iff.1 (Dictionary.mem_sortedNames_iff.1 htarget)

end DependencyGraph
end Spreadsheet
