import Spreadsheet.Proofs.CheckedVariables
import Spreadsheet.Proofs.RelevantDefinitions

/-!
Definitions that are rejected although they could be resolved. The check reads the arguments of a
call before it is known what the function makes of them. Main statement: if every definition can be
resolved, an id that the check reports stands only in arguments of functions of the file, and it is
a column name, or one of these functions does not use all its arguments.
-/
namespace Spreadsheet

/-! ## What inlining keeps -/

theorem Dictionary.get?_ofList_of_nodup {α : Type} {pairs : List (String × α)} {key : String}
    {value : α} (hnodup : (pairs.map (·.1)).Nodup) (h : (key, value) ∈ pairs) :
    (Dictionary.ofList pairs).get? key = some value := by
  obtain ⟨found, hfound⟩ := contains_iff.1 (contains_ofList_iff.2 ⟨value, h⟩)
  have hsame := List.inj_on_of_nodup_map hnodup (pair_mem_of_get?_ofList hfound) h rfl
  cases hsame
  exact hfound

namespace Formula

variable {f node value : Formula} {id : String} {σ : String → Option Formula}
  {defined : String → Bool}

theorem FunctionFree.mem_nodes_substitute (hf : f.FunctionFree) (hname : .name id ∈ f.nodes)
    (hσ : σ id = some value) (hnode : node ∈ value.nodes) : node ∈ (f.substitute σ).nodes := by
  induction hf with
  | literal _ => simp [nodes] at hname
  | builtin _ => simp [nodes] at hname
  | name other =>
    rw [Formula.substitute, ← name_mem_nodes_name.1 hname, hσ]
    exact hnode
  | call _ ih =>
    obtain ⟨argument, hargument, hbelow⟩ := name_mem_nodes_call.1 hname
    rw [Formula.substitute, substituteAll_eq]
    exact mem_nodes_of_argument (List.mem_map_of_mem hargument) (ih argument hargument hbelow)

theorem RefersTo.name_mem_nodes (h : f.RefersTo defined id) : .name id ∈ f.nodes := by
  induction h with
  | name _ => simp
  | call hf _ _ ih => exact mem_nodes_of_argument hf ih
  | function _ _ ih => simp [nodes, ih]

theorem RefersTo.counts (h : f.RefersTo defined id) :
    defined id = true ∨ resolvesAlone id = false := by
  induction h with
  | name hid => exact hid
  | call _ _ _ ih => exact ih
  | function _ _ ih => exact ih

end Formula

/-- The body uses every formal. -/
def Function.UsesFormals (d : Function) : Prop :=
  ∀ formal ∈ d.formals, .name formal ∈ d.body.nodes

/-- A function that uses its formals keeps everything that stands in its arguments. -/
theorem Function.UsesFormals.mem_nodes_inline {d : Function} {arguments : List Formula}
    {argument node : Formula} (h : d.UsesFormals) (hbody : d.body.FunctionFree)
    (hnodup : d.formals.Nodup) (hlength : arguments.length = d.formals.length)
    (hargument : argument ∈ arguments) (hnode : node ∈ argument.nodes) :
    node ∈ (d.inline arguments).nodes := by
  have hformals : (d.formals.zip arguments).map (·.1) = d.formals := List.map_fst_zip (by omega)
  have hgiven : (d.formals.zip arguments).map (·.2) = arguments := List.map_snd_zip (by omega)
  -- the argument stands beside its formal, which occurs in the body and gives way to it
  rw [← hgiven] at hargument
  obtain ⟨pair, hpair, rfl⟩ := List.mem_map.1 hargument
  have hvalue : (Dictionary.ofList (d.formals.zip arguments)).get? pair.1 = some pair.2 :=
    Dictionary.get?_ofList_of_nodup (by rwa [hformals]) hpair
  have hused : .name pair.1 ∈ d.body.nodes := h pair.1 (List.of_mem_zip hpair).1
  exact hbody.mem_nodes_substitute hused hvalue hnode

/-! ## Names without a meaning -/

namespace Scope

variable {s : Scope} {p : Position} {f g : Formula} {target : String}

/-- The name is no variable, and has no meaning without being one. -/
structure Undefined (s : Scope) (target : String) : Prop where
  unbound : s.isVariable target = false
  alone : Formula.resolvesAlone target = false

theorem Undefined.row_eq_none (h : s.Undefined target) {address : Address}
    (hread : Address.read target = some address) : address.first.row = none := by
  have halone := h.alone
  simp only [Formula.resolvesAlone, hread, Bool.or_eq_false_iff] at halone
  simpa using halone.2

theorem Undefined.pass_ne_ok (h : s.Undefined target) : s.pass p (.name target) ≠ .ok g := by
  intro hpass
  rw [pass, resolveName, if_neg (by simp [h.unbound])] at hpass
  split at hpass
  next address hread =>
    rw [if_neg (by simp [h.row_eq_none hread])] at hpass
    cases hpass
  next => cases hpass

/-- A reference that counts and stands in no argument of a function of the file. -/
inductive RefersDirectly (s : Scope) : Formula → String → Prop
  | name {id : String} (hid : s.values.contains id = true ∨ Formula.resolvesAlone id = false) :
    RefersDirectly s (.name id) id
  | call {form : CallForm} {function : String} {arguments : List Formula} {f : Formula}
    {id : String} (hf : f ∈ arguments) (hnone : s.functions.get? (Text.lower function) = none)
    (hcolumn : (BuiltinFunction.named? function).isSome = true →
      f.isBareAddress s.values.contains = false)
    (h : RefersDirectly s f id) : RefersDirectly s (.call form function arguments) id

/-- A pass takes for a column at most what the check takes for one. -/
theorem isBareAddress_isVariable (hf : f.Folded) (h : f.isBareAddress s.values.contains = false) :
    f.isBareAddress s.isVariable = false := by
  cases f with
  | name id =>
    have hid : Text.lower id = id := hf id (by simp)
    cases hcontains : s.values.contains id with
    | true => simp [Formula.isBareAddress, isVariable, hid, hcontains]
    | false =>
      have hread : (Address.read id).isSome = false := by
        simpa [Formula.isBareAddress, hcontains] using h
      simp [Formula.isBareAddress, hread]
  | _ => rfl

/-- A name without a meaning fails in the first pass where no function of the file is around it. -/
theorem RefersDirectly.pass_ne_ok (h : s.RefersDirectly f target) (htarget : s.Undefined target)
    (hf : f.Folded) : s.pass p f ≠ .ok g := by
  induction h generalizing g with
  | name _ => exact htarget.pass_ne_ok
  | @call form function arguments argument target hargument hnone hcolumn _ ih =>
    have hfolded := hf.argument hargument
    intro hpass
    rcases s.function_cases function with ⟨d, hd⟩ | ⟨_, b, hb⟩ | hunknown
    · cases hnone.symm.trans hd
    · obtain ⟨given, hgiven, _⟩ := (pass_builtin_eq_ok_iff hnone hb).1 hpass
      obtain ⟨seen, _, hseen⟩ := exists_of_forall₂_mem hgiven hargument
      rw [hf function (by simp)] at hb
      have hbare := isBareAddress_isVariable hfolded (hcolumn (by simp [hb]))
      rw [passArgument, if_neg (by simp [hbare])] at hseen
      exact ih htarget hfolded hseen
    · obtain ⟨given, hgiven, _⟩ := (pass_unknown_eq_ok_iff hunknown).1 hpass
      obtain ⟨seen, _, hseen⟩ := exists_of_forall₂_mem hgiven hargument
      exact ih htarget hfolded hseen

theorem RefersDirectly.refersTo (h : s.RefersDirectly f target) :
    f.RefersTo s.values.contains target := by
  induction h with
  | name hid => exact .name hid
  | call hf _ hcolumn _ ih => exact .call hf hcolumn ih

theorem RefersDirectly.resolve_ne_ok (h : s.RefersDirectly f target)
    (htarget : s.Undefined target) (hf : f.Folded) : s.resolve p f ≠ .ok g := by
  intro hresolve
  obtain ⟨_, _, hreaches, hdone⟩ := resolveWithin_eq_ok_iff.1 hresolve
  cases hreaches with
  | refl => cases List.filterMap_eq_nil_iff.1 hdone _ h.refersTo.name_mem_nodes
  | step _ hpass _ => exact h.pass_ne_ok htarget hf hpass

/-! ## Names that are kept -/

/-- A cell that a built-in function gives back does not come from a name without a meaning. -/
theorem builtin_call_ne_ok {b : BuiltinFunction} {given : List Formula} {seen : Formula}
    (hread : Address.read target = none) (hseen : seen ∈ given)
    (hname : .name target ∈ seen.nodes) : b.call p given ≠ .ok g := by
  intro h
  unfold BuiltinFunction.call BuiltinFunction.columnArgument at h
  split at h
  next => cases h
  next hcolumn =>
    split at hcolumn
    next argument =>
      cases List.mem_singleton.1 hseen
      have haddress : seen.address? = none := by
        cases seen with
        | literal _ => simp [Formula.nodes] at hname
        | name id =>
          rw [← Formula.name_mem_nodes_name.1 hname]
          exact hread
        | _ => rfl
      rw [haddress] at hcolumn
      cases hcolumn
    next => cases hcolumn

/-- A pass keeps a name without a meaning if the functions that it inlines use their formals. -/
theorem Plain.name_mem_nodes_pass {keys : String → Prop} (hs : s.Plain)
    (hfunctions : ∀ key d, keys key → s.functions.get? key = some d →
      d.formals.Nodup ∧ d.UsesFormals)
    (htarget : s.Undefined target) (hread : Address.read target = none) (hf : f.Plain)
    (hwithin : Within keys f) (hname : .name target ∈ f.nodes) (h : s.pass p f = .ok g) :
    .name target ∈ g.nodes := by
  induction hf generalizing g with
  | literal _ => simp [Formula.nodes] at hname
  | name id =>
    rw [← Formula.name_mem_nodes_name.1 hname] at h
    exact absurd h htarget.pass_ne_ok
  | @call form function arguments harguments ih =>
    obtain ⟨argument, hargument, hbelow⟩ := Formula.name_mem_nodes_call.1 hname
    have hkept {next : Formula} (hpass : s.pass p argument = .ok next) :
        .name target ∈ next.nodes :=
      ih argument hargument (hwithin.argument hargument) hbelow hpass
    rcases s.function_cases function with ⟨d, hd⟩ | ⟨hnone, b, hb⟩ | hunknown
    · rw [pass_defined hd, apply_eq_ok_iff] at h
      obtain ⟨hlength, rfl⟩ := h
      obtain ⟨hnodup, hused⟩ := hfunctions _ d (hwithin function (by simp)) hd
      have hbody : d.body.FunctionFree := (hs.functions _ d hd).functionFree
      exact hused.mem_nodes_inline hbody hnodup hlength hargument hbelow
    · -- a built-in function would have to read the name as an address
      obtain ⟨given, hgiven, hcall⟩ := (pass_builtin_eq_ok_iff hnone hb).1 h
      obtain ⟨seen, hseen, hpass⟩ := exists_of_forall₂_mem hgiven hargument
      refine absurd hcall (builtin_call_ne_ok hread hseen ?_)
      unfold passArgument at hpass
      split at hpass
      next =>
        cases hpass
        exact hbelow
      next => exact hkept hpass
    · obtain ⟨given, hgiven, rfl⟩ := (pass_unknown_eq_ok_iff hunknown).1 h
      obtain ⟨next, hnext, hpass⟩ := exists_of_forall₂_mem hgiven hargument
      exact Formula.mem_nodes_of_argument hnext (hkept hpass)

/-- A formula with a name without a meaning is resolved only if the name is read as a column, or a
function on the way drops an argument. -/
theorem Plain.column_or_drops (hs : s.Plain)
    (hnodup : ∀ key d, s.functions.get? key = some d → d.formals.Nodup)
    (htarget : s.Undefined target) (hf : f.Plain) (hname : .name target ∈ f.nodes)
    (h : s.resolve p f = .ok g) :
    (∃ address, Address.read target = some address ∧ address.first.row = none) ∨
      ∃ key d, Relevant s s f key ∧ s.functions.get? key = some d ∧
        ∃ formal ∈ d.formals, .name formal ∉ d.body.nodes := by
  cases hread : Address.read target with
  | some address => exact .inl ⟨address, rfl, htarget.row_eq_none hread⟩
  | none =>
    right
    by_contra hall
    have hfunctions (key : String) (d : Function) (hkey : Relevant s s f key)
        (hd : s.functions.get? key = some d) : d.formals.Nodup ∧ d.UsesFormals := by
      refine ⟨hnodup key d hd, fun formal hformal => ?_⟩
      by_contra hunused
      exact hall ⟨key, d, hkey, hd, formal, hformal, hunused⟩
    obtain ⟨_, _, hreaches, hdone⟩ := resolveWithin_eq_ok_iff.1 h
    -- every formula on the way mentions only what the first one can come to, and the name is kept
    obtain ⟨_, _, hleft⟩ : g.Plain ∧ Within (Relevant s s f) g ∧ .name target ∈ g.nodes := by
      refine hreaches.keeps (P := fun f' => f'.Plain ∧ Within (Relevant s s f) f' ∧
        .name target ∈ f'.nodes) (fun f' next hf' hpass => ?_) ⟨hf, fun _ => .formula, hname⟩
      obtain ⟨hplain, hwithin, hmem⟩ := hf'
      exact ⟨hs.pass hplain hpass, (closedUnder_relevant s s f).within_pass hwithin hpass,
        hs.name_mem_nodes_pass hfunctions htarget hread hplain hwithin hmem hpass⟩
    cases List.filterMap_eq_nil_iff.1 hdone _ hleft

end Scope

/-! ## Definitions of a file -/

namespace Definitions

theorem FormalList.lower_names (formals : FormalList) :
    ∀ name ∈ formals.names, Text.lower name = name := by
  induction formals with
  | last t _ => simp [names, Text.lower_lower]
  | more t _ _ _ rest ih => simpa [names, Text.lower_lower] using ih

theorem nodup_formals_parse {input : String} {d : Definitions}
    (h : Definitions.parse input = .ok d) : ∀ f ∈ d.functions, f.formals.Nodup := by
  obtain ⟨_, ds, _, _, hnodup, rfl⟩ := derivesSection_parse h
  intro f hf
  obtain ⟨definition, hdefinition, hfunction⟩ := List.mem_filterMap.1 hf
  cases definition with
  | assignment => cases hfunction
  | function define t opening closing hdefine hkind hopening hclosing formals body =>
    cases hfunction
    -- the formals are put in lower case once more, which changes nothing
    have hlower : (formals.elim [] FormalList.names).map Text.lower =
        formals.elim [] FormalList.names := by
      cases formals with
      | none => rfl
      | some formals => exact (List.map_congr_left formals.lower_names).trans (List.map_id _)
    show ((formals.elim [] FormalList.names).map Text.lower).Nodup
    rw [hlower]
    exact hnodup _ hdefinition

end Definitions

namespace Source

variable {source : Source} {options : Options} {d : Definitions}

theorem Defines.nodup_formals (h : source.Defines d) : ∀ f ∈ d.functions, f.formals.Nodup := by
  unfold Defines at h
  split at h
  next =>
    subst h
    exact List.forall_mem_nil _
  next => exact Definitions.nodup_formals_parse h

theorem mem_functions_of_get? {key : String} {f : Function}
    (h : (Scope.ofDefinitions d options).functions.get? key = some f) : f ∈ d.functions := by
  rw [Scope.get?_functions_ofDefinitions] at h
  exact List.mem_reverse.1 (List.mem_of_find?_eq_some h)

theorem Defines.plain (h : source.Defines d) : (Scope.ofDefinitions d options).Plain where
  values := fun _ _ hvalue =>
    (h.values_ofDefinitions Formula.textClosed_written hvalue).mono fun _ _ => rfl
  functions := fun _ f hf =>
    ((h.of_textClosed Formula.textClosed_written).2 f (mem_functions_of_get? hf)).mono
      fun _ _ => rfl

theorem Defines.undefined (h : source.Defines d) {value : Formula} {id target : String}
    (hvalue : (Scope.ofDefinitions d options).values.get? id = some value)
    (hrefers : value.RefersTo (Scope.ofDefinitions d options).values.contains target)
    (htarget : (Scope.ofDefinitions d options).values.contains target = false) :
    (Scope.ofDefinitions d options).Undefined target := by
  have hlower : Text.lower target = target :=
    h.values_ofDefinitions Formula.textClosed_folded hvalue target
      (Formula.mem_ids_of_mem_nodes hrefers.name_mem_nodes rfl)
  have halone : Formula.resolvesAlone target = false := by
    rcases hrefers.counts with hdefined | halone
    · cases htarget.symm.trans hdefined
    · exact halone
  have hbuiltin : (BuiltinVariable.named? target).isSome = false := by
    rw [Formula.resolvesAlone, Bool.or_eq_false_iff] at halone
    exact halone.1
  exact { unbound := by simp [Scope.isVariable, hlower, htarget, hbuiltin], alone := halone }

/-- If every definition of a file can be resolved as it stands, at some cell, then an id that is
reported as undefined stands only in arguments of functions of the file; and it is the name of a
column, or a function that the definition comes to call drops an argument. -/
theorem buildScope_undefinedVariables {s : Scope} {ids : List String} (hd : source.Defines d)
    (hs : s = Scope.ofDefinitions d options)
    (hresolves : ∀ id value, s.values.get? id = some value → ∃ p g, s.resolve p value = .ok g)
    (h : source.buildScope options =
      .error (.definitions source.filename (.undefinedVariables ids))) :
    ids ≠ [] ∧ ∀ target ∈ ids,
      (∃ id, DependencyGraph.RefersTo s.values id target) ∧
      ∀ id value, s.values.get? id = some value → value.RefersTo s.values.contains target →
        ¬s.RefersDirectly value target ∧
        ((∃ address, Address.read target = some address ∧ address.first.row = none) ∨
          ∃ key f, Scope.Relevant s s value key ∧ s.functions.get? key = some f ∧
            ∃ formal ∈ f.formals, .name formal ∉ f.body.nodes) := by
  subst hs
  have hresolve : (Scope.ofDefinitions d options).resolveVariables =
      .error (.undefinedVariables ids) := by
    rw [buildScope_of_defines hd] at h
    cases hresult : (Scope.ofDefinitions d options).resolveVariables with
    | ok s =>
      rw [hresult] at h
      cases h
    | error e =>
      rw [hresult] at h
      cases h
      rfl
  obtain ⟨hne, hids⟩ :=
    DependencyGraph.ofVariables_error (Scope.ofVariables_of_resolveVariables_error hresolve)
  refine ⟨hne, fun target htarget => ?_⟩
  obtain ⟨id, hsome, hmissing⟩ := hids target htarget
  refine ⟨⟨id, hsome⟩, fun id value hvalue hrefers => ?_⟩
  have hundefined := hd.undefined hvalue hrefers hmissing
  have hfolded := hd.values_ofDefinitions Formula.textClosed_folded hvalue
  obtain ⟨p, g, hg⟩ := hresolves id value hvalue
  constructor
  · exact fun hdirect => hdirect.resolve_ne_ok hundefined hfolded hg
  · refine hd.plain.column_or_drops (fun key f hf => ?_) hundefined
      (hd.plain.values id value hvalue) hrefers.name_mem_nodes hg
    exact hd.nodup_formals f (mem_functions_of_get? hf)

/-- A function that makes nothing of its argument, and a variable that gives it a name without a
meaning. -/
def ignoredName : Source :=
  { filename := "ignored.csvpp"
    definitions := some "def ignore(x) A1\ny := ignore(no_one)\n".toList
    sheet := []
    sheetLine := 4 }

def ignoredNameDefinitions : Definitions :=
  { values := [("y", .namedCall "ignore" [.name "no_one"])]
    functions := [{ id := "ignore", formals := ["x"], body := .name "a1" }] }

theorem defines_ignoredName : ignoredName.Defines ignoredNameDefinitions := by
  show Definitions.parse _ = _
  cbv

theorem resolves_ignoredName (id : String) (value : Formula)
    (h : (Scope.ofDefinitions ignoredNameDefinitions {}).values.get? id = some value) :
    (Scope.ofDefinitions ignoredNameDefinitions {}).resolve {} value =
      .ok (.cell (Address.cell 0 0)) := by
  have hentry : (id, value) ∈ [("y", Formula.namedCall "ignore" [.name "no_one"])] :=
    Dictionary.get?_eq_some_iff.1 h
  cases List.mem_singleton.1 hentry
  rfl

theorem buildScope_ignoredName : ignoredName.buildScope {} =
    .error (.definitions "ignored.csvpp" (.undefinedVariables ["no_one"])) := by
  rw [buildScope_of_defines defines_ignoredName]
  rfl

/-- The name is no column, so the function is found that drops it. -/
theorem buildScope_undefinedVariables_ignoredName :
    ignoredName.Defines ignoredNameDefinitions ∧
      (∀ id value, (Scope.ofDefinitions ignoredNameDefinitions {}).values.get? id = some value →
        ∃ p g, (Scope.ofDefinitions ignoredNameDefinitions {}).resolve p value = .ok g) ∧
      ignoredName.buildScope {} =
        .error (.definitions ignoredName.filename (.undefinedVariables ["no_one"])) ∧
      ∃ key f, (Scope.ofDefinitions ignoredNameDefinitions {}).functions.get? key = some f ∧
        ∃ formal ∈ f.formals, .name formal ∉ f.body.nodes := by
  have hresolves (id : String) (value : Formula)
      (hvalue : (Scope.ofDefinitions ignoredNameDefinitions {}).values.get? id = some value) :
      ∃ p g, (Scope.ofDefinitions ignoredNameDefinitions {}).resolve p value = .ok g :=
    ⟨{}, _, resolves_ignoredName id value hvalue⟩
  refine ⟨defines_ignoredName, hresolves, buildScope_ignoredName, ?_⟩
  obtain ⟨_, hids⟩ := buildScope_undefinedVariables defines_ignoredName rfl hresolves
    buildScope_ignoredName
  obtain ⟨⟨id, value, hvalue, hrefers⟩, hall⟩ := hids "no_one" (by simp)
  rcases (hall id value hvalue hrefers).2 with ⟨address, hread, _⟩ | ⟨key, f, _, hf, hformal⟩
  · have hnone : Address.read "no_one" = none := by decide
    cases hnone.symm.trans hread
  · exact ⟨key, f, hf, hformal⟩

/-- Every definition is resolved as it stands, and yet the file is rejected. -/
theorem buildScope_rejects_resolvable :
    ignoredName.Defines ignoredNameDefinitions ∧
      (∀ id value, (Scope.ofDefinitions ignoredNameDefinitions {}).values.get? id = some value →
        (Scope.ofDefinitions ignoredNameDefinitions {}).resolve {} value =
          .ok (.cell (Address.cell 0 0))) ∧
      ignoredName.buildScope {} =
        .error (.definitions ignoredName.filename (.undefinedVariables ["no_one"])) :=
  ⟨defines_ignoredName, resolves_ignoredName, buildScope_ignoredName⟩

end Source
end Spreadsheet
