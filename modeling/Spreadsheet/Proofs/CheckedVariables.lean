import Spreadsheet.Proofs.ConvergentDefinitions
import Spreadsheet.Proofs.FormulaIds
import Spreadsheet.Proofs.KeyValuePrecedence

/-!
What the check of the definitions is good for. It leaves no value that refers to a variable, and so
none with a name that a pass could not replace. Main statement: a variable of a file whose value
calls no function of the file is resolved, or a built-in function in it refuses its arguments; it is
never undefined, out of sight, or given up.
-/
namespace Spreadsheet

/-! ## Values of a file -/

namespace Source

variable {source : Source} {options : Options} {d : Definitions} {s : Scope} {P : Formula → Prop}

theorem Defines.of_textClosed (h : source.Defines d) (hP : Formula.TextClosed P) :
    (∀ entry ∈ d.values, P entry.2) ∧ ∀ f ∈ d.functions, P f.body := by
  unfold Defines at h
  split at h
  next =>
    subst h
    exact ⟨List.forall_mem_nil _, List.forall_mem_nil _⟩
  next => exact Definitions.parse_of_textClosed hP h

theorem Defines.values_ofDefinitions (h : source.Defines d) (hP : Formula.TextClosed P)
    {id : String} {value : Formula}
    (hvalue : (Scope.ofDefinitions d options).values.get? id = some value) : P value := by
  rw [Scope.get?_values_ofDefinitions] at hvalue
  cases htext : options.lastText? id with
  | some text =>
    rw [htext] at hvalue
    cases hvalue
    exact hP.literal _ rfl
  | none =>
    rw [htext] at hvalue
    obtain ⟨entry, hentry, rfl⟩ := Option.map_eq_some_iff.1 hvalue
    exact (h.of_textClosed hP).1 entry (List.mem_reverse.1 (List.mem_of_find?_eq_some hentry))

end Source

namespace Scope

variable {s : Scope} {p : Position} {f : Formula} {id : String}

/-! ## Names with a meaning of their own -/

theorem resolveName_of_resolvesAlone (hid : Text.lower id = id)
    (hundefined : s.values.contains id = false) (halone : Formula.resolvesAlone id = true) :
    ∃ value, s.resolveName p id = .ok (.literal value) := by
  have hnone : s.values.get? id = none := by
    simpa [Dictionary.contains] using hundefined
  cases hbuiltin : BuiltinVariable.named? id with
  | some v => exact ⟨v.value p, by simp [resolveName, isVariable, lookupVariable, hid, hbuiltin,
      hnone, Builtin.call]⟩
  | none =>
    rw [Formula.resolvesAlone, hbuiltin] at halone
    split at halone
    next address hread =>
      have hrow : address.first.row.isSome = true := by simpa using halone
      exact ⟨.cell address none, by simp [resolveName, isVariable, hid, hbuiltin, hundefined,
        hread, hrow, Formula.cell]⟩
    next => cases halone

/-! ## One pass -/

/-- A result with nothing left to replace, or the refusal of a built-in function. -/
inductive Completes (s : Scope) : Except FormulaError Formula → Prop
  | done {g : Formula} (h : s.pending g = []) : Completes s (.ok g)
  | refused {e : FormulaError} (h : e.RefusesArguments) : Completes s (.error e)

/-- What the check leaves of a value: the tree of a text that refers to no variable. Here it calls
no function of the file either. -/
structure Checked (s : Scope) (f : Formula) : Prop where
  written : f.Written
  folded : f.Folded
  refersTo : ∀ target, ¬f.RefersTo s.values.contains target
  call : ∀ form function arguments, .call form function arguments ∈ f.nodes →
    s.functions.get? (Text.lower function) = none

section Calls

variable {form : CallForm} {function : String} {arguments : List Formula}

theorem Checked.lower_eq (h : s.Checked (.call form function arguments)) :
    Text.lower function = function :=
  h.folded function (by simp)

theorem Checked.argument (h : s.Checked (.call form function arguments)) (hf : f ∈ arguments)
    (hcolumn : (BuiltinFunction.named? function).isSome = true →
      f.isBareAddress s.values.contains = false) : s.Checked f where
  written := by
    cases h.written with
    | call harguments => exact harguments f hf
  folded := h.folded.argument hf
  refersTo := fun target htarget => h.refersTo target (.call hf hcolumn htarget)
  call := fun form' function' arguments' hmem =>
    h.call form' function' arguments' (Formula.mem_nodes_of_argument hf hmem)

/-- A column for the check is one for the pass too, or else a variable of the language. -/
theorem passArgument_of_bare (hfolded : f.Folded)
    (hbare : f.isBareAddress s.values.contains = true) : ∃ seen, s.passArgument p f = .ok seen := by
  cases f with
  | name id =>
    have hid : Text.lower id = id := hfolded id (by simp)
    obtain ⟨hundefined, hread⟩ :
        s.values.contains id = false ∧ (Address.read id).isSome = true := by
      simpa [Formula.isBareAddress] using hbare
    cases hbuiltin : (BuiltinVariable.named? id).isSome with
    | true =>
      have halone : Formula.resolvesAlone id = true := by simp [Formula.resolvesAlone, hbuiltin]
      obtain ⟨value, hvalue⟩ := resolveName_of_resolvesAlone (p := p) hid hundefined halone
      refine ⟨.literal value, ?_⟩
      rw [passArgument, if_neg (by simp [Formula.isBareAddress, isVariable, hid, hbuiltin])]
      exact hvalue
    | false =>
      refine ⟨.name id, if_pos ?_⟩
      simp [Formula.isBareAddress, isVariable, hid, hundefined, hbuiltin, hread]
  | literal _ => cases hbare
  | call _ _ _ => cases hbare
  | function _ _ _ => cases hbare
  | builtin _ => cases hbare

theorem Checked.passArgument_error {e : FormulaError}
    (h : s.Checked (.call form function arguments)) (hf : f ∈ arguments)
    (ih : s.Checked f → s.Completes (s.pass p f)) (herror : s.passArgument p f = .error e) :
    e.RefusesArguments := by
  cases hbare : f.isBareAddress s.values.contains with
  | true =>
    obtain ⟨seen, hseen⟩ := passArgument_of_bare (p := p) (h.folded.argument hf) hbare
    cases herror.symm.trans hseen
  | false =>
    have hpass := ih (h.argument hf fun _ => hbare)
    unfold passArgument at herror
    split at herror
    next => cases herror
    next =>
      rw [herror] at hpass
      cases hpass with
      | refused hrefuses => exact hrefuses

end Calls

/-- One pass completes a checked value. -/
theorem Checked.completes_pass (h : s.Checked f) : s.Completes (s.pass p f) := by
  induction f using Formula.inductionOn with
  | literal value => exact .done rfl
  | function function formals body => cases h.written
  | builtin value => cases h.written
  | name id =>
    -- a name that does not count as a reference has a meaning of its own
    have hcounts : ¬(s.values.contains id = true ∨ Formula.resolvesAlone id = false) :=
      fun hid => h.refersTo id (.name hid)
    obtain ⟨value, hvalue⟩ := resolveName_of_resolvesAlone (p := p) (h.folded id (by simp))
      (by simpa using fun hid => hcounts (.inl hid)) (by simpa using fun hid => hcounts (.inr hid))
    rw [pass, hvalue]
    exact .done rfl
  | call form function arguments ih =>
    rcases s.function_cases function with ⟨d, hd⟩ | ⟨hnone, b, hb⟩ | hunknown
    · cases (h.call form function arguments (by simp [Formula.nodes])).symm.trans hd
    · rw [pass_builtin hnone hb]
      cases hgiven : arguments.mapM (s.passArgument p) with
      | error e =>
        obtain ⟨argument, hargument, hfailed⟩ := exists_of_mapM_error hgiven
        exact .refused (h.passArgument_error hargument (ih argument hargument) hfailed)
      | ok given =>
        -- whatever the arguments became, the function gives a cell or refuses them
        show s.Completes (b.call p given)
        cases hcall : b.call p given with
        | error e => exact .refused (builtin_call_refuses hcall)
        | ok g =>
          obtain ⟨address, rfl⟩ := builtin_call_eq_ok hcall
          exact .done rfl
    · have hcompletes : ∀ argument ∈ arguments, s.Completes (s.pass p argument) := by
        intro argument hargument
        refine ih argument hargument (h.argument hargument fun hbuiltin => ?_)
        rw [isFunction, h.lower_eq, hbuiltin, Bool.or_true] at hunknown
        cases hunknown
      rw [pass_unknown hunknown]
      cases hgiven : arguments.mapM (s.pass p) with
      | error e =>
        obtain ⟨argument, hargument, hfailed⟩ := exists_of_mapM_error hgiven
        cases hfailed ▸ hcompletes argument hargument with
        | refused hrefuses => exact .refused hrefuses
      | ok given =>
        refine .done ((pending_unknown_eq_nil_iff hunknown).2 fun g hg => ?_)
        obtain ⟨argument, hargument, hpass⟩ := exists_of_mem_forall₂ (mapM_eq_ok_iff.1 hgiven) hg
        cases hpass ▸ hcompletes argument hargument with
        | done hdone => exact hdone

/-! ## Variables -/

theorem resolveName_of_written {value : Formula} (hwritten : value.Written)
    (hvalue : s.values.get? (Text.lower id) = some value) : s.resolveName p id = .ok value := by
  have hrows : value.visibleRows? = none := by
    unfold Formula.visibleRows?
    split
    next rows =>
      cases hwritten with
      | literal hunscoped => simpa [Literal.isUnscoped] using hunscoped
    next => rfl
  have hplain : ∀ b, value ≠ .builtin b := by
    rintro b rfl
    cases hwritten
  rw [resolveName_of_get? hvalue hplain]
  simp [lookupVariable, hvalue, hrows]

/-- A variable with a checked value is resolved in two passes, if no function refuses its
arguments. -/
theorem Checked.completes_resolve {value : Formula} (h : s.Checked value)
    (hvalue : s.values.get? (Text.lower id) = some value) :
    s.Completes (s.resolve p (.name id)) := by
  have hpending : s.pending (.name id) ≠ [] := by simp [pending, Formula.nodes]
  have hpass : s.pass p (.name id) = .ok value := resolveName_of_written h.written hvalue
  -- the first pass puts the value in, and the second, if it takes one, completes it
  have hreaches : s.Reaches p 1 (.name id) value := .step hpending hpass (.refl value)
  by_cases hdone : s.pending value = []
  · rw [resolve, hreaches.resolveWithin hdone (by decide)]
    exact .done hdone
  · have hcompletes := h.completes_pass (p := p)
    cases hresult : s.pass p value with
    | error e =>
      rw [resolve, hreaches.resolveWithin_error hdone hresult (by decide), ← hresult]
      exact hcompletes
    | ok g =>
      rw [hresult] at hcompletes
      cases hcompletes with
      | done hlast =>
        have htwo : s.Reaches p 2 (.name id) g :=
          .step hpending hpass (.step hdone hresult (.refl g))
        rw [resolve, htwo.resolveWithin hlast (by decide)]
        exact .done hlast

end Scope

namespace Source

/-- A variable of a file whose value calls no function of the file is resolved at every cell, or a
built-in function in it refuses its arguments. -/
theorem resolve_checkedVariable {source : Source} {options : Options} {s : Scope} {id : String}
    {value : Formula} (h : source.buildScope options = .ok s)
    (hvalue : s.values.get? (Text.lower id) = some value)
    (hcalls : ∀ form function arguments, .call form function arguments ∈ value.nodes →
      s.functions.get? (Text.lower function) = none) (p : Position) :
    (∃ g, s.resolve p (.name id) = .ok g) ∨
      (∃ name fault, s.resolve p (.name id) = .error (.invalidArgument name fault)) ∨
      ∃ name expected given,
        s.resolve p (.name id) = .error (.argumentCount name expected given) := by
  obtain ⟨d, hd, hresolve⟩ := exists_of_buildScope h
  have hwritten := Scope.resolveVariables_keeps (fun _ _ hf hσ => hf.substitute hσ) hresolve
    fun _ _ => hd.values_ofDefinitions Formula.textClosed_written
  have hfolded := Scope.resolveVariables_keeps (fun _ _ hf hσ => hf.substitute hσ) hresolve
    fun _ _ => hd.values_ofDefinitions Formula.textClosed_folded
  have hfree : ∀ id value, (Scope.ofDefinitions d options).values.get? id = some value →
      value.FunctionFree := fun _ _ hother =>
    (hd.values_ofDefinitions Formula.textClosed_written hother).functionFree
  have hchecked : s.Checked value :=
    { written := hwritten _ value hvalue
      folded := hfolded _ value hvalue
      refersTo := Scope.resolveVariables_final hresolve hfree hvalue
      call := hcalls }
  have hcompletes := hchecked.completes_resolve (p := p) hvalue
  generalize s.resolve p (.name id) = result at hcompletes ⊢
  cases hcompletes with
  | done _ => exact .inl ⟨_, rfl⟩
  | refused hrefuses =>
    cases hrefuses with
    | invalidArgument name fault => exact .inr (.inl ⟨name, fault, rfl⟩)
    | argumentCount name expected given => exact .inr (.inr ⟨name, expected, given, rfl⟩)

/-- A file with a variable in terms of another, and a function that neither calls. -/
def besideAndTotal : Source :=
  { filename := "total.csvpp"
    definitions := some
      "total := sum($$beside) * rownum\nbeside := celladjacent(B)\ndef pick(x) x\n".toList
    sheet := []
    sheetLine := 5 }

def besideAndTotalDefinitions : Definitions :=
  { values := [("total", .binary "*" (.namedCall "sum" [.name "beside"]) (.name "rownum")),
      ("beside", .namedCall "celladjacent" [.name "b"])]
    functions := [{ id := "pick", formals := ["x"], body := .name "x" }] }

theorem defines_besideAndTotal : besideAndTotal.Defines besideAndTotalDefinitions := by
  show Definitions.parse _ = _
  cbv

theorem buildScope_besideAndTotal :
    ∃ s, besideAndTotal.buildScope {} = .ok s ∧
      s.values.get? "total" = some (.binary "*"
        (.namedCall "sum" [.namedCall "celladjacent" [.name "b"]]) (.name "rownum")) ∧
      s.functions.keys = ["pick"] := by
  have hgraph : DependencyGraph.ofVariables
      (Scope.ofDefinitions besideAndTotalDefinitions {}).values =
      .ok ⟨.ofList [("beside", []), ("total", ["beside"])]⟩ := rfl
  have horder : (⟨.ofList [("beside", []), ("total", ["beside"])]⟩ :
      DependencyGraph).topologicalOrder = .ok ["beside", "total"] := by
    cbv
  rw [buildScope_of_defines defines_besideAndTotal, Scope.resolveVariables, hgraph]
  dsimp only
  rw [horder]
  exact ⟨_, rfl, rfl, rfl⟩

theorem resolve_checkedVariable_total :
    ∃ s, besideAndTotal.buildScope {} = .ok s ∧ s.functions.keys = ["pick"] ∧
      ((∃ g, s.resolve {} (.name "Total") = .ok g) ∨
        (∃ name fault, s.resolve {} (.name "Total") = .error (.invalidArgument name fault)) ∨
        ∃ name expected given,
          s.resolve {} (.name "Total") = .error (.argumentCount name expected given)) := by
  obtain ⟨s, hscope, hvalue, hkeys⟩ := buildScope_besideAndTotal
  have hname : Text.lower "Total" = "total" := by decide
  refine ⟨s, hscope, hkeys, resolve_checkedVariable hscope (hname.symm ▸ hvalue) ?_ {}⟩
  intro form function arguments hcall
  have hother : ∀ id ∈ (Formula.binary "*"
      (.namedCall "sum" [.namedCall "celladjacent" [.name "b"]]) (.name "rownum")).ids,
      Text.lower id ∉ ["pick"] := by decide
  have hnew := hother function (Formula.mem_ids_of_mem_nodes hcall rfl)
  rw [← hkeys, Dictionary.mem_keys_iff] at hnew
  simpa [Dictionary.contains] using hnew

end Source
end Spreadsheet
