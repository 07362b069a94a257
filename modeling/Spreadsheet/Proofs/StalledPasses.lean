import Spreadsheet.Proofs.ResolutionSteps

/-!
Passes do not look at numbers. Trees that count as equal may differ in the sign of a zero, so that
a pass that changes nothing need not give the very same tree; but such trees have one outline, and
the outline decides what a pass makes of a tree.
-/
namespace Spreadsheet

namespace Literal

/-- The literal, with one number in the place of all. -/
def outline : Literal → Literal
  | .number _ => .number (Number.ofBits 0)
  | value => value

theorem outline_eq_of_same {a b : Literal} (h : a.same b = true) : a.outline = b.outline := by
  unfold same at h
  split at h
  next => rfl
  next => rw [eq_of_beq h]

end Literal

namespace Formula

mutual

/-- The formula, with one number in the place of all. -/
def outline : Formula → Formula
  | .literal value => .literal value.outline
  | .name id => .name id
  | .call form id arguments => .call form id (outlineAll arguments)
  | .function id formals body => .function id formals (outline body)
  | .builtin value => .builtin value
termination_by structural f => f

def outlineAll : List Formula → List Formula
  | [] => []
  | f :: rest => outline f :: outlineAll rest
termination_by structural fs => fs

end

theorem outlineAll_eq (fs : List Formula) : outlineAll fs = fs.map outline := by
  induction fs with
  | nil => rfl
  | cons f rest ih => rw [outlineAll, ih, List.map_cons]

variable {f f' : Formula}

theorem map_outline_eq_of_sameAll {fs fs' : List Formula}
    (hsame : ∀ f ∈ fs, ∀ f', f.same f' = true → f.outline = f'.outline)
    (h : sameAll fs fs' = true) : fs.map outline = fs'.map outline := by
  induction fs generalizing fs' with
  | nil =>
    cases fs' with
    | nil => rfl
    | cons f' rest' => cases h
  | cons f rest ih =>
    cases fs' with
    | nil => cases h
    | cons f' rest' =>
      obtain ⟨hfirst, hrest⟩ := List.forall_mem_cons.1 hsame
      rw [sameAll, Bool.and_eq_true] at h
      rw [List.map_cons, List.map_cons, hfirst f' h.1, ih hrest h.2]

/-- Equal trees have one outline. -/
theorem outline_eq_of_same (h : f.same f' = true) : f.outline = f'.outline := by
  induction f using inductionOn generalizing f' with
  | literal value =>
    cases f' with
    | literal value' => rw [outline, outline, Literal.outline_eq_of_same h]
    | _ => cases h
  | name id =>
    cases f' with
    | name id' => rw [eq_of_beq h]
    | _ => cases h
  | builtin value =>
    cases f' with
    | builtin value' => rw [eq_of_beq h]
    | _ => cases h
  | call form id arguments ih =>
    cases f' with
    | call form' id' arguments' =>
      rw [same, Bool.and_eq_true, Bool.and_eq_true] at h
      obtain ⟨⟨hform, hid⟩, harguments⟩ := h
      rw [outline, outline, outlineAll_eq, outlineAll_eq, eq_of_beq hform, eq_of_beq hid,
        map_outline_eq_of_sameAll (fun f hf _ => ih f hf) harguments]
    | _ => cases h
  | function id formals body ih =>
    cases f' with
    | function id' formals' body' =>
      rw [same, Bool.and_eq_true, Bool.and_eq_true] at h
      obtain ⟨⟨hid, hformals⟩, hbody⟩ := h
      rw [outline, outline, eq_of_beq hid, eq_of_beq hformals, ih hbody]
    | _ => cases h

/-! ## What can be read off an outline -/

theorem nodes_outline (f : Formula) : f.outline.nodes = f.nodes.map outline := by
  induction f using inductionOn with
  | literal value => rfl
  | name id => rfl
  | builtin value => rfl
  | function id formals body ih => rw [outline, nodes, nodes, ih, List.map_cons, outline]
  | call form id arguments ih =>
    rw [outline, nodes, nodes, outlineAll_eq, List.map_cons, outline, outlineAll_eq,
      nodesAll_eq, nodesAll_eq, List.map_flatMap, List.flatMap_map]
    congr 1
    exact List.flatMap_congr ih

theorem address?_outline (f : Formula) : f.outline.address? = f.address? := by
  cases f with
  | literal value => cases value <;> rfl
  | _ => rfl

theorem isBareAddress_outline (f : Formula) (defined : String → Bool) :
    f.outline.isBareAddress defined = f.isBareAddress defined := by
  cases f <;> rfl

/-- Values with one outline make trees with one outline. -/
theorem outline_substitute {σ τ : String → Option Formula}
    (h : ∀ id, (σ id).map outline = (τ id).map outline) :
    (f.substitute σ).outline = (f.substitute τ).outline := by
  induction f using inductionOn generalizing σ τ with
  | literal value => rfl
  | builtin value => rfl
  | name id =>
    have hid := h id
    rw [substitute, substitute]
    cases hσ : σ id with
    | none =>
      cases hτ : τ id with
      | none => rfl
      | some value => simp [hσ, hτ] at hid
    | some value =>
      cases hτ : τ id with
      | none => simp [hσ, hτ] at hid
      | some value' => simpa [hσ, hτ] using hid
  | function id formals body ih =>
    rw [substitute, substitute, outline, outline]
    congr 1
    apply ih
    intro name
    -- the formals hide the same names on both sides
    split
    · rfl
    · exact h name
  | call form id arguments ih =>
    simp only [substitute, substituteAll_eq, outline, outlineAll_eq, List.map_map]
    congr 1
    apply List.map_congr_left
    intro argument hargument
    exact ih argument hargument h

end Formula

theorem Dictionary.get?_ofList_map {α β : Type} (k : α → β) (pairs : List (String × α))
    (key : String) :
    (Dictionary.ofList (pairs.map fun pair => (pair.1, k pair.2))).get? key =
      ((Dictionary.ofList pairs).get? key).map k := by
  simp only [ofList, insertAll, List.foldl_map]
  rw [get?_foldl_insert, get?_foldl_insert]
  simp [get?_empty, Option.map_map, Function.comp_def]

namespace Scope

variable {s : Scope} {p : Position} {f f' g : Formula}

theorem pending_outline (s : Scope) (f : Formula) : s.pending f.outline = s.pending f := by
  unfold pending
  rw [Formula.nodes_outline, List.filterMap_map]
  congr 1
  funext node
  cases node <;> rfl

theorem outline_inline (d : Function) {arguments arguments' : List Formula}
    (h : arguments.map Formula.outline = arguments'.map Formula.outline) :
    (d.inline arguments).outline = (d.inline arguments').outline := by
  apply Formula.outline_substitute
  intro id
  have hzip (given : List Formula) : (d.formals.zip given).map
      (fun pair => (pair.1, pair.2.outline)) = d.formals.zip (given.map Formula.outline) := by
    rw [List.zip_map_right]
    rfl
  rw [← Dictionary.get?_ofList_map, ← Dictionary.get?_ofList_map, hzip, hzip, h]

/-- A built-in function looks only for an address in its argument. -/
theorem columnArgument_of_outline {b : BuiltinFunction} {given given' : List Formula}
    {address : Address} (houtline : given.map Formula.outline = given'.map Formula.outline)
    (h : b.columnArgument given = .ok address) : b.columnArgument given' = .ok address := by
  unfold BuiltinFunction.columnArgument at h
  split at h
  next argument =>
    obtain ⟨argument', rfl⟩ : ∃ argument', given' = [argument'] := by
      have hlength := congrArg List.length houtline
      rw [List.length_map, List.length_map] at hlength
      exact List.length_eq_one_iff.1 hlength.symm
    have haddress : argument.address? = argument'.address? := by
      have hargument : argument.outline = argument'.outline := by simpa using houtline
      rw [← Formula.address?_outline, hargument, Formula.address?_outline]
    rw [haddress] at h
    unfold BuiltinFunction.columnArgument
    dsimp only
    split at h
    next found hfound =>
      split at h
      next hcolumn => rw [if_pos hcolumn, h]
      next => cases h
    next => cases h
  next => cases h

theorem builtin_call_of_outline {b : BuiltinFunction} {given given' : List Formula}
    (houtline : given.map Formula.outline = given'.map Formula.outline)
    (h : b.call p given = .ok g) : b.call p given' = .ok g := by
  unfold BuiltinFunction.call at h ⊢
  split at h
  next => cases h
  next address hgiven =>
    rw [columnArgument_of_outline houtline hgiven]
    exact h

/-! ## Passes over trees with one outline -/

/-- Step by step, results of trees with one outline have one outline. -/
theorem forall₂_of_outline {k : Formula → Except FormulaError Formula}
    {fs fs' gs : List Formula}
    (hk : ∀ f ∈ fs, ∀ f' g, f.outline = f'.outline → k f = .ok g →
      ∃ g', k f' = .ok g' ∧ g.outline = g'.outline)
    (houtline : fs.map Formula.outline = fs'.map Formula.outline)
    (h : fs.Forall₂ (fun f g => k f = .ok g) gs) :
    ∃ gs', fs'.Forall₂ (fun f g => k f = .ok g) gs' ∧
      gs.map Formula.outline = gs'.map Formula.outline := by
  induction h generalizing fs' with
  | nil =>
    cases fs' with
    | nil => exact ⟨[], .nil, rfl⟩
    | cons f' rest' => cases houtline
  | @cons f g rest more hfirst _ ih =>
    cases fs' with
    | nil => cases houtline
    | cons f' rest' =>
      rw [List.map_cons, List.map_cons, List.cons.injEq] at houtline
      obtain ⟨hkfirst, hkrest⟩ := List.forall_mem_cons.1 hk
      obtain ⟨g', hg', hgoutline⟩ := hkfirst f' g houtline.1 hfirst
      obtain ⟨more', hmore', hmoreOutline⟩ := ih hkrest houtline.2
      refine ⟨g' :: more', .cons hg' hmore', ?_⟩
      rw [List.map_cons, List.map_cons, hgoutline, hmoreOutline]

/-- The outline of a tree decides whether a pass succeeds and the outline of what it gives. -/
theorem pass_of_outline (h : f.outline = f'.outline) (hpass : s.pass p f = .ok g) :
    ∃ g', s.pass p f' = .ok g' ∧ g.outline = g'.outline := by
  induction f using Formula.inductionOn generalizing f' g with
  | literal value =>
    cases f' with
    | literal value' =>
      cases hpass
      exact ⟨_, rfl, h⟩
    | _ => simp [Formula.outline] at h
  | name id =>
    cases f' with
    | name id' =>
      cases h
      exact ⟨g, hpass, rfl⟩
    | _ => simp [Formula.outline] at h
  | builtin value =>
    cases f' with
    | builtin value' =>
      cases h
      exact ⟨g, hpass, rfl⟩
    | _ => simp [Formula.outline] at h
  | function id formals body =>
    cases f' with
    | function id' formals' body' =>
      cases hpass
      exact ⟨_, rfl, h⟩
    | _ => simp [Formula.outline] at h
  | call form id arguments ih =>
    cases f' with
    | call form' id' arguments' =>
      simp only [Formula.outline, Formula.outlineAll_eq, Formula.call.injEq] at h
      obtain ⟨rfl, rfl, harguments⟩ := h
      rcases s.function_cases id with ⟨d, hd⟩ | ⟨hnone, b, hb⟩ | hunknown
      · rw [pass_defined hd, apply_eq_ok_iff] at hpass
        rw [pass_defined hd]
        have hlength := congrArg List.length harguments
        rw [List.length_map, List.length_map] at hlength
        refine ⟨d.inline arguments', apply_eq_ok_iff.2 ⟨hlength ▸ hpass.1, rfl⟩, ?_⟩
        rw [hpass.2]
        exact outline_inline d harguments
      · obtain ⟨given, hgiven, hcall⟩ := (pass_builtin_eq_ok_iff hnone hb).1 hpass
        have hargument : ∀ f ∈ arguments, ∀ f' g, f.outline = f'.outline →
            s.passArgument p f = .ok g →
            ∃ g', s.passArgument p f' = .ok g' ∧ g.outline = g'.outline := by
          intro f hf f' g houtline hpassed
          have hbare : f.isBareAddress s.isVariable = f'.isBareAddress s.isVariable := by
            rw [← Formula.isBareAddress_outline, houtline, Formula.isBareAddress_outline]
          unfold passArgument at hpassed ⊢
          rw [hbare] at hpassed
          by_cases hcolumn : f'.isBareAddress s.isVariable = true
          · rw [if_pos hcolumn] at hpassed ⊢
            cases hpassed
            exact ⟨f', rfl, houtline⟩
          · rw [if_neg hcolumn] at hpassed ⊢
            exact ih f hf houtline hpassed
        obtain ⟨given', hgiven', houtline⟩ := forall₂_of_outline hargument harguments hgiven
        exact ⟨g, (pass_builtin_eq_ok_iff hnone hb).2
          ⟨given', hgiven', builtin_call_of_outline houtline hcall⟩, rfl⟩
      · obtain ⟨given, hgiven, rfl⟩ := (pass_unknown_eq_ok_iff hunknown).1 hpass
        obtain ⟨given', hgiven', houtline⟩ :=
          forall₂_of_outline (fun f hf _ _ => ih f hf) harguments hgiven
        refine ⟨_, (pass_unknown_eq_ok_iff hunknown).2 ⟨given', hgiven', rfl⟩, ?_⟩
        rw [Formula.outline, Formula.outline, Formula.outlineAll_eq, Formula.outlineAll_eq, houtline]
    | _ => simp [Formula.outline] at h

end Scope
end Spreadsheet
