import Spreadsheet.Proofs.CompositionalResolution
import Spreadsheet.Proofs.FormulaIds

/-!
Which definitions a formula depends on. A formula mentions ids, the definitions of those mention
further ones, and so on; passes meet no others. Main statement: scopes that agree on these ids
resolve the formula to the same result, or fail with the same error.
-/
namespace Spreadsheet.Scope

/-- The ids that a formula can come to ask for, in lower case: those that it mentions, and those
that the definitions of such an id mention in either scope. -/
inductive Relevant (s s' : Scope) (f : Formula) : String → Prop
  | formula {id : String} (hid : id ∈ f.ids) : Relevant s s' f (Text.lower id)
  | definition {key id : String} (hkey : Relevant s s' f key)
    (hid : s.Mentioned key id ∨ s'.Mentioned key id) : Relevant s s' f (Text.lower id)

/-- The two scopes define the ids alike, or not at all. -/
structure AgreeOn (keys : String → Prop) (s s' : Scope) : Prop where
  values : ∀ key, keys key → s.values.get? key = s'.values.get? key
  functions : ∀ key, keys key → s.functions.get? key = s'.functions.get? key

/-- All ids that the formula mentions are among the keys. -/
def Within (keys : String → Prop) (f : Formula) : Prop :=
  ∀ id ∈ f.ids, keys (Text.lower id)

variable {keys : String → Prop} {s s' : Scope} {p : Position} {f g : Formula} {id : String}

theorem Within.argument {form : CallForm} {arguments : List Formula} {argument : Formula}
    (h : Within keys (.call form id arguments)) (hargument : argument ∈ arguments) :
    Within keys argument :=
  fun other hother => h other (Formula.mem_ids_of_argument hargument hother)

/-! ## Single look-ups -/

theorem AgreeOn.isVariable_eq (h : AgreeOn keys s s') (hid : keys (Text.lower id)) :
    s.isVariable id = s'.isVariable id := by
  simp only [isVariable, Dictionary.contains, h.values _ hid]

theorem AgreeOn.isFunction_eq (h : AgreeOn keys s s') (hid : keys (Text.lower id)) :
    s.isFunction id = s'.isFunction id := by
  simp only [isFunction, Dictionary.contains, h.functions _ hid]

theorem AgreeOn.resolveName_eq (h : AgreeOn keys s s') (hid : keys (Text.lower id)) :
    s.resolveName p id = s'.resolveName p id := by
  have hlookup : s.lookupVariable id p = s'.lookupVariable id p := by
    simp only [lookupVariable, h.values _ hid]
  unfold resolveName
  rw [h.isVariable_eq hid, hlookup]

theorem AgreeOn.pending_eq (h : AgreeOn keys s s') (hf : Within keys f) :
    s.pending f = s'.pending f := by
  apply List.filterMap_congr
  intro node hnode
  cases node with
  | call form id arguments =>
    have hid : id ∈ f.ids := Formula.mem_ids_of_mem_nodes hnode rfl
    simp only [h.isFunction_eq (hf id hid)]
  | _ => rfl

/-! ## One pass -/

theorem AgreeOn.passArgument_eq (h : AgreeOn keys s s') (hf : Within keys f)
    (hpass : s.pass p f = s'.pass p f) : s.passArgument p f = s'.passArgument p f := by
  have hbare : f.isBareAddress s.isVariable = f.isBareAddress s'.isVariable := by
    cases f with
    | name id =>
      have hid : keys (Text.lower id) := hf id (List.mem_singleton.2 rfl)
      simp only [Formula.isBareAddress, h.isVariable_eq hid]
    | _ => rfl
  unfold passArgument
  rw [hbare, hpass]

/-- A pass looks up nothing but what the formula mentions. -/
theorem AgreeOn.pass_eq (h : AgreeOn keys s s') (hf : Within keys f) :
    s.pass p f = s'.pass p f := by
  induction f using Formula.inductionOn with
  | literal value => rfl
  | function function formals body => rfl
  | builtin value => rfl
  | name id => exact h.resolveName_eq (hf id (List.mem_singleton.2 rfl))
  | call form id arguments ih =>
    have hid : keys (Text.lower id) := by
      apply hf
      rw [Formula.ids_call]
      exact List.mem_cons_self
    have hsame := h.functions _ hid
    have hbelow : ∀ argument ∈ arguments, s.pass p argument = s'.pass p argument :=
      fun argument hargument => ih argument hargument (hf.argument hargument)
    rcases s.function_cases id with ⟨d, hd⟩ | ⟨hnone, b, hb⟩ | hunknown
    · rw [pass_defined hd, pass_defined (hsame ▸ hd)]
    · rw [pass_builtin hnone hb, pass_builtin (hsame ▸ hnone) hb]
      congr 1
      apply mapM_congr
      intro argument hargument
      exact h.passArgument_eq (hf.argument hargument) (hbelow argument hargument)
    · rw [pass_unknown hunknown, pass_unknown (h.isFunction_eq hid ▸ hunknown), mapM_congr hbelow]

/-! ## Runs of passes -/

/-- Whatever the definitions of the keys mention is among the keys. -/
def ClosedUnder (keys : String → Prop) (s : Scope) : Prop :=
  ∀ key id, keys key → s.Mentioned key id → keys (Text.lower id)

theorem ClosedUnder.within_pass (hs : ClosedUnder keys s) (hf : Within keys f)
    (h : s.pass p f = .ok g) : Within keys g := by
  intro id hid
  rcases mem_ids_pass h hid with hold | ⟨key, hkey, hmentioned⟩
  · exact hf id hold
  · exact hs _ id (hf key hkey) hmentioned

theorem AgreeOn.resolveWithin_eq (h : AgreeOn keys s s') (hs : ClosedUnder keys s)
    (hf : Within keys f) (limit : Nat) : s.resolveWithin p limit f = s'.resolveWithin p limit f := by
  -- on the passes that are left; what each of them gives stays within the keys
  induction limit generalizing f with
  | zero => rw [resolveWithin, resolveWithin, h.pending_eq hf]
  | succ limit ih =>
    rw [resolveWithin, resolveWithin, h.pending_eq hf, ← h.pass_eq hf]
    split
    next => rfl
    next =>
      cases hpass : s.pass p f with
      | error e => rfl
      | ok next =>
        dsimp only
        rw [ih (hs.within_pass hf hpass)]

theorem closedUnder_relevant (s s' : Scope) (f : Formula) : ClosedUnder (Relevant s s' f) s :=
  fun _ _ hkey hid => .definition hkey (.inl hid)

/-- Definitions of ids that a formula cannot come to ask for have no influence on it. -/
theorem resolve_relevant {s s' : Scope} {f : Formula} (h : AgreeOn (Relevant s s' f) s s')
    (p : Position) : s.resolve p f = s'.resolve p f :=
  h.resolveWithin_eq (closedUnder_relevant s s' f) (fun _ hid => .formula hid) maxPasses

/-- The table of rates with a price at that rate, and a function of its own in the place of a
built-in one. -/
def taxAndPrice : Scope :=
  { values := taxAtRate.values.insert "price" (.name "rate")
    functions := taxAtRate.functions.insert "cellabove"
      { id := "cellabove", formals := ["x"], body := .name "price" } }

/-- A tax on a tax comes to ask for the function, its formal, its operator and the rate. -/
theorem relevant_tax {key : String}
    (h : Relevant taxAtRate taxAndPrice (.namedCall "tax" [.namedCall "tax" [.text "a"]]) key) :
    key ∈ ["tax", "amount", "*", "rate"] := by
  have hformula : ∀ id ∈ (Formula.namedCall "tax" [.namedCall "tax" [.text "a"]]).ids,
      Text.lower id ∈ ["tax", "amount", "*", "rate"] := by decide
  have hdefinitions : ∀ key ∈ ["tax", "amount", "*", "rate"], ∀ s ∈ [taxAtRate, taxAndPrice],
      (∀ value ∈ s.values.get? key, ∀ id ∈ value.ids,
        Text.lower id ∈ ["tax", "amount", "*", "rate"]) ∧
      ∀ d ∈ s.functions.get? key, ∀ id ∈ d.body.ids,
        Text.lower id ∈ ["tax", "amount", "*", "rate"] := by decide
  induction h with
  | formula hid => exact hformula _ hid
  | @definition key id _ hid ih =>
    rcases hid with hid | hid
    · cases hid with
      | inValue hvalue hid => exact (hdefinitions key ih taxAtRate (by simp)).1 _ hvalue id hid
      | inBody hd hid => exact (hdefinitions key ih taxAtRate (by simp)).2 _ hd id hid
    · cases hid with
      | inValue hvalue hid => exact (hdefinitions key ih taxAndPrice (by simp)).1 _ hvalue id hid
      | inBody hd hid => exact (hdefinitions key ih taxAndPrice (by simp)).2 _ hd id hid

theorem resolve_relevant_taxAndPrice :
    AgreeOn (Relevant taxAtRate taxAndPrice (.namedCall "tax" [.namedCall "tax" [.text "a"]]))
        taxAtRate taxAndPrice ∧
      taxAtRate.resolve {} (.namedCall "tax" [.namedCall "tax" [.text "a"]]) =
        taxAndPrice.resolve {} (.namedCall "tax" [.namedCall "tax" [.text "a"]]) := by
  have hagree : AgreeOn (Relevant taxAtRate taxAndPrice
      (.namedCall "tax" [.namedCall "tax" [.text "a"]])) taxAtRate taxAndPrice := by
    constructor
    · intro key hkey
      have hother : "price" ≠ key := fun heq => absurd (relevant_tax hkey) (heq ▸ by decide)
      rw [taxAndPrice, Dictionary.get?_insert, if_neg hother]
    · intro key hkey
      have hother : "cellabove" ≠ key := fun heq => absurd (relevant_tax hkey) (heq ▸ by decide)
      rw [taxAndPrice, Dictionary.get?_insert, if_neg hother]
  exact ⟨hagree, resolve_relevant hagree {}⟩

end Spreadsheet.Scope
