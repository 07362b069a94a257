import Mathlib.Data.Set.Finite.List
import Mathlib.Order.WellFounded
import Spreadsheet.Proofs.CompositionalResolution
import Spreadsheet.Proofs.SettledVariables

/-!
Definitions that do not use themselves. Putting in bodies copies arguments, and the copies hold calls
of their own, so that a formula may grow with every pass; but a call of a function comes to its end
if its arguments do and everything that its body uses does. Main statement: if no definition uses
itself, every formula comes to its end, and none is given up while passes are left.
-/
namespace Spreadsheet

theorem Formula.Over.functionFree {leaf : Literal → Bool} {f : Formula} (h : f.Over leaf) :
    f.FunctionFree := by
  induction h with
  | literal _ => exact .literal _
  | name id => exact .name id
  | call _ ih => exact .call ih

namespace Scope

/-! ## What a definition uses -/

/-- A definition of a scope, by its name. -/
inductive Entry where
  | value (id : String)
  | function (id : String)
deriving DecidableEq

/-- All definitions of a scope. -/
def entries (s : Scope) : List Entry :=
  s.values.keys.map .value ++ s.functions.keys.map .function

/-- The definitions that a formula asks for; names among `formals` stand for arguments. -/
inductive Mentions (s : Scope) (formals : List String) (f : Formula) : Entry → Prop
  | value {id : String} (hname : .name id ∈ f.nodes) (hfree : id ∉ formals)
    (hdefined : s.values.contains (Text.lower id) = true) :
    Mentions s formals f (.value (Text.lower id))
  | function {form : CallForm} {id : String} {arguments : List Formula}
    (hcall : .call form id arguments ∈ f.nodes)
    (hdefined : s.functions.contains (Text.lower id) = true) :
    Mentions s formals f (.function (Text.lower id))

/-- The value of a variable, or the body of a function, asks for the other definition. -/
inductive Uses (s : Scope) : Entry → Entry → Prop
  | value {id : String} {value : Formula} {entry : Entry} (hvalue : s.values.get? id = some value)
    (h : s.Mentions [] value entry) : Uses s (.value id) entry
  | function {id : String} {d : Function} {entry : Entry} (hd : s.functions.get? id = some d)
    (h : s.Mentions d.formals d.body entry) : Uses s (.function id) entry

/-- No definition uses itself, directly or through others. -/
def NonRecursive (s : Scope) : Prop :=
  ∀ entry, ¬Relation.TransGen s.Uses entry entry

variable {s : Scope} {p : Position} {f g : Formula} {k n : Nat} {formals : List String}

theorem value_mem_entries {id : String} (h : s.values.contains id = true) :
    .value id ∈ s.entries := by
  simpa [entries] using Dictionary.mem_keys_iff.2 h

theorem function_mem_entries {id : String} (h : s.functions.contains id = true) :
    .function id ∈ s.entries := by
  simpa [entries] using Dictionary.mem_keys_iff.2 h

theorem Mentions.mem_entries {entry : Entry} (h : s.Mentions formals f entry) :
    entry ∈ s.entries := by
  cases h with
  | value _ _ hdefined => exact value_mem_entries hdefined
  | function _ hdefined => exact function_mem_entries hdefined

theorem Uses.mem_entries {entry other : Entry} (h : s.Uses entry other) : other ∈ s.entries := by
  cases h with
  | value _ h => exact h.mem_entries
  | function _ h => exact h.mem_entries

/-- An entry of the scope is reached from another one through uses. -/
def Below (s : Scope) (a b : {entry // entry ∈ s.entries}) : Prop :=
  Relation.TransGen s.Uses b.1 a.1

theorem NonRecursive.wellFounded (hs : s.NonRecursive) : WellFounded s.Below := by
  -- a chain of uses meets no entry twice, and there are finitely many
  have : Finite {entry // entry ∈ s.entries} := (List.finite_toSet s.entries).to_subtype
  have : IsTrans _ s.Below := ⟨fun _ _ _ hab hbc => hbc.trans hab⟩
  have : Std.Irrefl s.Below := ⟨fun a => hs a.1⟩
  exact Finite.wellFounded_of_trans_of_irrefl s.Below

/-- Of definitions that do not use themselves, one can show for each what follows from those that
it uses. -/
theorem NonRecursive.induction (hs : s.NonRecursive) {P : Entry → Prop}
    (hP : ∀ entry, (∀ other, s.Uses entry other → P other) → P entry) :
    ∀ entry ∈ s.entries, P entry := by
  intro entry hentry
  show P (⟨entry, hentry⟩ : {entry // entry ∈ s.entries}).1
  induction (⟨entry, hentry⟩ : {entry // entry ∈ s.entries}) using hs.wellFounded.induction with
  | _ current ih =>
    apply hP
    intro other hother
    exact ih ⟨other, hother.mem_entries⟩ (.single hother)

/-! ## Formulas that come to an end -/

/-- So many passes either fail or leave nothing to replace. -/
def EndsBy (s : Scope) (p : Position) (k : Nat) (f : Formula) : Prop :=
  ∀ g, s.passes p k f = .ok g → s.pending g = []

/-- Passes come to an end. -/
def Ends (s : Scope) (p : Position) (f : Formula) : Prop :=
  ∃ k, s.EndsBy p k f

theorem Plain.endsBy_of_le (hs : s.Plain) (hf : f.Plain) (h : s.EndsBy p k f) (hk : k ≤ n) :
    s.EndsBy p n f := by
  intro g hpasses
  obtain ⟨more, rfl⟩ := Nat.exists_eq_add_of_le hk
  obtain ⟨middle, hfirst, hrest⟩ := passes_add_eq_ok_iff.1 hpasses
  have hdone := h middle hfirst
  rw [passes_of_done (hs.passes hf hfirst) hdone] at hrest
  cases hrest
  exact hdone

theorem ends_of_done (h : s.pending f = []) : s.Ends p f := by
  refine ⟨0, fun g hg => ?_⟩
  cases hg
  exact h

/-- A formula comes to an end if what its first pass gives does. -/
theorem ends_of_pass (h : ∀ next, s.pass p f = .ok next → s.Ends p next) : s.Ends p f := by
  cases hpass : s.pass p f with
  | error e =>
    refine ⟨1, fun g hg => ?_⟩
    obtain ⟨next, hnext, _⟩ := passes_succ_eq_ok_iff.1 hg
    cases hpass.symm.trans hnext
  | ok next =>
    obtain ⟨k, hk⟩ := h next hpass
    refine ⟨k + 1, fun g hg => ?_⟩
    obtain ⟨next', hnext, hrest⟩ := passes_succ_eq_ok_iff.1 hg
    cases hpass.symm.trans hnext
    exact hk g hrest

theorem Plain.exists_endsBy (hs : s.Plain) {fs : List Formula}
    (hfs : ∀ f ∈ fs, f.Plain ∧ s.Ends p f) : ∃ k, ∀ f ∈ fs, s.EndsBy p k f := by
  induction fs with
  | nil => exact ⟨0, List.forall_mem_nil _⟩
  | cons f rest ih =>
    obtain ⟨⟨hf, j, hj⟩, hrest⟩ := List.forall_mem_cons.1 hfs
    obtain ⟨k, hk⟩ := ih hrest
    -- the passes that the slower of the two needs are enough for both
    refine ⟨max j k, List.forall_mem_cons.2 ⟨hs.endsBy_of_le hf hj (by omega), fun g hg => ?_⟩⟩
    exact hs.endsBy_of_le (hrest g hg).1 (hk g hg) (by omega)

theorem Plain.ends_unknown (hs : s.Plain) {form : CallForm} {id : String}
    {arguments : List Formula} (hunknown : s.isFunction id = false)
    (harguments : ∀ f ∈ arguments, f.Plain ∧ s.Ends p f) :
    s.Ends p (.call form id arguments) := by
  obtain ⟨k, hk⟩ := hs.exists_endsBy harguments
  refine ⟨k, fun g hg => ?_⟩
  obtain ⟨given, hgiven, rfl⟩ := (passes_unknown_eq_ok_iff hunknown).1 hg
  rw [pending_unknown_eq_nil_iff hunknown]
  intro f' hf'
  obtain ⟨f, hf, hpasses⟩ := exists_of_mem_forall₂ hgiven hf'
  exact hk f hf f' hpasses

/-! ## Definitions that come to an end -/

/-- The uses of a definition come to an end: those of a function if their arguments do. -/
def Harmless (s : Scope) (p : Position) : Entry → Prop
  | .value id => ∀ value, s.values.get? id = some value → s.Ends p value
  | .function id => ∀ d arguments, s.functions.get? id = some d →
    arguments.length = d.formals.length → (∀ f ∈ arguments, f.Plain ∧ s.Ends p f) →
      s.Ends p (d.inline arguments)

theorem Plain.ends_name (hs : s.Plain) {id : String}
    (h : s.values.contains (Text.lower id) = true → s.Harmless p (.value (Text.lower id))) :
    s.Ends p (.name id) := by
  apply ends_of_pass
  intro next hpass
  cases hvalue : s.values.get? (Text.lower id) with
  | none =>
    obtain ⟨value, rfl, _⟩ := resolveName_of_none hvalue hpass
    exact ends_of_done rfl
  | some value =>
    have hlookup : s.lookupVariable id p = .ok next :=
      resolveName_of_get? hvalue (hs.ne_builtin hvalue) ▸ hpass
    rcases lookupVariable_eq_ok hlookup with ⟨hfound, _⟩ | ⟨hnone, _⟩
    · exact h (Dictionary.contains_iff.2 ⟨value, hvalue⟩) next hfound
    · cases hvalue.symm.trans hnone

theorem Plain.ends_call (hs : s.Plain) {form : CallForm} {id : String} {arguments : List Formula}
    (h : s.functions.contains (Text.lower id) = true → s.Harmless p (.function (Text.lower id)))
    (harguments : ∀ f ∈ arguments, f.Plain ∧ s.Ends p f) :
    s.Ends p (.call form id arguments) := by
  rcases s.function_cases id with ⟨d, hd⟩ | ⟨hnone, b, hb⟩ | hunknown
  · apply ends_of_pass
    intro next hpass
    rw [pass_defined hd, apply_eq_ok_iff] at hpass
    obtain ⟨hlength, rfl⟩ := hpass
    exact h (Dictionary.contains_iff.2 ⟨d, hd⟩) d arguments hd hlength harguments
  · apply ends_of_pass
    intro next hpass
    obtain ⟨given, _, hcall⟩ := (pass_builtin_eq_ok_iff hnone hb).1 hpass
    obtain ⟨address, rfl⟩ := builtin_call_eq_ok hcall
    exact ends_of_done rfl
  · exact hs.ends_unknown hunknown harguments

/-- A formula comes to an end once arguments that do are put in for its formals, if everything else
that it mentions does. -/
theorem Plain.ends_substitute (hs : s.Plain) (hf : f.Plain) {σ : String → Option Formula}
    (hσ : ∀ id value, σ id = some value → value.Plain ∧ s.Ends p value)
    (hformals : ∀ id ∈ formals, (σ id).isSome = true)
    (hmentions : ∀ entry, s.Mentions formals f entry → s.Harmless p entry) :
    s.Ends p (f.substitute σ) := by
  induction hf with
  | literal _ => exact ends_of_done rfl
  | name id =>
    rw [Formula.substitute]
    cases hid : σ id with
    | some value => exact (hσ id value hid).2
    | none =>
      -- every formal has an argument, so that this name is one of the scope
      have hfree : id ∉ formals := by
        intro hmem
        have hsome := hformals id hmem
        rw [hid] at hsome
        cases hsome
      exact hs.ends_name fun hdefined => hmentions _ (.value (by simp) hfree hdefined)
  | @call form id arguments harguments ih =>
    rw [Formula.substitute, Formula.substituteAll_eq]
    have hself : .call form id arguments ∈ (Formula.call form id arguments).nodes := by
      rw [Formula.nodes]
      exact List.mem_cons_self
    refine hs.ends_call (fun hdefined => hmentions _ (.function hself hdefined)) fun g hg => ?_
    obtain ⟨argument, hargument, rfl⟩ := List.mem_map.1 hg
    have hbelow : ∀ node ∈ argument.nodes, node ∈ (Formula.call form id arguments).nodes :=
      fun _ hnode => Formula.mem_nodes_of_argument hargument hnode
    refine ⟨(harguments argument hargument).substitute fun id value hid => (hσ id value hid).1,
      ih argument hargument fun entry hentry => hmentions entry ?_⟩
    cases hentry with
    | value hname hfree hdefined => exact .value (hbelow _ hname) hfree hdefined
    | function hcall hdefined => exact .function (hbelow _ hcall) hdefined

theorem Plain.ends_of_mentions (hs : s.Plain) (hf : f.Plain)
    (hmentions : ∀ entry, s.Mentions [] f entry → s.Harmless p entry) : s.Ends p f := by
  have hnone := hs.ends_substitute hf (σ := fun _ => none) (fun _ _ h => nomatch h)
    (List.forall_mem_nil _) hmentions
  rwa [hf.functionFree.substitute_eq_self fun _ _ => rfl] at hnone

/-- One definition, from those that it uses. -/
theorem Plain.harmless_of_uses (hs : s.Plain) (entry : Entry)
    (huses : ∀ other, s.Uses entry other → s.Harmless p other) : s.Harmless p entry := by
  cases entry with
  | value id =>
    intro value hvalue
    exact hs.ends_of_mentions (hs.values id value hvalue) fun other hother =>
      huses other (.value hvalue hother)
  | function id =>
    intro d arguments hd hlength harguments
    refine hs.ends_substitute (hs.functions id d hd) (fun name value hvalue => ?_)
      (fun name hname => ?_) fun other hother => huses other (.function hd hother)
    · exact harguments value (List.of_mem_zip (Dictionary.pair_mem_of_get?_ofList hvalue)).2
    · -- there is an argument for each formal
      have hzip : (d.formals.zip arguments).map (·.1) = d.formals :=
        List.map_fst_zip (by omega)
      rw [← hzip] at hname
      obtain ⟨pair, hpair, rfl⟩ := List.mem_map.1 hname
      exact Dictionary.contains_ofList_iff.2 ⟨pair.2, hpair⟩

theorem Plain.ends (hs : s.Plain) (hnonRecursive : s.NonRecursive) (hf : f.Plain) :
    s.Ends p f := by
  -- what counts is how definitions use each other, not how large a formula is or becomes
  have hall : ∀ entry ∈ s.entries, s.Harmless p entry :=
    hnonRecursive.induction fun entry huses => hs.harmless_of_uses entry huses
  exact hs.ends_of_mentions hf fun entry hentry => hall entry hentry.mem_entries

theorem Plain.same_eq_false (hs : s.Plain) (hnonRecursive : s.NonRecursive) (hf : f.Plain)
    {next : Formula} (hpending : s.pending f ≠ []) (hpass : s.pass p f = .ok next) :
    next.same f = false := by
  apply Bool.eq_false_iff.2
  intro hsame
  -- all later passes would leave the same references, and so never come to an end
  obtain ⟨k, hk⟩ := hs.ends (p := p) hnonRecursive hf
  obtain ⟨g, hg, hstuck⟩ := passes_of_stalled hpass hsame k
  exact hpending (hstuck.symm.trans (hk g hg))

/-- If no definition uses itself, passes over any formula come to an end: nothing is left to replace
or a pass fails. No pass on the way changes nothing, so that a run does not converge only if all the
passes before its last check leave something to replace. -/
theorem passes_converge (hs : s.Plain) (hnonRecursive : s.NonRecursive) (hf : f.Plain)
    (p : Position) :
    (∃ k, s.DoneBy p k f ∨
      ∃ e, s.passes p k f = .error e ∧ ∀ ids, e ≠ .didNotConverge ids) ∧
    (∀ k g next, s.passes p k f = .ok g → s.pending g ≠ [] → s.pass p g = .ok next →
      next.same g = false) ∧
    (∀ ids, s.resolve p f = .error (.didNotConverge ids) →
      ∀ k < maxPasses, ∃ g, s.passes p k f = .ok g ∧ s.pending g ≠ []) := by
  have hmoves (k : Nat) (g next : Formula) (hg : s.passes p k f = .ok g)
      (hpending : s.pending g ≠ []) (hpass : s.pass p g = .ok next) : next.same g = false :=
    hs.same_eq_false hnonRecursive (hs.passes hf hg) hpending hpass
  refine ⟨?_, hmoves, fun ids h k hk => ?_⟩
  · obtain ⟨k, hk⟩ := hs.ends (p := p) hnonRecursive hf
    cases hpasses : s.passes p k f with
    | ok g => exact ⟨k, .inl ⟨g, hpasses, hk g hpasses⟩⟩
    | error e => exact ⟨k, .inr ⟨e, hpasses, passes_error hpasses⟩⟩
  · obtain ⟨last, g, hreaches, hstops⟩ := s.resolveWithin_stops (p := p) maxPasses f
    obtain ⟨hlast, hbefore⟩ := reaches_iff.1 hreaches
    rw [← resolve, h] at hstops
    cases hstops with
    | failed _ _ hpass => exact absurd rfl (pass_error hpass ids)
    | stalled _ hpending hpass hsame =>
      rw [hmoves last g _ hlast hpending hpass] at hsame
      cases hsame
    | usedUp hused => exact hbefore k (by omega)

/-- In the table of rates only the function uses something, and what it uses is a variable. -/
theorem uses_taxAtRate {entry other : Entry} (h : taxAtRate.Uses entry other) :
    (∃ id, entry = .function id) ∧ ∃ id, other = .value id := by
  cases h with
  | value hvalue h =>
    obtain ⟨pair, hpair, rfl⟩ := Dictionary.mem_of_get?_ofList hvalue
    rw [List.mem_singleton.1 hpair] at h
    cases h with
    | value hname _ _ => simp [Formula.number, Formula.nodes] at hname
    | function hcall _ => simp [Formula.number, Formula.nodes] at hcall
  | function hd h =>
    obtain ⟨pair, hpair, rfl⟩ := Dictionary.mem_of_get?_ofList hd
    rw [List.mem_singleton.1 hpair] at h
    cases h with
    | value _ _ _ => exact ⟨⟨_, rfl⟩, _, rfl⟩
    | @function form id arguments hcall hdefined =>
      have hid : id = "*" := by
        simp [Formula.binary, Formula.nodes, Formula.nodesAll_eq] at hcall
        exact hcall.2.1
      subst hid
      exact absurd hdefined (by decide)

theorem nonRecursive_taxAtRate : taxAtRate.NonRecursive := by
  intro entry hcycle
  obtain ⟨_, hfirst, _⟩ := Relation.TransGen.head'_iff.1 hcycle
  obtain ⟨_, _, hlast⟩ := Relation.TransGen.tail'_iff.1 hcycle
  obtain ⟨id, rfl⟩ := (uses_taxAtRate hfirst).1
  obtain ⟨other, hother⟩ := (uses_taxAtRate hlast).2
  cases hother

/-- A tax on a tax is not given up: three passes leave nothing to replace. -/
theorem passes_converge_taxAtRate : taxAtRate.Plain ∧ taxAtRate.NonRecursive ∧
    ∀ ids, taxAtRate.resolve {} (.namedCall "tax" [.namedCall "tax" [.text "a"]]) ≠
      .error (.didNotConverge ids) := by
  refine ⟨plain_taxAtRate, nonRecursive_taxAtRate, fun ids h => ?_⟩
  have hinner : (Formula.namedCall "tax" [.text "a"]).Plain :=
    .call (List.forall_mem_singleton.2 (.literal rfl))
  have hplain : (Formula.namedCall "tax" [.namedCall "tax" [.text "a"]]).Plain :=
    .call (List.forall_mem_singleton.2 hinner)
  obtain ⟨_, _, hgivenUp⟩ := passes_converge plain_taxAtRate nonRecursive_taxAtRate hplain {}
  obtain ⟨g, hg, hpending⟩ := hgivenUp ids h 3 (by decide)
  cases hg
  exact hpending rfl

end Scope
end Spreadsheet
