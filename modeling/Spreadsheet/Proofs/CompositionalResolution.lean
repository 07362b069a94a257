import Spreadsheet.Proofs.ResolutionRuns

/-!
Resolving a formula part by part. All parts of a formula go through the same passes, though some need
more of them than others; a part with nothing left to replace stays as it is until the others are done.
So resolving a call is resolving its arguments, and resolving what gives way to something else is
resolving that, if there is a pass to spare.
-/
namespace Spreadsheet

/-- Trees of calls over names and literals. -/
abbrev Formula.Plain (f : Formula) : Prop :=
  f.Over fun _ => true

section Lists

variable {α β γ : Type} {R : α → β → Prop}

theorem forall₂_exists_iff {S : β → γ → Prop} {xs : List α} {zs : List γ} :
    xs.Forall₂ (fun x z => ∃ y, R x y ∧ S y z) zs ↔ ∃ ys, xs.Forall₂ R ys ∧ ys.Forall₂ S zs := by
  constructor
  · intro h
    induction h with
    | nil => exact ⟨[], .nil, .nil⟩
    | cons hfirst _ ih =>
      obtain ⟨y, hR, hS⟩ := hfirst
      obtain ⟨ys, hRs, hSs⟩ := ih
      exact ⟨y :: ys, .cons hR hRs, .cons hS hSs⟩
  · rintro ⟨ys, hRs, hSs⟩
    induction hRs generalizing zs with
    | nil =>
      cases hSs
      exact .nil
    | cons hR _ ih =>
      cases hSs with
      | cons hS hrest => exact .cons ⟨_, hR, hS⟩ (ih hrest)

theorem forall₂_imp_of_mem {S : α → β → Prop} {xs : List α} {ys : List β}
    (h : xs.Forall₂ R ys) (hRS : ∀ x ∈ xs, ∀ y ∈ ys, R x y → S x y) : xs.Forall₂ S ys := by
  induction h with
  | nil => exact .nil
  | cons hfirst _ ih =>
    refine .cons (hRS _ (by simp) _ (by simp) hfirst) (ih fun x hx y hy => ?_)
    exact hRS x (List.mem_cons_of_mem _ hx) y (List.mem_cons_of_mem _ hy)

end Lists

namespace Scope

/-- Values and bodies are trees of calls over names and literals. -/
structure Plain (s : Scope) : Prop where
  values : ∀ id value, s.values.get? id = some value → value.Plain
  functions : ∀ id d, s.functions.get? id = some d → d.body.Plain

/-- So many passes leave nothing to replace. -/
def DoneBy (s : Scope) (p : Position) (count : Nat) (f : Formula) : Prop :=
  ∃ g, s.passes p count f = .ok g ∧ s.pending g = []

variable {s : Scope} {p : Position} {f g : Formula} {k n : Nat}

theorem Plain.ne_builtin (hs : s.Plain) {id : String} {value : Formula}
    (h : s.values.get? id = some value) (b : Builtin) : value ≠ .builtin b := by
  rintro rfl
  cases hs.values id _ h

theorem Plain.yields (hs : s.Plain) (p : Position) : s.Yields (fun _ => true) p where
  unscoped := fun _ _ => rfl
  values := fun id value hvalue => ⟨hs.ne_builtin hvalue, fun _ => hs.values id value hvalue⟩
  functions := hs.functions

theorem Plain.pass (hs : s.Plain) (hf : f.Plain) (h : s.pass p f = .ok g) : g.Plain :=
  (hs.yields p).over_pass hf h

/-! ## Finished parts -/

theorem pending_unknown {form : CallForm} {id : String} {arguments : List Formula}
    (h : s.isFunction id = false) :
    s.pending (.call form id arguments) = arguments.flatMap s.pending := by
  unfold pending
  rw [Formula.nodes, Formula.nodesAll_eq, List.filterMap_cons_none (by simp [h]),
    List.filterMap_flatMap]

theorem pending_unknown_eq_nil_iff {form : CallForm} {id : String} {arguments : List Formula}
    (h : s.isFunction id = false) :
    s.pending (.call form id arguments) = [] ↔ ∀ f ∈ arguments, s.pending f = [] := by
  rw [pending_unknown h, List.flatMap_eq_nil_iff]

/-- A pass leaves a tree with nothing to replace as it is. -/
theorem pass_of_done (hf : f.Plain) (hdone : s.pending f = []) : s.pass p f = .ok f := by
  induction hf with
  | literal _ => rfl
  | name id => cases hdone
  | @call form id arguments _ ih =>
    have hunknown : s.isFunction id = false := by
      apply Bool.eq_false_iff.2
      intro hfunction
      exact pending_call_ne_nil hfunction hdone
    rw [pending_unknown_eq_nil_iff hunknown] at hdone
    refine (pass_unknown_eq_ok_iff hunknown).2 ⟨arguments, ?_, rfl⟩
    exact List.forall₂_same.2 fun f hf => ih f hf (hdone f hf)

theorem passes_of_done (hf : f.Plain) (hdone : s.pending f = []) (k : Nat) :
    s.passes p k f = .ok f := by
  induction k with
  | zero => rfl
  | succ k ih => exact passes_succ_eq_ok_iff.2 ⟨f, pass_of_done hf hdone, ih⟩

theorem Plain.passes (hs : s.Plain) (hf : f.Plain) (h : s.passes p k f = .ok g) : g.Plain := by
  induction k generalizing f with
  | zero =>
    cases h
    exact hf
  | succ k ih =>
    obtain ⟨next, hpass, hrest⟩ := passes_succ_eq_ok_iff.1 h
    exact ih (hs.pass hf hpass) hrest

/-- Once nothing is left to replace, more passes make no difference. -/
theorem Plain.passes_of_le (hs : s.Plain) (hf : f.Plain) (h : s.passes p k f = .ok g)
    (hdone : s.pending g = []) (hk : k ≤ n) : s.passes p n f = .ok g := by
  obtain ⟨more, rfl⟩ := Nat.exists_eq_add_of_le hk
  exact passes_add_eq_ok_iff.2 ⟨g, h, passes_of_done (hs.passes hf h) hdone more⟩

theorem Plain.exists_reaches (hs : s.Plain) (hf : f.Plain) (h : s.passes p n f = .ok g) :
    ∃ k ≤ n, s.Reaches p k f g := by
  induction n generalizing f with
  | zero =>
    cases h
    exact ⟨0, by omega, .refl _⟩
  | succ n ih =>
    by_cases hnone : s.pending f = []
    · rw [passes_of_done hf hnone] at h
      cases h
      exact ⟨0, by omega, .refl _⟩
    · obtain ⟨next, hpass, hrest⟩ := passes_succ_eq_ok_iff.1 h
      obtain ⟨k, hk, hreaches⟩ := ih (hs.pass hf hpass) hrest
      exact ⟨k + 1, by omega, .step hnone hpass hreaches⟩

/-- A formula is resolved if the passes before the last check leave nothing to replace. -/
theorem Plain.resolve_eq_ok_iff (hs : s.Plain) (hf : f.Plain) :
    s.resolve p f = .ok g ↔ s.passes p 255 f = .ok g ∧ s.pending g = [] := by
  rw [resolve, resolveWithin_eq_ok_iff]
  constructor
  · rintro ⟨k, hk, hreaches, hdone⟩
    have hlast : k ≤ 255 := Nat.le_of_lt_succ hk
    exact ⟨hs.passes_of_le hf (reaches_iff.1 hreaches).1 hdone hlast, hdone⟩
  · rintro ⟨hpasses, hdone⟩
    obtain ⟨k, hk, hreaches⟩ := hs.exists_reaches hf hpasses
    exact ⟨k, Nat.lt_succ_of_le hk, hreaches, hdone⟩

/-! ## Parts of a call -/

section Calls

variable {form : CallForm} {id : String} {arguments : List Formula}

/-- The arguments of a call that stays go through all passes on their own. -/
theorem passes_unknown_eq_ok_iff (h : s.isFunction id = false) :
    s.passes p k (.call form id arguments) = .ok g ↔
      ∃ given, arguments.Forall₂ (fun f f' => s.passes p k f = .ok f') given ∧
        g = .call form id given := by
  induction k generalizing arguments with
  | zero => simp [passes, eq_comm]
  | succ k ih =>
    simp only [passes_succ_eq_ok_iff, pass_unknown_eq_ok_iff h, forall₂_exists_iff]
    constructor
    · rintro ⟨next, ⟨middle, hfirst, rfl⟩, hrest⟩
      obtain ⟨given, hgiven, rfl⟩ := ih.1 hrest
      exact ⟨given, ⟨middle, hfirst, hgiven⟩, rfl⟩
    · rintro ⟨given, ⟨middle, hfirst, hgiven⟩, rfl⟩
      exact ⟨_, ⟨middle, hfirst, rfl⟩, ih.2 ⟨given, hgiven, rfl⟩⟩

theorem Plain.resolve_unknown (hs : s.Plain) (hunknown : s.isFunction id = false)
    (harguments : ∀ f ∈ arguments, f.Plain) :
    s.resolve p (.call form id arguments) = .ok g ↔
      ∃ given, arguments.Forall₂ (fun f f' => s.resolve p f = .ok f') given ∧
        g = .call form id given := by
  rw [hs.resolve_eq_ok_iff (.call harguments), passes_unknown_eq_ok_iff hunknown]
  constructor
  · rintro ⟨⟨given, hgiven, rfl⟩, hdone⟩
    rw [pending_unknown_eq_nil_iff hunknown] at hdone
    refine ⟨given, forall₂_imp_of_mem hgiven fun f hf f' hf' hpasses => ?_, rfl⟩
    exact (hs.resolve_eq_ok_iff (harguments f hf)).2 ⟨hpasses, hdone f' hf'⟩
  · rintro ⟨given, hgiven, rfl⟩
    refine ⟨⟨given, forall₂_imp_of_mem hgiven fun f hf f' _ hresolve => ?_, rfl⟩, ?_⟩
    · exact ((hs.resolve_eq_ok_iff (harguments f hf)).1 hresolve).1
    · rw [pending_unknown_eq_nil_iff hunknown]
      intro f' hf'
      obtain ⟨f, hf, hresolve⟩ := exists_of_mem_forall₂ hgiven hf'
      exact ((hs.resolve_eq_ok_iff (harguments f hf)).1 hresolve).2

end Calls

/-! ## What gives way to something else -/

/-- A formula is resolved to what comes of its first pass. -/
theorem Plain.exists_of_resolve (hs : s.Plain) (hf : f.Plain) (h : s.resolve p f = .ok g) :
    ∃ next, s.pass p f = .ok next ∧ s.resolve p next = .ok g := by
  obtain ⟨hpasses, hdone⟩ := (hs.resolve_eq_ok_iff hf).1 h
  obtain ⟨next, hpass, hrest⟩ := passes_succ_eq_ok_iff.1 hpasses
  have hnext : next.Plain := hs.pass hf hpass
  refine ⟨next, hpass, (hs.resolve_eq_ok_iff hnext).2 ⟨?_, hdone⟩⟩
  exact hs.passes_of_le hnext hrest hdone (by omega)

theorem Plain.resolve_of_pass {next : Formula} (hs : s.Plain) (hf : f.Plain)
    (hpass : s.pass p f = .ok next) (hnext : s.resolve p next = .ok g)
    (hk : k < 255) (hdone : s.DoneBy p k next) : s.resolve p f = .ok g := by
  obtain ⟨g', hpasses, hleft⟩ := hdone
  have hplain : next.Plain := hs.pass hf hpass
  have hlong := hs.passes_of_le hplain hpasses hleft (Nat.le_of_lt hk)
  obtain ⟨hshort, hnone⟩ := (hs.resolve_eq_ok_iff hplain).1 hnext
  cases hlong.symm.trans hshort
  refine (hs.resolve_eq_ok_iff hf).2 ⟨passes_succ_eq_ok_iff.2 ⟨next, hpass, ?_⟩, hnone⟩
  exact hs.passes_of_le hplain hpasses hleft (by omega)

/-- A call that belongs to the spreadsheet is resolved exactly if its arguments are, and is the call
of what they are resolved to. A call of a function of the file is resolved to what its body is
resolved to, and a variable of the file to what its value is; the body or the value has to be done a
pass earlier. -/
theorem resolve_compositional (hs : s.Plain) (p : Position) :
    (∀ form id arguments g, s.isFunction id = false → (∀ f ∈ arguments, f.Plain) →
      (s.resolve p (.call form id arguments) = .ok g ↔
        ∃ given, arguments.Forall₂ (fun f f' => s.resolve p f = .ok f') given ∧
          g = .call form id given)) ∧
    (∀ form id d arguments g, s.lookupFunction id = .ok (.defined d) →
      (∀ f ∈ arguments, f.Plain) →
      (s.resolve p (.call form id arguments) = .ok g →
        ∃ body, d.apply arguments = .ok body ∧ s.resolve p body = .ok g) ∧
      ∀ body, d.apply arguments = .ok body → s.resolve p body = .ok g →
        (∃ k < 255, s.DoneBy p k body) → s.resolve p (.call form id arguments) = .ok g) ∧
    (∀ id g, s.values.contains (Text.lower id) = true →
      (s.resolve p (.name id) = .ok g →
        ∃ value, s.lookupVariable id p = .ok value ∧ s.resolve p value = .ok g) ∧
      ∀ value, s.lookupVariable id p = .ok value → s.resolve p value = .ok g →
        (∃ k < 255, s.DoneBy p k value) → s.resolve p (.name id) = .ok g) := by
  refine ⟨fun form id arguments g => hs.resolve_unknown, ?_, ?_⟩
  · intro form id d arguments g hlookup harguments
    have hplain : (Formula.call form id arguments).Plain := .call harguments
    have hpass : s.pass p (.call form id arguments) = d.apply arguments :=
      pass_defined (lookupFunction_eq_defined_iff.1 hlookup)
    rw [← hpass]
    refine ⟨hs.exists_of_resolve hplain, ?_⟩
    rintro body hbody hresolve ⟨k, hk, hdone⟩
    exact hs.resolve_of_pass hplain hbody hresolve hk hdone
  · intro id g hdefined
    obtain ⟨value, hvalue⟩ := Dictionary.contains_iff.1 hdefined
    have hpass : s.pass p (.name id) = s.lookupVariable id p :=
      resolveName_of_get? hvalue (hs.ne_builtin hvalue)
    rw [← hpass]
    refine ⟨hs.exists_of_resolve (.name id), ?_⟩
    rintro value hvalue hresolve ⟨k, hk, hdone⟩
    exact hs.resolve_of_pass (.name id) hvalue hresolve hk hdone

/-- A rate, and the tax on an amount at that rate. -/
def taxAtRate : Scope :=
  { values := .ofList [("rate", .number (.ofNat 2))]
    functions := .ofList [("tax",
      { id := "tax", formals := ["amount"], body := .binary "*" (.name "amount") (.name "rate") })] }

theorem plain_taxAtRate : taxAtRate.Plain where
  values := fun id value hvalue => by
    obtain ⟨pair, hpair, rfl⟩ := Dictionary.mem_of_get?_ofList hvalue
    rw [List.mem_singleton.1 hpair]
    exact .literal rfl
  functions := fun id d hd => by
    obtain ⟨pair, hpair, rfl⟩ := Dictionary.mem_of_get?_ofList hd
    rw [List.mem_singleton.1 hpair]
    exact Formula.over_binary (.name "amount") (.name "rate")

/-- The name, the call of the function and the call around both, each from the one before. -/
theorem resolve_compositional_taxAtRate : taxAtRate.Plain ∧
    taxAtRate.resolve {} (.namedCall "sum" [.namedCall "tax" [.text "a"], .name "rate"]) =
      .ok (.namedCall "sum"
        [.binary "*" (.text "a") (.number (.ofNat 2)), .number (.ofNat 2)]) := by
  obtain ⟨hunknown, hdefined, hname⟩ := resolve_compositional plain_taxAtRate {}
  have htext : (Formula.text "a").Plain := .literal rfl
  have hrate : taxAtRate.resolve {} (.name "rate") = .ok (.number (.ofNat 2)) :=
    (hname "rate" _ rfl).2 (.number (.ofNat 2)) rfl rfl ⟨0, by decide, _, rfl, rfl⟩
  have hbody : taxAtRate.resolve {} (.binary "*" (.text "a") (.name "rate")) =
      .ok (.binary "*" (.text "a") (.number (.ofNat 2))) := by
    apply (hunknown .operator "*" _ _ rfl ?_).2
    · exact ⟨_, .cons rfl (.cons hrate .nil), rfl⟩
    · exact List.forall_mem_cons.2 ⟨htext, List.forall_mem_singleton.2 (.name "rate")⟩
  have htax : taxAtRate.resolve {} (.namedCall "tax" [.text "a"]) =
      .ok (.binary "*" (.text "a") (.number (.ofNat 2))) := by
    apply (hdefined .named "tax" _ [.text "a"] _ rfl (List.forall_mem_singleton.2 htext)).2
    · exact rfl
    · exact hbody
    · exact ⟨1, by decide, _, rfl, rfl⟩
  refine ⟨plain_taxAtRate, (hunknown .named "sum" _ _ rfl ?_).2 ?_⟩
  · refine List.forall_mem_cons.2 ⟨.call (List.forall_mem_singleton.2 htext), ?_⟩
    exact List.forall_mem_singleton.2 (.name "rate")
  · exact ⟨_, .cons htax (.cons hrate .nil), rfl⟩

end Scope
end Spreadsheet
