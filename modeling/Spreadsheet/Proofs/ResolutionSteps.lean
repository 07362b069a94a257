import Mathlib.Data.List.Forall2
import Spreadsheet.Proofs.CountedReferences
import Spreadsheet.Proofs.FormulaTrees
import Spreadsheet.Resolution

/-!
What one pass can do to a formula. A name gives way to a value, a call of a function of the file to
its body, and a call of a built-in function to a cell; in calls of all other functions the pass goes
on below.
-/
namespace Spreadsheet

theorem Dictionary.forall_insert {α : Type} {P : α → Prop} {d : Dictionary α} {key : String}
    {value : α} (hd : ∀ id found, d.get? id = some found → P found) (hvalue : P value) :
    ∀ id found, (d.insert key value).get? id = some found → P found := by
  intro id found hfound
  rw [Dictionary.get?_insert] at hfound
  split at hfound
  next =>
    cases hfound
    exact hvalue
  next => exact hd id found hfound

theorem Dictionary.pair_mem_of_get?_ofList {α : Type} {pairs : List (String × α)} {key : String}
    {value : α} (h : (Dictionary.ofList pairs).get? key = some value) : (key, value) ∈ pairs := by
  rw [ofList, insertAll, get?_foldl_insert, get?_empty, Option.or_none] at h
  obtain ⟨pair, hpair, rfl⟩ := Option.map_eq_some_iff.1 h
  have hkey : pair.1 = key := by simpa using List.find?_some hpair
  exact hkey ▸ List.mem_reverse.1 (List.mem_of_find?_eq_some hpair)

theorem Dictionary.mem_of_get?_ofList {α : Type} {pairs : List (String × α)} {key : String}
    {value : α} (h : (Dictionary.ofList pairs).get? key = some value) :
    ∃ pair ∈ pairs, pair.2 = value :=
  ⟨(key, value), pair_mem_of_get?_ofList h, rfl⟩

/-! ## Lists of results -/

section Results

variable {α β ε : Type} {k : α → Except ε β}

theorem exists_of_mem_forall₂ {R : α → β → Prop} {xs : List α} {ys : List β} {y : β}
    (h : xs.Forall₂ R ys) (hy : y ∈ ys) : ∃ x ∈ xs, R x y := by
  induction h with
  | nil => cases hy
  | @cons x first rest more hfirst _ ih =>
    rcases List.mem_cons.1 hy with rfl | hmem
    · exact ⟨x, by simp, hfirst⟩
    · obtain ⟨other, hother, hrelated⟩ := ih hmem
      exact ⟨other, List.mem_cons_of_mem _ hother, hrelated⟩

theorem exists_of_forall₂_mem {R : α → β → Prop} {xs : List α} {ys : List β} {x : α}
    (h : xs.Forall₂ R ys) (hx : x ∈ xs) : ∃ y ∈ ys, R x y :=
  exists_of_mem_forall₂ (R := flip R) (List.Forall₂.flip h) hx

theorem mapM_eq_ok_iff {xs : List α} {ys : List β} :
    xs.mapM k = .ok ys ↔ xs.Forall₂ (fun x y => k x = .ok y) ys := by
  induction xs generalizing ys with
  | nil =>
    constructor <;> intro h
    · cases h
      exact .nil
    · cases h
      rfl
  | cons x rest ih =>
    rw [List.mapM_cons]
    constructor
    · intro h
      cases hx : k x with
      | error e =>
        rw [hx] at h
        cases h
      | ok y =>
        cases hrest : rest.mapM k with
        | error e =>
          rw [hx, hrest] at h
          cases h
        | ok more =>
          rw [hx, hrest] at h
          cases h
          exact .cons hx (ih.1 hrest)
    · intro h
      cases h with
      | cons hx hrest =>
        rw [hx, ih.2 hrest]
        rfl

theorem exists_of_mapM_error {xs : List α} {e : ε} (h : xs.mapM k = .error e) :
    ∃ x ∈ xs, k x = .error e := by
  induction xs with
  | nil => cases h
  | cons x rest ih =>
    rw [List.mapM_cons] at h
    cases hx : k x with
    | error e' =>
      rw [hx] at h
      cases h
      exact ⟨x, by simp, hx⟩
    | ok y =>
      cases hrest : rest.mapM k with
      | error e' =>
        rw [hx, hrest] at h
        cases h
        obtain ⟨other, hother, hfailed⟩ := ih hrest
        exact ⟨other, List.mem_cons_of_mem _ hother, hfailed⟩
      | ok more =>
        rw [hx, hrest] at h
        cases h

theorem mapM_congr {k' : α → Except ε β} {xs : List α} (h : ∀ x ∈ xs, k x = k' x) :
    xs.mapM k = xs.mapM k' := by
  induction xs with
  | nil => rfl
  | cons x rest ih =>
    obtain ⟨hfirst, hrest⟩ := List.forall_mem_cons.1 h
    rw [List.mapM_cons, List.mapM_cons, hfirst, ih hrest]

end Results

/-- What is said of arguments that a function does not take. -/
inductive FormulaError.RefusesArguments : FormulaError → Prop
  | invalidArgument (name : String) (fault : ArgumentFault) :
    RefusesArguments (.invalidArgument name fault)
  | argumentCount (name : String) (expected given : Nat) :
    RefusesArguments (.argumentCount name expected given)

namespace Scope

variable {s : Scope} {p : Position} {f g : Formula} {id : String}

/-! ## Names -/

/-- A variable of the file is handed out only where its rows, if it has any, contain the row
of `p`. -/
theorem lookupVariable_eq_ok (h : s.lookupVariable id p = .ok g) :
    (s.values.get? (Text.lower id) = some g ∧ g.visibleRows?.all (·.contains p.row) = true) ∨
      (s.values.get? (Text.lower id) = none ∧ ∃ v, g = .builtin (.ofVariable v)) := by
  unfold lookupVariable at h
  dsimp only at h
  split at h
  next value hvalue =>
    left
    split at h
    next rows hrows =>
      split at h
      next hcontains =>
        cases h
        rw [hrows]
        exact ⟨hvalue, hcontains⟩
      next => cases h
    next hrows =>
      cases h
      rw [hrows]
      exact ⟨hvalue, rfl⟩
  next hnone =>
    split at h
    next v _ =>
      cases h
      exact .inr ⟨hnone, v, rfl⟩
    next => cases h

theorem isVariable_of_contains (h : s.values.contains (Text.lower id) = true) :
    s.isVariable id = true := by
  simp [isVariable, h]

theorem resolveName_of_get? {value : Formula} (hvalue : s.values.get? (Text.lower id) = some value)
    (hplain : ∀ b, value ≠ .builtin b) : s.resolveName p id = s.lookupVariable id p := by
  have hvariable := isVariable_of_contains (Dictionary.contains_iff.2 ⟨value, hvalue⟩)
  unfold resolveName
  rw [if_pos hvariable]
  split
  next b hlookup =>
    rcases lookupVariable_eq_ok hlookup with ⟨hfound, _⟩ | ⟨hnone, _⟩
    · cases hvalue.symm.trans hfound
      exact absurd rfl (hplain b)
    · cases hvalue.symm.trans hnone
  next => rfl

/-- A name that the file does not define gives way to a literal that is bound to no rows. -/
theorem resolveName_of_none (hnone : s.values.get? (Text.lower id) = none)
    (h : s.resolveName p id = .ok g) :
    ∃ value : Literal, g = .literal value ∧ value.isUnscoped = true := by
  unfold resolveName at h
  split at h
  next =>
    split at h
    next b hlookup =>
      rcases lookupVariable_eq_ok hlookup with ⟨hfound, _⟩ | ⟨_, v, hbuiltin⟩
      · cases hnone.symm.trans hfound
      · cases hbuiltin
        cases h
        exact ⟨v.value p, rfl, by cases v <;> rfl⟩
    next hother =>
      rcases lookupVariable_eq_ok h with ⟨hfound, _⟩ | ⟨_, v, rfl⟩
      · cases hnone.symm.trans hfound
      · exact absurd h (hother _)
  next =>
    split at h
    next address _ =>
      split at h
      next =>
        cases h
        exact ⟨_, rfl, rfl⟩
      next => cases h
    next => cases h

/-! ## Calls -/

theorem apply_eq_ok_iff {d : Function} {arguments : List Formula} :
    d.apply arguments = .ok g ↔
      arguments.length = d.formals.length ∧ g = d.inline arguments := by
  unfold Function.apply
  split
  next hlength => simp [hlength, eq_comm]
  next hlength => simp [hlength]

theorem builtin_call_eq_ok {b : BuiltinFunction} {arguments : List Formula}
    (h : b.call p arguments = .ok g) : ∃ address, g = .cell address := by
  unfold BuiltinFunction.call at h
  split at h
  next => cases h
  next =>
    split at h
    next => cases h
    next =>
      cases h
      exact ⟨_, rfl⟩

/-- One pass over an argument of a built-in function. -/
def passArgument (s : Scope) (p : Position) (f : Formula) : Except FormulaError Formula :=
  if f.isBareAddress s.isVariable then .ok f else s.pass p f

theorem passAll_eq_mapM (fs : List Formula) : s.passAll p fs = fs.mapM (s.pass p) := by
  induction fs with
  | nil => rfl
  | cons f rest ih =>
    rw [passAll, List.mapM_cons, ih]
    cases s.pass p f with
    | error e => rfl
    | ok first => cases rest.mapM (s.pass p) <;> rfl

theorem passArguments_eq_mapM (fs : List Formula) :
    s.passArguments p fs = fs.mapM (s.passArgument p) := by
  induction fs with
  | nil => rfl
  | cons f rest ih =>
    rw [passArguments, List.mapM_cons, ih, ← passArgument]
    cases s.passArgument p f with
    | error e => rfl
    | ok first => cases rest.mapM (s.passArgument p) <;> rfl

/-- A function is one of the file, else one of the language, else one of the spreadsheet. -/
theorem function_cases (s : Scope) (id : String) :
    (∃ d, s.functions.get? (Text.lower id) = some d) ∨
    (s.functions.get? (Text.lower id) = none ∧
      ∃ b, BuiltinFunction.named? (Text.lower id) = some b) ∨
    s.isFunction id = false := by
  unfold isFunction
  cases hdefined : s.functions.get? (Text.lower id) with
  | some d => exact .inl ⟨d, rfl⟩
  | none =>
    cases hbuiltin : BuiltinFunction.named? (Text.lower id) with
    | some b => exact .inr (.inl ⟨rfl, b, rfl⟩)
    | none => exact .inr (.inr (by simp [Dictionary.contains, hdefined, hbuiltin]))

section Calls

variable {form : CallForm} {arguments : List Formula} {d : Function} {b : BuiltinFunction}

theorem lookupFunction_eq_defined_iff :
    s.lookupFunction id = .ok (.defined d) ↔ s.functions.get? (Text.lower id) = some d := by
  unfold lookupFunction
  dsimp only
  cases s.functions.get? (Text.lower id) with
  | some found => simp
  | none => cases BuiltinFunction.named? (Text.lower id) <;> simp

theorem isFunction_of_get? (h : s.functions.get? (Text.lower id) = some d) :
    s.isFunction id = true := by
  simp [isFunction, Dictionary.contains, h]

theorem pass_defined (h : s.functions.get? (Text.lower id) = some d) :
    s.pass p (.call form id arguments) = d.apply arguments := by
  rw [pass, if_pos (isFunction_of_get? h), lookupFunction_eq_defined_iff.2 h]

theorem pass_builtin (hnone : s.functions.get? (Text.lower id) = none)
    (hb : BuiltinFunction.named? (Text.lower id) = some b) :
    s.pass p (.call form id arguments) =
      (arguments.mapM (s.passArgument p)).bind (b.call p) := by
  have hfunction : s.isFunction id = true := by simp [isFunction, hb]
  have hlookup : s.lookupFunction id = .ok (.builtin b) := by simp [lookupFunction, hnone, hb]
  rw [pass, if_pos hfunction, hlookup, ← passArguments_eq_mapM]
  cases s.passArguments p arguments <;> rfl

theorem pass_unknown (h : s.isFunction id = false) :
    s.pass p (.call form id arguments) =
      (arguments.mapM (s.pass p)).map (.call form id) := by
  rw [pass, if_neg (by simp [h]), ← passAll_eq_mapM]
  cases s.passAll p arguments <;> rfl

theorem pass_builtin_eq_ok_iff (hnone : s.functions.get? (Text.lower id) = none)
    (hb : BuiltinFunction.named? (Text.lower id) = some b) :
    s.pass p (.call form id arguments) = .ok g ↔
      ∃ given, arguments.Forall₂ (fun f f' => s.passArgument p f = .ok f') given ∧
        b.call p given = .ok g := by
  rw [pass_builtin hnone hb]
  simp only [← mapM_eq_ok_iff]
  cases arguments.mapM (s.passArgument p) <;> simp [Except.bind]

theorem pass_unknown_eq_ok_iff (h : s.isFunction id = false) :
    s.pass p (.call form id arguments) = .ok g ↔
      ∃ given, arguments.Forall₂ (fun f f' => s.pass p f = .ok f') given ∧
        g = .call form id given := by
  rw [pass_unknown h]
  simp only [← mapM_eq_ok_iff]
  cases arguments.mapM (s.pass p) <;> simp [Except.map, eq_comm]

end Calls

/-! ## What a pass puts in -/

/-- Looking things up at `p` gives trees over a class of literals, which holds all those that are
bound to no rows. -/
structure Yields (leaf : Literal → Bool) (p : Position) (s : Scope) : Prop where
  unscoped : ∀ value : Literal, value.isUnscoped = true → leaf value = true
  values : ∀ id value, s.values.get? id = some value → (∀ b, value ≠ .builtin b) ∧
    (value.visibleRows?.all (·.contains p.row) = true → value.Over leaf)
  functions : ∀ id d, s.functions.get? id = some d → d.body.Over leaf

variable {leaf : Literal → Bool}

theorem Yields.over_resolveName (hs : s.Yields leaf p) (h : s.resolveName p id = .ok g) :
    g.Over leaf := by
  cases hvalue : s.values.get? (Text.lower id) with
  | none =>
    obtain ⟨value, rfl, hunscoped⟩ := resolveName_of_none hvalue h
    exact .literal (hs.unscoped value hunscoped)
  | some value =>
    obtain ⟨hplain, hover⟩ := hs.values _ value hvalue
    rw [resolveName_of_get? hvalue hplain] at h
    rcases lookupVariable_eq_ok h with ⟨hfound, hvisible⟩ | ⟨hnone, _⟩
    · cases hvalue.symm.trans hfound
      exact hover hvisible
    · cases hvalue.symm.trans hnone

theorem over_inline {d : Function} {arguments : List Formula} (hbody : d.body.Over leaf)
    (harguments : ∀ f ∈ arguments, f.Over leaf) : (d.inline arguments).Over leaf := by
  apply hbody.substitute
  intro id value hvalue
  exact harguments value (List.of_mem_zip (Dictionary.pair_mem_of_get?_ofList hvalue)).2

/-- A pass puts in nothing but literals of the class. -/
theorem Yields.over_pass (hs : s.Yields leaf p) (hf : f.Over leaf) (h : s.pass p f = .ok g) :
    g.Over leaf := by
  induction hf generalizing g with
  | literal hvalue =>
    cases h
    exact .literal hvalue
  | name id => exact hs.over_resolveName h
  | @call form id arguments harguments ih =>
    rcases s.function_cases id with ⟨d, hd⟩ | ⟨hnone, b, hb⟩ | hunknown
    · -- the arguments go into the body unresolved, to be resolved in a later pass
      rw [pass_defined hd, apply_eq_ok_iff] at h
      rw [h.2]
      exact over_inline (hs.functions _ d hd) harguments
    · obtain ⟨given, _, hcall⟩ := (pass_builtin_eq_ok_iff hnone hb).1 h
      obtain ⟨address, rfl⟩ := builtin_call_eq_ok hcall
      exact .literal (hs.unscoped _ rfl)
    · obtain ⟨given, hgiven, rfl⟩ := (pass_unknown_eq_ok_iff hunknown).1 h
      refine .call fun f' hf' => ?_
      obtain ⟨argument, hargument, hpass⟩ := exists_of_mem_forall₂ hgiven hf'
      exact ih argument hargument hpass

/-! ## How a pass fails -/

theorem lookupVariable_error {e : FormulaError} (h : s.lookupVariable id p = .error e)
    (ids : List String) : e ≠ .didNotConverge ids := by
  rintro rfl
  unfold lookupVariable at h
  dsimp only at h
  split at h
  · split at h
    · split at h <;> cases h
    · cases h
  · split at h <;> cases h

theorem builtin_call_refuses {b : BuiltinFunction} {arguments : List Formula} {e : FormulaError}
    (h : b.call p arguments = .error e) : e.RefusesArguments := by
  unfold BuiltinFunction.call at h
  split at h
  next hcolumn =>
    cases h
    unfold BuiltinFunction.columnArgument at hcolumn
    split at hcolumn
    next =>
      split at hcolumn
      next =>
        split at hcolumn <;> cases hcolumn
        exact .invalidArgument _ _
      next =>
        cases hcolumn
        exact .invalidArgument _ _
    next =>
      cases hcolumn
      exact .argumentCount _ _ _
  next =>
    split at h
    next htarget =>
      cases h
      unfold BuiltinFunction.targetRow at htarget
      split at htarget
      · split at htarget <;> cases htarget
        exact .invalidArgument _ _
      · cases htarget
      · cases htarget
    next => cases h

theorem builtin_call_error {b : BuiltinFunction} {arguments : List Formula} {e : FormulaError}
    (h : b.call p arguments = .error e) (ids : List String) : e ≠ .didNotConverge ids := by
  rintro rfl
  cases builtin_call_refuses h

theorem value_call_error {value : Builtin} {arguments : List Formula} {e : FormulaError}
    (h : value.call p arguments = .error e) (ids : List String) : e ≠ .didNotConverge ids := by
  cases value with
  | ofVariable v => cases h
  | ofFunction b => exact builtin_call_error h ids

theorem resolveName_error {e : FormulaError} (h : s.resolveName p id = .error e)
    (ids : List String) : e ≠ .didNotConverge ids := by
  unfold resolveName at h
  split at h
  next =>
    split at h
    next => exact value_call_error h ids
    next => exact lookupVariable_error h ids
  next =>
    rintro rfl
    split at h
    · split at h <;> cases h
    · cases h

/-- A pass never reports that the passes do not converge; only the whole run does. -/
theorem pass_error {e : FormulaError} (h : s.pass p f = .error e) (ids : List String) :
    e ≠ .didNotConverge ids := by
  induction f using Formula.inductionOn generalizing e with
  | literal value => cases h
  | function id formals body => cases h
  | builtin value => exact value_call_error h ids
  | name id => exact resolveName_error h ids
  | call form id arguments ih =>
    rcases s.function_cases id with ⟨d, hd⟩ | ⟨hnone, b, hb⟩ | hunknown
    · rw [pass_defined hd, Function.apply] at h
      rintro rfl
      split at h <;> cases h
    · rw [pass_builtin hnone hb] at h
      cases hgiven : arguments.mapM (s.passArgument p) with
      | ok given =>
        rw [hgiven] at h
        exact builtin_call_error h ids
      | error e' =>
        rw [hgiven] at h
        cases h
        obtain ⟨argument, hargument, hfailed⟩ := exists_of_mapM_error hgiven
        unfold passArgument at hfailed
        split at hfailed
        · cases hfailed
        · exact ih argument hargument hfailed
    · rw [pass_unknown hunknown] at h
      cases hgiven : arguments.mapM (s.pass p) with
      | ok given =>
        rw [hgiven] at h
        cases h
      | error e' =>
        rw [hgiven] at h
        cases h
        obtain ⟨argument, hargument, hfailed⟩ := exists_of_mapM_error hgiven
        exact ih argument hargument hfailed

end Scope
end Spreadsheet
