import Mathlib.Data.List.Induction
import Spreadsheet.Proofs.CountedReferences

/-!
Where variables occur in a formula. A path leads from a formula down to one of its parts, and paths
in their lexicographic order go through the tree in pre-order. Whether an occurrence counts is said
by the functions around it, the call directly above it and the name alone. Main statement: the
references of a formula are the variables with an occurrence that counts, each once, in the order of
their first such occurrences; the graph of a set of definitions has them as its edges, and does not
exist exactly where some of them are not defined.
-/
namespace Spreadsheet

namespace Formula

/-- The part of a formula at the end of a path, which picks one of the formulas directly below at
each step. -/
def at? : Formula → List Nat → Option Formula
  | f, [] => some f
  | f, i :: path => f.children[i]?.bind fun child => child.at? path

/-- The variable `id` occurs at the end of the path, and this occurrence counts. -/
structure CountedAt (defined : String → Bool) (f : Formula) (path : List Nat) (id : String) :
    Prop where
  occurs : f.at? path = some (.name id)
  /-- It is not a formal of a function that it is in. -/
  free : ∀ above function formals body, above <+: path →
    f.at? above = some (.function function formals body) → id ∉ formals
  /-- It is not an address that nothing defines, given to a built-in function. -/
  not_column : ∀ above i form function arguments, path = above ++ [i] →
    f.at? above = some (.call form function arguments) →
    (BuiltinFunction.named? function).isSome = true → defined id = true ∨ Address.read id = none
  /-- It has no meaning without being defined, or is defined. -/
  needed : defined id = true ∨ BuiltinVariable.named? id = none ∧
    ∀ address, Address.read id = some address → address.first.row = none

/-- The path comes first in pre-order: a formula is met before those below it, and these one after
the other. -/
def Precedes (path path' : List Nat) : Prop :=
  List.Lex (· < ·) path path'

/-- The variables of a formula, each once, in the order of their first occurrences that count. -/
structure ListsVariables (defined : String → Bool) (f : Formula) (ids : List String) : Prop where
  nodup : ids.Nodup
  mem_iff : ∀ id, id ∈ ids ↔ ∃ path, f.CountedAt defined path id
  /-- A variable occurs before every occurrence of those listed behind it. -/
  ordered : ids.Pairwise fun a b => ∃ path, f.CountedAt defined path a ∧
    ∀ path', f.CountedAt defined path' b → Precedes path path'

variable {defined : String → Bool} {id : String} {path : List Nat}

theorem resolvesAlone_eq_false_iff :
    resolvesAlone id = false ↔ BuiltinVariable.named? id = none ∧
      ∀ address, Address.read id = some address → address.first.row = none := by
  unfold resolvesAlone
  cases Address.read id <;> simp

theorem isBareAddress_name_eq_false_iff :
    (Formula.name id).isBareAddress defined = false ↔
      defined id = true ∨ Address.read id = none := by
  simp [isBareAddress, or_iff_not_imp_left]

/-! ## Occurrences by the kind of formula -/

/-- One step down a path: what counts below counts here, if the formula at the top neither binds it
nor is a built-in function that it is a column for. -/
theorem countedAt_cons_iff {f : Formula} {i : Nat} {rest : List Nat} :
    f.CountedAt defined (i :: rest) id ↔
      ∃ child, f.children[i]? = some child ∧ child.CountedAt defined rest id ∧
        (∀ function formals body, f = .function function formals body → id ∉ formals) ∧
        (rest = [] → ∀ form function arguments, f = .call form function arguments →
          (BuiltinFunction.named? function).isSome = true →
          defined id = true ∨ Address.read id = none) := by
  constructor
  · intro h
    obtain ⟨child, hchild, hoccurs⟩ := Option.bind_eq_some_iff.1 h.occurs
    have hbelow (above : List Nat) : f.at? (i :: above) = child.at? above := by
      rw [at?, hchild, Option.bind_some]
    refine ⟨child, hchild, ⟨hoccurs, ?_, ?_, h.needed⟩, ?_, ?_⟩
    · intro above function formals body habove hfunction
      exact h.free (i :: above) function formals body (List.cons_prefix_cons.2 ⟨rfl, habove⟩)
        ((hbelow above).trans hfunction)
    · intro above j form function arguments hrest hcall
      exact h.not_column (i :: above) j form function arguments (by rw [hrest, List.cons_append])
        ((hbelow above).trans hcall)
    · rintro function formals body rfl
      exact h.free [] function formals body List.nil_prefix rfl
    · rintro rfl form function arguments rfl
      exact h.not_column [] i form function arguments rfl rfl
  · rintro ⟨child, hchild, h, hfree, hcolumn⟩
    have hbelow (above : List Nat) : f.at? (i :: above) = child.at? above := by
      rw [at?, hchild, Option.bind_some]
    refine ⟨(hbelow rest).trans h.occurs, ?_, ?_, h.needed⟩
    · intro above function formals body habove hfunction
      cases above with
      | nil => exact hfree function formals body (Option.some.inj hfunction)
      | cons j above =>
        obtain ⟨rfl, hrest⟩ := List.cons_prefix_cons.1 habove
        exact h.free above function formals body hrest ((hbelow above).symm.trans hfunction)
    · intro above j form function arguments hpath hcall
      cases above with
      | nil =>
        obtain ⟨-, hrest⟩ := List.cons.inj hpath
        exact hcolumn hrest form function arguments (Option.some.inj hcall)
      | cons k above =>
        obtain ⟨rfl, hrest⟩ := List.cons.inj hpath
        exact h.not_column above j form function arguments hrest ((hbelow above).symm.trans hcall)

theorem countedAt_nil_iff {f : Formula} :
    f.CountedAt defined [] id ↔ f = .name id ∧ (defined id || !resolvesAlone id) = true := by
  have hneeded : (defined id || !resolvesAlone id) = true ↔
      defined id = true ∨ BuiltinVariable.named? id = none ∧
        ∀ address, Address.read id = some address → address.first.row = none := by
    rw [Bool.or_eq_true, Bool.not_eq_true', resolvesAlone_eq_false_iff]
  rw [hneeded]
  constructor
  · intro h
    exact ⟨Option.some.inj h.occurs, h.needed⟩
  · rintro ⟨rfl, h⟩
    refine ⟨rfl, ?_, ?_, h⟩
    · intro above function formals body habove hfunction
      rw [List.prefix_nil.1 habove] at hfunction
      cases hfunction
    · intro above i form function arguments hpath
      cases above <;> cases hpath

theorem not_countedAt_of_leaf {f : Formula} (hleaf : f.children = []) (hname : f ≠ .name id) :
    ¬f.CountedAt defined path id := by
  intro h
  cases path with
  | nil => exact hname (countedAt_nil_iff.1 h).1
  | cons i rest =>
    obtain ⟨_, hchild, -⟩ := countedAt_cons_iff.1 h
    rw [hleaf] at hchild
    cases hchild

theorem countedAt_name_iff {other : String} :
    CountedAt defined (.name other) path id ↔
      (path = [] ∧ id = other) ∧ (defined other || !resolvesAlone other) = true := by
  cases path with
  | nil =>
    rw [countedAt_nil_iff]
    constructor
    · rintro ⟨hid, hcounts⟩
      cases hid
      exact ⟨⟨rfl, rfl⟩, hcounts⟩
    · rintro ⟨⟨-, rfl⟩, hcounts⟩
      exact ⟨rfl, hcounts⟩
  | cons i rest => simp [countedAt_cons_iff, children]

theorem countedAt_function_iff {function : String} {formals : List String} {body : Formula} :
    CountedAt defined (.function function formals body) path id ↔
      ∃ rest, path = 0 :: rest ∧ body.CountedAt defined rest id ∧ id ∉ formals := by
  cases path with
  | nil => simp [countedAt_nil_iff]
  | cons i rest =>
    rw [countedAt_cons_iff]
    cases i <;> simp [children]

/-- Only an occurrence directly below a call can be a column for it. -/
theorem CountedAt.isBareAddress_eq_false_iff {f : Formula} (h : f.CountedAt defined path id) :
    f.isBareAddress defined = false ↔ (path = [] → defined id = true ∨ Address.read id = none) := by
  cases path with
  | nil =>
    obtain ⟨rfl, -⟩ := countedAt_nil_iff.1 h
    rw [isBareAddress_name_eq_false_iff]
    exact ⟨fun hid _ => hid, fun hid => hid rfl⟩
  | cons i rest =>
    refine iff_of_true ?_ (fun hnil => by cases hnil)
    obtain ⟨child, hchild, -⟩ := countedAt_cons_iff.1 h
    cases f with
    | name other => cases hchild
    | _ => rfl

theorem countedAt_call_iff {form : CallForm} {function : String} {arguments : List Formula} :
    CountedAt defined (.call form function arguments) path id ↔
      ∃ i rest f, path = i :: rest ∧ arguments[i]? = some f ∧ f.CountedAt defined rest id ∧
        ((BuiltinFunction.named? function).isSome = true → f.isBareAddress defined = false) := by
  cases path with
  | nil => simp [countedAt_nil_iff]
  | cons i rest =>
    rw [countedAt_cons_iff]
    constructor
    · rintro ⟨f, hf, h, -, hcolumn⟩
      refine ⟨i, rest, f, rfl, hf, h, fun hbuiltin => ?_⟩
      exact h.isBareAddress_eq_false_iff.2 fun hrest => hcolumn hrest _ _ _ rfl hbuiltin
    · rintro ⟨_, _, f, hpath, hf, h, hcolumn⟩
      cases hpath
      refine ⟨f, hf, h, ?_, ?_⟩
      · intro _ _ _ hfunction
        cases hfunction
      intro hrest _ _ _ hcall hbuiltin
      cases hcall
      exact h.isBareAddress_eq_false_iff.1 (hcolumn hbuiltin) hrest

/-! ## All occurrences in pre-order -/

/-- A place in the formula number `i` below, as seen from the formula above. -/
def under (i : Nat) (place : List Nat × String) : List Nat × String :=
  (i :: place.1, place.2)

mutual

/-- The occurrences that count, each with its path. -/
def located (defined : String → Bool) : Formula → List (List Nat × String)
  | .name id => if defined id || !resolvesAlone id then [([], id)] else []
  | .call _ id arguments => locatedFrom defined (BuiltinFunction.named? id).isSome 0 arguments
  | .function _ formals body =>
    ((located defined body).filter fun place => !formals.contains place.2).map (under 0)
  | _ => []
termination_by structural f => f

/-- The occurrences that count in the arguments of a call from number `i` on. -/
def locatedFrom (defined : String → Bool) (builtin : Bool) (i : Nat) :
    List Formula → List (List Nat × String)
  | [] => []
  | f :: rest =>
    (if builtin && f.isBareAddress defined then [] else (located defined f).map (under i)) ++
      locatedFrom defined builtin (i + 1) rest
termination_by structural fs => fs

end

theorem mem_map_under_iff {i : Nat} {places : List (List Nat × String)} :
    (path, id) ∈ places.map (under i) ↔ ∃ rest, path = i :: rest ∧ (rest, id) ∈ places := by
  simp only [List.mem_map, under, Prod.exists, Prod.mk.injEq]
  constructor
  · rintro ⟨rest, _, hmem, rfl, rfl⟩
    exact ⟨rest, rfl, hmem⟩
  · rintro ⟨rest, rfl, hmem⟩
    exact ⟨rest, id, hmem, rfl, rfl⟩

theorem mem_locatedFrom_iff {builtin : Bool} {i : Nat} {fs : List Formula} :
    (path, id) ∈ locatedFrom defined builtin i fs ↔
      ∃ k rest f, path = (i + k) :: rest ∧ fs[k]? = some f ∧ (rest, id) ∈ located defined f ∧
        (builtin = true → f.isBareAddress defined = false) := by
  induction fs generalizing i with
  | nil => simp [locatedFrom]
  | cons f fs ih =>
    have hfirst : (path, id) ∈ (if builtin && f.isBareAddress defined then []
        else (located defined f).map (under i)) ↔
        ∃ rest, path = i :: rest ∧ (rest, id) ∈ located defined f ∧
          (builtin = true → f.isBareAddress defined = false) := by
      cases builtin <;> cases f.isBareAddress defined <;> simp [mem_map_under_iff]
    rw [locatedFrom, List.mem_append, hfirst, ih]
    constructor
    · rintro (⟨rest, hpath, h⟩ | ⟨k, rest, g, hpath, h⟩)
      · exact ⟨0, rest, f, hpath, rfl, h⟩
      · exact ⟨k + 1, rest, g, by rw [hpath, Nat.add_assoc, Nat.add_comm 1], h⟩
    · rintro ⟨k, rest, g, hpath, hg, h⟩
      cases k with
      | zero =>
        cases hg
        exact .inl ⟨rest, hpath, h⟩
      | succ k => exact .inr ⟨k, rest, g, by rw [hpath, Nat.add_assoc, Nat.add_comm 1], hg, h⟩

/-- What is met while walking through the tree is what the paths say. -/
theorem mem_located_iff {f : Formula} :
    (path, id) ∈ located defined f ↔ f.CountedAt defined path id := by
  induction f using inductionOn generalizing path with
  | literal value => exact iff_of_false List.not_mem_nil (not_countedAt_of_leaf rfl (by simp))
  | builtin value => exact iff_of_false List.not_mem_nil (not_countedAt_of_leaf rfl (by simp))
  | name other =>
    rw [located, countedAt_name_iff]
    split <;> simp [*]
  | call form function arguments ih =>
    rw [located, mem_locatedFrom_iff, countedAt_call_iff]
    simp only [Nat.zero_add]
    constructor
    · rintro ⟨i, rest, f, hpath, hf, hmem, hcolumn⟩
      exact ⟨i, rest, f, hpath, hf, (ih f (List.mem_of_getElem? hf)).1 hmem, hcolumn⟩
    · rintro ⟨i, rest, f, hpath, hf, h, hcolumn⟩
      exact ⟨i, rest, f, hpath, hf, (ih f (List.mem_of_getElem? hf)).2 h, hcolumn⟩
  | function function formals body ih =>
    rw [located, mem_map_under_iff, countedAt_function_iff]
    simp only [List.mem_filter, ih, Bool.not_eq_true', List.contains_eq_mem,
      decide_eq_false_iff_not]

theorem pairwise_map_under {places : List (List Nat × String)} (i : Nat)
    (h : places.Pairwise fun a b => Precedes a.1 b.1) :
    (places.map (under i)).Pairwise fun a b => Precedes a.1 b.1 :=
  List.pairwise_map.2 (h.imp List.Lex.cons)

theorem pairwise_locatedFrom {builtin : Bool} {i : Nat} {fs : List Formula}
    (h : ∀ f ∈ fs, (located defined f).Pairwise fun a b => Precedes a.1 b.1) :
    (locatedFrom defined builtin i fs).Pairwise fun a b => Precedes a.1 b.1 := by
  induction fs generalizing i with
  | nil => exact .nil
  | cons f fs ih =>
    obtain ⟨hf, hfs⟩ := List.forall_mem_cons.1 h
    rw [locatedFrom]
    split
    · exact ih hfs
    · refine List.pairwise_append.2 ⟨pairwise_map_under i hf, ih hfs, ?_⟩
      -- the places in this argument begin with a smaller number than those in the later ones
      rintro ⟨path, id⟩ hhere ⟨path', id'⟩ hlater
      obtain ⟨rest, rfl, -⟩ := mem_map_under_iff.1 hhere
      obtain ⟨k, rest', -, rfl, -⟩ := mem_locatedFrom_iff.1 hlater
      exact List.Lex.rel (show i < i + 1 + k by omega)

/-- The occurrences are met in pre-order. -/
theorem pairwise_located (f : Formula) :
    (located defined f).Pairwise fun a b => Precedes a.1 b.1 := by
  induction f using inductionOn with
  | literal value => exact .nil
  | builtin value => exact .nil
  | name id =>
    rw [located]
    split
    · exact List.pairwise_singleton _ _
    · exact .nil
  | call form function arguments ih => exact pairwise_locatedFrom ih
  | function function formals body ih => exact pairwise_map_under 0 (ih.filter _)

/-! ## Names found one after another -/

theorem addName_of_mem {found : List String} (h : id ∈ found) : addName found id = found := by
  rw [addName, if_pos (List.contains_iff_mem.2 h)]

theorem addName_of_not_mem {found : List String} (h : id ∉ found) :
    addName found id = found ++ [id] := by
  rw [addName, if_neg fun hmem => h (List.contains_iff_mem.1 hmem)]

theorem nodup_addName {found : List String} (h : found.Nodup) : (addName found id).Nodup := by
  by_cases hid : id ∈ found
  · rwa [addName_of_mem hid]
  · rw [addName_of_not_mem hid]
    exact List.nodup_append.2 ⟨h, List.pairwise_singleton _ _, fun a ha b hb => by
      rintro rfl
      exact hid (List.mem_singleton.1 hb ▸ ha)⟩

theorem nodup_foldl_addName {names found : List String} (h : found.Nodup) :
    (names.foldl addName found).Nodup := by
  induction names generalizing found with
  | nil => exact h
  | cons id rest ih => exact ih (nodup_addName h)

/-- Names that were found on their own are added as if they had been found here. -/
theorem foldl_addName_foldl (names own found : List String) :
    (names.foldl addName own).foldl addName found =
      names.foldl addName (own.foldl addName found) := by
  induction names generalizing own with
  | nil => rfl
  | cons id rest ih =>
    have hstep : (addName own id).foldl addName found = addName (own.foldl addName found) id := by
      by_cases hid : id ∈ own
      · rw [addName_of_mem hid, addName_of_mem (mem_foldl_addName.2 (.inr hid))]
      · rw [addName_of_not_mem hid, List.foldl_append]
        rfl
    rw [List.foldl_cons, ih, hstep, List.foldl_cons]

theorem filter_addName (p : String → Bool) (found : List String) (id : String) :
    (addName found id).filter p =
      if p id = true then addName (found.filter p) id else found.filter p := by
  by_cases hid : id ∈ found
  · rw [addName_of_mem hid]
    split
    next hp => rw [addName_of_mem (List.mem_filter.2 ⟨hid, hp⟩)]
    next => rfl
  · rw [addName_of_not_mem hid, List.filter_append]
    split
    next hp =>
      rw [addName_of_not_mem fun hmem => hid (List.mem_filter.1 hmem).1,
        List.filter_cons_of_pos hp, List.filter_nil]
    next hp => rw [List.filter_cons_of_neg hp, List.filter_nil, List.append_nil]

theorem filter_foldl_addName (p : String → Bool) (names found : List String) :
    (names.foldl addName found).filter p = (names.filter p).foldl addName (found.filter p) := by
  induction names generalizing found with
  | nil => rfl
  | cons id rest ih =>
    rw [List.foldl_cons, ih, filter_addName, List.filter_cons]
    split <;> rfl

/-- A name that is found first stands before all occurrences of one that is found later. -/
theorem pairwise_foldl_addName {places : List (List Nat × String)}
    (h : places.Pairwise fun a b => Precedes a.1 b.1) :
    ((places.map (·.2)).foldl addName []).Pairwise fun a b => ∃ path, (path, a) ∈ places ∧
      ∀ path', (path', b) ∈ places → Precedes path path' := by
  -- on the last place: its path comes after all others, so it is the first one of a new name and
  -- no first one of a name that is there
  induction places using List.reverseRecOn with
  | nil => exact .nil
  | append_singleton places last ih =>
    obtain ⟨hplaces, -, hlast⟩ := List.pairwise_append.1 h
    have hbefore {path id} (hmem : (path, id) ∈ places) : Precedes path last.1 :=
      hlast _ hmem last List.mem_cons_self
    have hkept := (ih hplaces).imp (S := fun a b => ∃ path, (path, a) ∈ places ++ [last] ∧
        ∀ path', (path', b) ∈ places ++ [last] → Precedes path path') fun {a b} hab => by
      obtain ⟨path, hpath, hfirst⟩ := hab
      refine ⟨path, List.mem_append_left _ hpath, fun path' hpath' => ?_⟩
      rcases List.mem_append.1 hpath' with hearlier | hlater
      · exact hfirst path' hearlier
      · rw [← List.mem_singleton.1 hlater] at hbefore
        exact hbefore hpath
    rw [List.map_append, List.foldl_append]
    show (addName ((places.map (·.2)).foldl addName []) last.2).Pairwise _
    by_cases hid : last.2 ∈ (places.map (·.2)).foldl addName []
    · rwa [addName_of_mem hid]
    · rw [addName_of_not_mem hid]
      refine List.pairwise_append.2 ⟨hkept, List.pairwise_singleton _ _, fun a ha b hb => ?_⟩
      obtain ⟨⟨path, _⟩, hpath, rfl⟩ :=
        List.mem_map.1 ((mem_foldl_addName.1 ha).resolve_left List.not_mem_nil)
      refine ⟨path, List.mem_append_left _ hpath, fun path' hpath' => ?_⟩
      rw [List.mem_singleton.1 hb] at hpath'
      rcases List.mem_append.1 hpath' with hearlier | hlater
      · exact absurd (mem_foldl_addName.2 (.inr (List.mem_map_of_mem hearlier))) hid
      · rw [← List.mem_singleton.1 hlater] at hbefore
        exact hbefore hpath

/-! ## What is collected -/

theorem map_snd_map_under (i : Nat) (places : List (List Nat × String)) :
    (places.map (under i)).map (·.2) = places.map (·.2) := by
  rw [List.map_map]
  rfl

theorem collectAll_eq {fs : List Formula} (h : ∀ f ∈ fs, ∀ found,
    collect defined found f = ((located defined f).map (·.2)).foldl addName found) (i : Nat)
    (found : List String) :
    collectAll defined found fs =
      ((locatedFrom defined false i fs).map (·.2)).foldl addName found := by
  induction fs generalizing i found with
  | nil => rfl
  | cons f rest ih =>
    obtain ⟨hf, hrest⟩ := List.forall_mem_cons.1 h
    rw [collectAll, hf, ih hrest (i + 1), locatedFrom, Bool.false_and, if_neg Bool.false_ne_true,
      List.map_append, List.foldl_append, map_snd_map_under]

theorem collectArguments_eq {fs : List Formula} (h : ∀ f ∈ fs, ∀ found,
    collect defined found f = ((located defined f).map (·.2)).foldl addName found) (i : Nat)
    (found : List String) :
    collectArguments defined found fs =
      ((locatedFrom defined true i fs).map (·.2)).foldl addName found := by
  induction fs generalizing i found with
  | nil => rfl
  | cons f rest ih =>
    obtain ⟨hf, hrest⟩ := List.forall_mem_cons.1 h
    rw [collectArguments, ih hrest (i + 1), locatedFrom, Bool.true_and, List.map_append,
      List.foldl_append]
    by_cases hcolumn : f.isBareAddress defined = true
    · rw [if_pos hcolumn, if_pos hcolumn, List.map_nil, List.foldl_nil]
    · rw [if_neg hcolumn, if_neg hcolumn, hf, map_snd_map_under]

/-- Collecting adds the names of the occurrences that count, one after another. -/
theorem collect_eq (f : Formula) (found : List String) :
    collect defined found f = ((located defined f).map (·.2)).foldl addName found := by
  induction f using inductionOn generalizing found with
  | literal value => rfl
  | builtin value => rfl
  | name id =>
    rw [collect, located]
    split <;> rfl
  | call form function arguments ih =>
    rw [collect, located]
    split
    next hbuiltin => rw [hbuiltin, collectArguments_eq ih 0]
    next hbuiltin => rw [Bool.eq_false_iff.2 hbuiltin, collectAll_eq ih 0]
  | function function formals body ih =>
    -- the body starts with nothing found; taking the formals out of its places first gives the same
    rw [collect, located, ih, filter_foldl_addName, List.filter_nil, foldl_addName_foldl,
      map_snd_map_under]
    exact congrArg (List.foldl addName found) List.filter_map

theorem listsVariables_references (defined : String → Bool) (f : Formula) :
    f.ListsVariables defined (f.references defined) := by
  have hreferences : f.references defined = ((located defined f).map (·.2)).foldl addName [] :=
    collect_eq f []
  rw [hreferences]
  refine ⟨nodup_foldl_addName .nil, fun id => ?_, ?_⟩
  · rw [mem_foldl_addName, or_iff_right List.not_mem_nil]
    simp only [List.mem_map, Prod.exists, exists_eq_right, mem_located_iff]
  · have hordered := pairwise_foldl_addName (@pairwise_located defined f)
    simpa only [mem_located_iff] using hordered

end Formula

namespace DependencyGraph

variable {values : Dictionary Formula} {target : String}

/-- The definitions refer to `target`, which is not among them. -/
def Missing (values : Dictionary Formula) (target : String) : Prop :=
  values.contains target = false ∧ ∃ id value path, values.get? id = some value ∧
    value.CountedAt values.contains path target

theorem missing_iff :
    Missing values target ↔ ∃ id, RefersTo values id target ∧ values.contains target = false := by
  have hrefers (value : Formula) : value.RefersTo values.contains target ↔
      ∃ path, value.CountedAt values.contains path target :=
    (Formula.mem_references_iff value).symm.trans
      ((Formula.listsVariables_references values.contains value).mem_iff target)
  constructor
  · rintro ⟨hundefined, id, value, path, hvalue, hcounted⟩
    exact ⟨id, ⟨value, hvalue, (hrefers value).2 ⟨path, hcounted⟩⟩, hundefined⟩
  · rintro ⟨id, ⟨value, hvalue, h⟩, hundefined⟩
    obtain ⟨path, hcounted⟩ := (hrefers value).1 h
    exact ⟨hundefined, id, value, path, hvalue, hcounted⟩

theorem closed_iff_forall_not_missing : Closed values ↔ ∀ target, ¬Missing values target := by
  simp only [missing_iff, Closed]
  constructor
  · rintro hclosed target ⟨id, hrefers, hundefined⟩
    rw [hclosed id target hrefers] at hundefined
    cases hundefined
  · intro hnone id target hrefers
    by_contra hundefined
    exact hnone target ⟨id, hrefers, Bool.eq_false_iff.2 hundefined⟩

theorem pairwise_sortedNames (names : List String) :
    (Dictionary.sortedNames names).Pairwise fun a b => a < b :=
  List.pairwise_map.2 (Dictionary.ofList (names.map fun name => (name, ()))).sorted

theorem ofVariables_reports {e : FormulaError} (h : ofVariables values = .error e) :
    ∃ ids, e = .undefinedVariables ids ∧ (ids.Pairwise fun a b => a < b) ∧
      ∀ target, target ∈ ids ↔ Missing values target := by
  unfold ofVariables at h
  dsimp only at h
  split at h
  next => cases h
  next =>
    cases h
    refine ⟨_, rfl, pairwise_sortedNames _, fun target => ?_⟩
    rw [Dictionary.mem_sortedNames_iff, mem_undefined_iff, missing_iff]

theorem ofVariables_edges {g : DependencyGraph} (h : ofVariables values = .ok g) :
    g.edges = values.mapValues (Formula.references values.contains) := by
  unfold ofVariables at h
  dsimp only at h
  split at h
  next =>
    cases h
    rfl
  next => cases h

/-- The references of a formula are exactly the variables with an occurrence that counts, in the
order of the first of these; and a set of definitions either has the graph of these references, or
refers to variables that it does not define, which are reported all together. -/
theorem ofVariables_exact :
    (∀ defined f, Formula.ListsVariables defined f (f.references defined)) ∧
    ∀ values,
      ((∃ e, ofVariables values = .error e) ↔ ∃ target, Missing values target) ∧
      (∀ e, ofVariables values = .error e → ∃ ids, e = .undefinedVariables ids ∧
        (ids.Pairwise fun a b => a < b) ∧ ∀ target, target ∈ ids ↔ Missing values target) ∧
      ∀ g, ofVariables values = .ok g → g.nodes = values.keys ∧
        ∀ id value, values.get? id = some value →
          g.dependencies id = value.references values.contains := by
  refine ⟨Formula.listsVariables_references, fun values => ⟨?_, fun e => ofVariables_reports, ?_⟩⟩
  · rcases ofVariables_cases values with ⟨hclosed, g, hg, -⟩ | ⟨hopen, ids, hids⟩
    · have hnone := closed_iff_forall_not_missing.1 hclosed
      rw [hg]
      exact iff_of_false (fun ⟨e, he⟩ => by cases he) fun ⟨target, hmissing⟩ =>
        hnone target hmissing
    · rw [closed_iff_forall_not_missing] at hopen
      exact iff_of_true ⟨_, hids⟩ (Classical.not_forall_not.1 hopen)
  · intro g hg
    rw [nodes, ofVariables_edges hg]
    refine ⟨?_, fun id value hvalue => ?_⟩
    · exact List.map_map
    · rw [dependencies, ofVariables_edges hg, Dictionary.get?_mapValues, hvalue]
      rfl

/-- A definition with a variable that is also a formal further on and a column for a built-in
function. -/
def scatteredNames : Dictionary Formula :=
  .ofList [("tax", .binary "*" (.call .named "cellabove" [.name "b"])
    (.binary "+" (.name "zone")
      (.function "f" ["zone"] (.binary "-" (.name "zone") (.name "alpha")))))]

theorem ofVariables_exact_scatteredNames :
    ofVariables scatteredNames = .error (.undefinedVariables ["alpha", "zone"]) ∧
      Missing scatteredNames "alpha" ∧ ¬Missing scatteredNames "b" := by
  have hreport : ofVariables scatteredNames = .error (.undefinedVariables ["alpha", "zone"]) := rfl
  obtain ⟨ids, hids, -, hmem⟩ := (ofVariables_exact.2 scatteredNames).2.1 _ hreport
  cases hids
  exact ⟨hreport, (hmem "alpha").1 (by decide), fun hb => absurd ((hmem "b").2 hb) (by decide)⟩

end DependencyGraph
end Spreadsheet
