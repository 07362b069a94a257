import Mathlib
import Spreadsheet.Compile

/-!
What the scope of a file depends on. Of the definitions of a name the last one counts, and none of
them where the options give the name a value. Main statement: two files with the same definitions
that count have the same scope or fail in the same way, in whatever order the definitions are
written, and in whatever order a table of them is walked.
-/
namespace Spreadsheet

open Text

namespace Definitions

/-- The last function with the name, which is given in lower case. -/
def lastFunction? (d : Definitions) (id : String) : Option Function :=
  d.functions.reverse.find? fun f => lower f.id == id

/-- The last value of the variable, whose name is given in lower case. -/
def lastValue? (d : Definitions) (id : String) : Option Formula :=
  (d.values.reverse.find? fun entry => lower entry.1 == id).map (·.2)

end Definitions

namespace Options

/-- The value of the variable in the options, whose keys are gone through in increasing order. -/
def lastText? (options : Options) (id : String) : Option String :=
  (options.keyValues.entries.reverse.find? fun entry => lower entry.1 == id).map (·.2)

/-- Whether a key of the options is the variable, whose name is given in lower case. -/
def Overrides (options : Options) (id : String) : Prop :=
  ∃ key, options.keyValues.contains key = true ∧ lower key = id

theorem not_overrides {options : Options} {id : String} (h : options.lastText? id = none) :
    ¬options.Overrides id := by
  rintro ⟨key, hkey, hid⟩
  obtain ⟨value, hvalue⟩ := Dictionary.contains_iff.1 hkey
  rw [lastText?, Option.map_eq_none_iff, List.find?_eq_none] at h
  have hentry := List.mem_reverse.2 (Dictionary.get?_eq_some_iff.1 hvalue)
  exact h (key, value) hentry (beq_iff_eq.2 hid)

end Options

/-! ## The scope before it is resolved -/

namespace Scope

theorem foldl_defineVariable {ι : Type} (name : ι → String) (value : ι → Formula)
    (items : List ι) (s : Scope) :
    items.foldl (fun s item => s.defineVariable (name item) (value item)) s =
      { s with values :=
          items.foldl (fun d item => d.insert (lower (name item)) (value item)) s.values } := by
  induction items generalizing s with
  | nil => rfl
  | cons item rest ih => exact ih (s.defineVariable (name item) (value item))

theorem foldl_defineFunction (functions : List Function) (s : Scope) :
    functions.foldl (fun s f => s.defineFunction f.id f) s =
      { s with functions := functions.foldl (fun d f => d.insert (lower f.id) f) s.functions } := by
  induction functions generalizing s with
  | nil => rfl
  | cons f rest ih => exact ih (s.defineFunction f.id f)

/-- The definitions of a file with the variables of the options over them. -/
def ofDefinitions (d : Definitions) (options : Options) : Scope :=
  options.keyValues.entries.foldl (fun s (id, value) => s.defineVariable id (.text value))
    (({} : Scope).addDefinitions d)

theorem addDefinitions_eq (s : Scope) (d : Definitions) :
    s.addDefinitions d =
      { values := d.values.foldl (fun d entry => d.insert (lower entry.1) entry.2) s.values
        functions := d.functions.foldl (fun d f => d.insert (lower f.id) f) s.functions } := by
  have hvalues := foldl_defineVariable (ι := String × Formula) Prod.fst Prod.snd d.values
    (d.functions.foldl (fun s f => s.defineFunction f.id f) s)
  exact hvalues.trans (by rw [foldl_defineFunction])

theorem ofDefinitions_eq (d : Definitions) (options : Options) :
    ofDefinitions d options =
      { values := options.keyValues.entries.foldl
          (fun d entry => d.insert (lower entry.1) (.text entry.2))
          (d.values.foldl (fun d entry => d.insert (lower entry.1) entry.2) .empty)
        functions := d.functions.foldl (fun d f => d.insert (lower f.id) f) .empty } := by
  have hvalues := foldl_defineVariable (ι := String × String) Prod.fst (fun entry => .text entry.2)
    options.keyValues.entries (({} : Scope).addDefinitions d)
  exact hvalues.trans (by rw [addDefinitions_eq])

theorem get?_values_ofDefinitions (d : Definitions) (options : Options) (id : String) :
    (ofDefinitions d options).values.get? id =
      ((options.lastText? id).map .text).or (d.lastValue? id) := by
  rw [ofDefinitions_eq]
  dsimp only
  rw [Dictionary.get?_foldl_insert, Dictionary.get?_foldl_insert, Dictionary.get?_empty,
    Option.or_none, Options.lastText?, Option.map_map]
  rfl

theorem get?_functions_ofDefinitions (d : Definitions) (options : Options) (id : String) :
    (ofDefinitions d options).functions.get? id = d.lastFunction? id := by
  rw [ofDefinitions_eq]
  dsimp only
  rw [Dictionary.get?_foldl_insert, Dictionary.get?_empty, Option.or_none, Option.map_id']
  rfl

/-- Definitions that count for as much make the same scope. -/
theorem ofDefinitions_congr {d d' : Definitions} {options : Options}
    (hfunctions : ∀ id, d.lastFunction? id = d'.lastFunction? id)
    (hvalues : ∀ id, ¬options.Overrides id → d.lastValue? id = d'.lastValue? id) :
    ofDefinitions d options = ofDefinitions d' options := by
  have hsameValues : (ofDefinitions d options).values = (ofDefinitions d' options).values := by
    apply Dictionary.ext_get?
    intro id
    rw [get?_values_ofDefinitions, get?_values_ofDefinitions]
    cases htext : options.lastText? id with
    | some text => rfl
    | none => rw [hvalues id (Options.not_overrides htext)]
  have hsameFunctions :
      (ofDefinitions d options).functions = (ofDefinitions d' options).functions := by
    apply Dictionary.ext_get?
    intro id
    rw [get?_functions_ofDefinitions, get?_functions_ofDefinitions, hfunctions id]
  show Scope.mk (ofDefinitions d options).values (ofDefinitions d options).functions = _
  rw [hsameValues, hsameFunctions]

end Scope

/-! ## Walking a table of definitions -/

namespace Dictionary

variable {α : Type}

/-- In whatever order the entries are listed, a key has one value. -/
theorem find?_of_perm {d : Dictionary α} {listing : List (String × α)}
    (h : listing.Perm d.entries) (key : String) :
    (listing.find? fun entry => entry.1 == key).map (·.2) = d.get? key := by
  have hget : ∀ entry ∈ listing, d.get? entry.1 = some entry.2 := fun entry hentry =>
    get?_eq_some_iff.2 (h.mem_iff.1 hentry)
  cases hfind : listing.find? fun entry => entry.1 == key with
  | some entry =>
    have hkey : entry.1 = key := by simpa using List.find?_some hfind
    rw [← hkey, hget entry (List.mem_of_find?_eq_some hfind)]
    rfl
  | none =>
    cases hvalue : d.get? key with
    | none => rfl
    | some value =>
      have hentry := h.mem_iff.2 (get?_eq_some_iff.1 hvalue)
      exact absurd (beq_self_eq_true key) (List.find?_eq_none.1 hfind _ hentry)

/-- Sorting names once each forgets everything but which names there are. -/
theorem sortedNames_congr {names names' : List String}
    (h : ∀ name, name ∈ names ↔ name ∈ names') : sortedNames names = sortedNames names' := by
  have hget (names : List String) (key : String) :
      (ofList (names.map fun name => (name, ()))).get? key = some () ↔ key ∈ names := by
    unfold ofList insertAll
    rw [get?_foldl_insert, get?_empty, Option.or_none, Option.map_eq_some_iff]
    simp [← Option.isSome_iff_exists]
  have hsame : ofList (names.map fun name => (name, ())) =
      ofList (names'.map fun name => (name, ())) := by
    apply ext_get?
    intro key
    apply Option.ext
    intro _
    exact (hget names key).trans ((h key).trans (hget names' key).symm)
  rw [sortedNames, hsame, sortedNames]

end Dictionary

/-- An order for every table of definitions, as the entries of a hash table may have any. -/
structure Walk where
  listing : Dictionary Formula → List (String × Formula)
  perm : ∀ values, (listing values).Perm values.entries

namespace DependencyGraph

/-- The graph of a set of definitions that is made up entry by entry, as they are listed. -/
def ofListing (values : Dictionary Formula) (listing : List (String × Formula)) :
    Except FormulaError DependencyGraph :=
  let edges := listing.map fun entry => (entry.1, entry.2.references values.contains)
  let undefined := edges.flatMap fun entry => entry.2.filter fun id => !values.contains id
  if undefined.isEmpty then .ok ⟨.ofList edges⟩
  else .error (.undefinedVariables (Dictionary.sortedNames undefined))

theorem ofListing_eq {values : Dictionary Formula} {listing : List (String × Formula)}
    (h : listing.Perm values.entries) : ofListing values listing = ofVariables values := by
  have hedges : Dictionary.ofList (listing.map fun entry =>
      (entry.1, entry.2.references values.contains)) =
      values.mapValues (Formula.references values.contains) := by
    apply Dictionary.ext_get?
    intro id
    have hperm := (List.reverse_perm listing).trans h
    unfold Dictionary.ofList Dictionary.insertAll
    rw [List.foldl_map, Dictionary.get?_foldl_insert, Dictionary.get?_empty, Option.or_none,
      Dictionary.get?_mapValues, ← Dictionary.find?_of_perm hperm, Option.map_map]
    rfl
  -- the missing names come in another order, which is lost when they are sorted
  have hundefined : ((listing.map fun entry =>
      (entry.1, entry.2.references values.contains)).flatMap fun entry =>
        entry.2.filter fun id => !values.contains id).Perm
      ((values.mapValues (Formula.references values.contains)).entries.flatMap fun entry =>
        entry.2.filter fun id => !values.contains id) :=
    (h.map _).flatMap_right _
  unfold ofListing ofVariables
  dsimp only
  rw [hedges, hundefined.isEmpty_eq, Dictionary.sortedNames_congr fun _ => hundefined.mem_iff]

end DependencyGraph

/-- Resolves the variables, the definitions being gone through as they are listed. -/
def Scope.resolveListing (s : Scope) (listing : List (String × Formula)) :
    Except FormulaError Scope :=
  match DependencyGraph.ofListing s.values listing with
  | .error e => .error e
  | .ok g =>
    match g.topologicalOrder with
    | .error e => .error e
    | .ok order => .ok { s with values := settleAll s.values g order }

theorem Scope.resolveListing_eq {s : Scope} {listing : List (String × Formula)}
    (h : listing.Perm s.values.entries) : s.resolveListing listing = s.resolveVariables := by
  rw [resolveListing, DependencyGraph.ofListing_eq h]
  rfl

/-! ## The scope of a file -/

namespace Source

/-- Whether these are the definitions of the file. A file without a section has none. -/
def Defines (source : Source) (d : Definitions) : Prop :=
  match source.definitions with
  | none => d = {}
  | some text => Definitions.parse (String.ofList text) = .ok d

theorem addDefinitions_of_defines {source : Source} {d : Definitions} (h : source.Defines d)
    (s : Scope) : source.addDefinitions s = .ok (s.addDefinitions d) := by
  unfold Defines at h
  unfold addDefinitions
  cases hsection : source.definitions with
  | none =>
    rw [hsection] at h
    rw [h]
    rfl
  | some text =>
    rw [hsection] at h
    dsimp only at h ⊢
    rw [h]

/-- The scope of a file whose tables of definitions are walked in the given order. -/
def buildScopeWalking (walk : Walk) (source : Source) (options : Options) :
    Except CompileError Scope :=
  match source.addDefinitions {} with
  | .error e => .error e
  | .ok s =>
    let s := options.keyValues.entries.foldl
      (fun s (id, value) => s.defineVariable id (.text value)) s
    (s.resolveListing (walk.listing s.values)).mapError (.definitions source.filename)

theorem buildScopeWalking_eq (walk : Walk) (source : Source) (options : Options) :
    source.buildScopeWalking walk options = source.buildScope options := by
  unfold buildScopeWalking buildScope
  cases source.addDefinitions {} with
  | error e => rfl
  | ok s =>
    dsimp only
    rw [Scope.resolveListing_eq (walk.perm _)]
    cases Scope.resolveVariables _ <;> rfl

theorem buildScope_of_defines {source : Source} {d : Definitions} (h : source.Defines d)
    (options : Options) :
    source.buildScope options =
      (Scope.ofDefinitions d options).resolveVariables.mapError (.definitions source.filename) := by
  unfold buildScope
  rw [addDefinitions_of_defines h]
  dsimp only
  rw [← Scope.ofDefinitions]
  cases (Scope.ofDefinitions d options).resolveVariables <;> rfl

/-- Files with the same last definitions, those of overridden variables apart, have the same scope
or fail with the same error; how a table of definitions is walked makes no difference either. -/
theorem buildScope_effective {a b : Source} {d d' : Definitions} (options : Options)
    (ha : a.Defines d) (hb : b.Defines d')
    (hfunctions : ∀ id, d.lastFunction? id = d'.lastFunction? id)
    (hvalues : ∀ id, ¬options.Overrides id → d.lastValue? id = d'.lastValue? id) :
    ∃ result : Except FormulaError Scope,
      a.buildScope options = result.mapError (.definitions a.filename) ∧
      b.buildScope options = result.mapError (.definitions b.filename) ∧
      ∀ walk, a.buildScopeWalking walk options = a.buildScope options ∧
        b.buildScopeWalking walk options = b.buildScope options := by
  refine ⟨(Scope.ofDefinitions d options).resolveVariables, buildScope_of_defines ha options, ?_,
    fun walk => ⟨buildScopeWalking_eq walk a options, buildScopeWalking_eq walk b options⟩⟩
  rw [buildScope_of_defines hb, Scope.ofDefinitions_congr hfunctions hvalues]

/-- Definitions of which two are never used: one refers to itself, the other is replaced. -/
def shadowedDefinitions : Source :=
  { filename := "long.csvpp"
    definitions := some
      "rate := $$rate\nuse := \"old\"\ndef pick(a) a\nuse := $$rate\n".toList
    sheet := []
    sheetLine := 6 }

/-- The definitions that count, in another order. -/
def countingDefinitions : Source :=
  { filename := "short.csvpp"
    definitions := some "USE := $$RATE\ndef Pick(A) A\n".toList
    sheet := []
    sheetLine := 4 }

/-- A value from outside for the variable that refers to itself. -/
def rateFromOutside : Options :=
  { keyValues := .ofList [("Rate", "high")] }

theorem defines_shadowedDefinitions :
    shadowedDefinitions.Defines
      { values := [("rate", .name "rate"), ("use", .text "old"), ("use", .name "rate")]
        functions := [{ id := "pick", formals := ["a"], body := .name "a" }] } := by
  show Definitions.parse _ = _
  cbv

theorem defines_countingDefinitions :
    countingDefinitions.Defines
      { values := [("use", .name "rate")]
        functions := [{ id := "pick", formals := ["a"], body := .name "a" }] } := by
  show Definitions.parse _ = _
  cbv

/-- What counts resolves, with the value from outside in both variables. -/
theorem buildScope_countingDefinitions :
    ∃ s, countingDefinitions.buildScope rateFromOutside = .ok s ∧
      s.values.entries = [("rate", .text "high"), ("use", .text "high")] := by
  have hgraph : DependencyGraph.ofVariables (Scope.ofDefinitions
      { values := [("use", .name "rate")]
        functions := [{ id := "pick", formals := ["a"], body := .name "a" }] }
      rateFromOutside).values = .ok ⟨.ofList [("rate", []), ("use", ["rate"])]⟩ := rfl
  have horder : (⟨.ofList [("rate", []), ("use", ["rate"])]⟩ : DependencyGraph).topologicalOrder =
      .ok ["rate", "use"] := by
    cbv
  rw [buildScope_of_defines defines_countingDefinitions, Scope.resolveVariables, hgraph]
  dsimp only
  rw [horder]
  exact ⟨_, rfl, rfl⟩

theorem buildScope_effective_rateFromOutside :
    ∃ s, shadowedDefinitions.buildScope rateFromOutside = .ok s ∧
      countingDefinitions.buildScope rateFromOutside = .ok s ∧
      s.values.entries = [("rate", .text "high"), ("use", .text "high")] := by
  have hlast : ∀ id, ¬rateFromOutside.Overrides id →
      Definitions.lastValue?
        { values := [("rate", .name "rate"), ("use", .text "old"), ("use", .name "rate")] } id =
      Definitions.lastValue? { values := [("use", .name "rate")] } id := by
    intro id hid
    have hlower : lower "rate" = "rate" ∧ lower "use" = "use" := by decide
    have hrate : "rate" ≠ id := by
      rintro rfl
      exact hid ⟨"Rate", by decide, by decide⟩
    by_cases huse : "use" = id
    · subst huse
      rfl
    · simp [Definitions.lastValue?, hlower, huse, hrate]
  obtain ⟨result, hlong, hshort, -⟩ := buildScope_effective rateFromOutside
    defines_shadowedDefinitions defines_countingDefinitions (fun _ => rfl) hlast
  obtain ⟨s, hscope, hentries⟩ := buildScope_countingDefinitions
  rw [hscope] at hshort
  cases result with
  | error e => cases hshort
  | ok s' =>
    cases hshort
    exact ⟨s, hlong, hscope, hentries⟩

end Source

end Spreadsheet
