import Spreadsheet.Compile
import Spreadsheet.Proofs.FormulaSpelling
import Spreadsheet.Proofs.ResolvedCells
import Spreadsheet.Proofs.ResolvedFormulas
import Spreadsheet.Proofs.SheetLayout

/-!
Compiled sheets. Main statement: in a sheet that compiling returns, every formula is resolved and
refers only to what can be seen from its own row.
-/
namespace Spreadsheet

/-! ## Cells that were read -/

/-- A cell whose formula, if it has one, is the tree of a text. -/
def Cell.Written (c : Cell) : Prop :=
  ∀ f, c.formula = some f → f.Written

theorem Cell.written_read {place : Place} {rowDefaults : Modifier} {first : Bool}
    {field : List Char} {rowModifier : Option Modifier} {cell : Cell}
    (h : Cell.read place rowDefaults first field = .ok (rowModifier, cell)) : cell.Written := by
  unfold Cell.read at h
  split at h
  next => cases h
  next parsed _ =>
    split at h
    next => cases h
    next formula hformula =>
      cases h
      intro f hf
      cases hf
      unfold Cell.readFormula at hformula
      split at hformula
      next =>
        split at hformula
        next hparse =>
          cases hformula
          exact Formula.written_parse hparse
        next => cases hformula
      next => cases hformula

theorem Row.written_readCells {place : Place} {rowDefaults : Modifier}
    {fields : List (List Char)} {cells : List Cell}
    (h : Row.readCells place rowDefaults fields = .ok cells) : ∀ cell ∈ cells, cell.Written := by
  induction fields generalizing place cells with
  | nil =>
    cases h
    exact List.forall_mem_nil _
  | cons field rest ih =>
    rw [Row.readCells] at h
    split at h
    next => cases h
    next first hfirst =>
      split at h
      next => cases h
      next more hmore =>
        cases h
        exact List.forall_mem_cons.2 ⟨Cell.written_read hfirst, ih hmore⟩

theorem Row.written_ofFields {place : Place} {fields : List (List Char)} {row : Row}
    (h : Row.ofFields place fields = .ok row) : ∀ cell ∈ row.cells, cell.Written := by
  cases fields with
  | nil =>
    cases h
    exact List.forall_mem_nil _
  | cons field rest =>
    rw [Row.ofFields] at h
    split at h
    next => cases h
    next hfirst =>
      dsimp only at h
      split at h
      next => cases h
      next more hmore =>
        cases h
        exact List.forall_mem_cons.2 ⟨Cell.written_read hfirst, Row.written_readCells hmore⟩

namespace Sheet

theorem written_readRows {source : Source} {columnOffset index : Nat}
    {records : List Csv.Record} {rows : List Row}
    (h : readRows source columnOffset index records = .ok rows) :
    ∀ row ∈ rows, ∀ cell ∈ row.cells, cell.Written := by
  induction records generalizing index rows with
  | nil =>
    cases h
    exact List.forall_mem_nil _
  | cons record rest ih =>
    rw [readRows] at h
    split at h
    next => cases h
    next first hfirst =>
      split at h
      next => cases h
      next more hmore =>
        cases h
        exact List.forall_mem_cons.2 ⟨Row.written_ofFields hfirst, ih hmore⟩

theorem written_read {source : Source} {options : Options} {t : Sheet}
    (h : Sheet.read source options = .ok t) : ∀ row ∈ t.rows, ∀ cell ∈ row.cells, cell.Written := by
  unfold Sheet.read at h
  split at h
  next => cases h
  next hrows =>
    cases h
    exact written_readRows hrows

theorem written_layout {fill next : Nat} {rows : List Row}
    (h : ∀ row ∈ rows, ∀ cell ∈ row.cells, cell.Written) :
    ∀ row ∈ layout fill next rows, ∀ cell ∈ row.cells, cell.Written := by
  intro row hrow cell hcell
  obtain ⟨original, horiginal, first, copy, rfl⟩ := exists_of_mem_layout hrow
  rw [Row.cells_moveTo, Row.cells_placeAt] at hcell
  obtain ⟨source, hsource, rfl⟩ := List.mem_map.1 hcell
  exact h original horiginal source hsource

theorem written_expand {t t' : Sheet} (ht : ∀ row ∈ t.rows, ∀ cell ∈ row.cells, cell.Written)
    (h : t.expand = .ok t') : ∀ row ∈ t'.rows, ∀ cell ∈ row.cells, cell.Written := by
  rw [eq_of_expand h]
  exact written_layout ht

/-! ## Bound variables -/

theorem bindable_bindCell {s : Scope} (hs : s.Holds Scope.Bindable) (id : String)
    (address : Address) (rows : Option RowRange) :
    (s.bindCell id address rows).Holds Scope.Bindable :=
  hs.defineVariable id (.inr ⟨address, rows, rfl⟩)

theorem bindable_bindRow {s : Scope} (hs : s.Holds Scope.Bindable) (row : Row) :
    (Row.bind s row).Holds Scope.Bindable := by
  unfold Row.bind
  split
  next =>
    refine List.foldlRecOn (motive := Scope.Holds Scope.Bindable) _ _ ?_ fun s hs cell _ => ?_
    · split
      next => exact bindable_bindCell hs _ _ _
      next => exact hs
    · split
      next => exact bindable_bindCell hs _ _ _
      next => exact hs
  next => exact hs

theorem functions_bindRow (s : Scope) (row : Row) : (Row.bind s row).functions = s.functions := by
  unfold Row.bind
  split
  next =>
    refine List.foldlRecOn (motive := fun s' : Scope => s'.functions = s.functions) _ _ ?_
      fun s' hs' cell _ => ?_
    · split <;> rfl
    · split <;> exact hs'
  next => rfl

theorem bind_spec {t t' : Sheet} {s s' : Scope} (h : t.bind s = .ok (t', s')) :
    t'.rows = t.rows ∧ s' = t.rows.foldl Row.bind s := by
  unfold Sheet.bind at h
  split at h
  next => cases h
  next =>
    cases h
    exact ⟨rfl, rfl⟩

/-! ## Resolved sheets -/

theorem exists_of_resolve {t t' : Sheet} {s : Scope} {cell : Cell}
    (h : t.resolve s = (t', none)) (hcell : cell ∈ t'.cells) :
    ∃ row ∈ t.rows, ∃ source ∈ row.cells, resolveCell t.filename s source = .ok cell := by
  unfold Sheet.resolve at h
  split at h
  next => cases h
  next =>
    split at h
    next => cases h
    next rows hrows =>
      cases h
      obtain ⟨row, hrow, hcell⟩ := List.mem_flatMap.1 hcell
      obtain ⟨original, horiginal, hrow⟩ := exists_of_mapUntilError hrows row hrow
      cases hcells : mapUntilError (attemptCell t.filename s) original.cells with
      | mk cells failure =>
        unfold attemptRow at hrow
        rw [hcells] at hrow
        cases hrow
        obtain ⟨source, hsource, hcell⟩ := exists_of_mapUntilError hcells cell hcell
        refine ⟨original, horiginal, source, hsource, ?_⟩
        unfold attemptCell at hcell
        split at hcell
        next hok =>
          cases hcell
          exact hok
        next => cases hcell

theorem resolved_of_resolveCell {filename : String} {s : Scope} {source cell : Cell}
    (hs : s.Holds Scope.Bindable) (hsource : source.Written)
    (h : resolveCell filename s source = .ok cell) :
    ∀ f, cell.formula = some f → f.Resolved s cell.position := by
  intro f hf
  unfold resolveCell at h
  split at h
  next hnone =>
    cases h
    -- a cell without a formula is left as it is
    rw [hnone] at hf
    cases hf
  next g hg =>
    split at h
    next hresolve =>
      cases h
      cases hf
      exact Scope.resolved_of_resolve hs (hsource g hg) hresolve
    next => cases h

end Sheet

/-! ## Compiling -/

namespace Source

theorem written_buildScope {source : Source} {options : Options} {s : Scope}
    (h : source.buildScope options = .ok s) : s.Holds Formula.Written := by
  unfold buildScope at h
  split at h
  next => cases h
  next defined hdefined =>
    dsimp only at h
    split at h
    next hresolve =>
      cases h
      -- the definitions of the file come first, then the texts of the options over them
      refine Scope.Holds.resolveVariables ?_ hresolve
      refine List.foldlRecOn _ _ ?_ fun s hs entry _ => hs.defineVariable entry.1 (.literal rfl)
      unfold addDefinitions at hdefined
      split at hdefined
      next =>
        cases hdefined
        exact Scope.holds_empty
      next =>
        split at hdefined
        next hparse =>
          cases hdefined
          exact Scope.holds_empty.addDefinitions (Definitions.written_parse hparse)
        next => cases hdefined
    next => cases h

/-- The steps of compiling, each of which succeeds if all of it does. -/
theorem compile_steps {source : Source} {options : Options} {sheet : Sheet}
    (h : source.compile options = .ok sheet) :
    ∃ s parsed expanded bound s', source.buildScope options = .ok s ∧
      Sheet.read source options = .ok parsed ∧ parsed.expand = .ok expanded ∧
      expanded.bind s = .ok (bound, s') ∧ bound.resolve s' = (sheet, none) := by
  unfold compile at h
  split at h
  next => cases h
  next s hscope =>
    split at h
    next => cases h
    next parsed hread =>
      split at h
      next => cases h
      next expanded hexpand =>
        split at h
        next => cases h
        next bound s' hbind =>
          split at h
          next => cases h
          next resolved hresolve =>
            cases h
            exact ⟨s, parsed, expanded, bound, s', hscope, hread, hexpand, hbind, hresolve⟩

/-- Every formula of a compiled sheet is resolved, in the scope of the file, as seen from the
cell that it stands in. -/
theorem compile_resolved {source : Source} {options : Options} {sheet : Sheet}
    (h : source.compile options = .ok sheet) :
    ∃ s, source.buildScope options = .ok s ∧
      ∀ cell ∈ sheet.cells, ∀ f, cell.formula = some f → f.Resolved s cell.position := by
  obtain ⟨s, parsed, expanded, bound, s', hscope, hread, hexpand, hbind, hresolve⟩ :=
    compile_steps h
  obtain ⟨hrows, hbound⟩ := Sheet.bind_spec hbind
  -- binding adds cells to the values of the file and no functions
  have hvalues : s'.Holds Scope.Bindable := by
    rw [hbound]
    exact List.foldlRecOn _ _ ((written_buildScope hscope).mono fun _ => .inl)
      fun _ hs row _ => Sheet.bindable_bindRow hs row
  have hfunctions : s'.functions = s.functions := by
    rw [hbound]
    exact List.foldlRecOn (motive := fun s' : Scope => s'.functions = s.functions) _ _ rfl
      fun _ hs row _ => (Sheet.functions_bindRow _ row).trans hs
  refine ⟨s, hscope, fun cell hcell f hf => ?_⟩
  obtain ⟨row, hrow, source', hsource, hcell⟩ := Sheet.exists_of_resolve hresolve hcell
  have hwritten := Sheet.written_expand (Sheet.written_read hread) hexpand
  rw [hrows] at hrow
  exact (Sheet.resolved_of_resolveCell hvalues (hwritten row hrow source' hsource) hcell f
    hf).of_functions_eq hfunctions

end Source

/-! ## A row with two copies -/

theorem Modifier.readPairs_of_closed {row : Bool} {m m' : Modifier} {s rest : List Char}
    (h : Modifier.applyPair row m s = .ok (m', .closed rest)) :
    Modifier.readPairs row m s = .ok (m', rest) := by
  rw [Modifier.readPairs]
  split
  next heq =>
    rw [h] at heq
    cases heq
  next heq =>
    rw [h] at heq
    cases heq
    rfl
  next heq =>
    rw [h] at heq
    cases heq

namespace Source

/-- A file without definitions, of one row that is written twice and sums a cell of its own. -/
def repeatedSum : Source :=
  { filename := "sum.csvpp"
    definitions := none
    sheet := "![[expand=2]][[var=x]]1,=SUM(x)".toList
    sheetLine := 1 }

theorem resolveVariables_empty : ({} : Scope).resolveVariables = .ok {} := by
  have horder : (⟨.empty⟩ : DependencyGraph).topologicalOrder = .ok [] := by
    change DependencyGraph.visitAll _ [] [] [] = _
    rw [DependencyGraph.visitAll]
  have hgraph : DependencyGraph.ofVariables ({} : Scope).values = .ok ⟨.empty⟩ := rfl
  simp only [Scope.resolveVariables, hgraph, horder]
  rfl

theorem buildScope_of_no_definitions {source : Source} {options : Options}
    (hsource : source.definitions = none) (hoptions : options.keyValues = .empty) :
    source.buildScope options = .ok {} := by
  have hdefinitions : source.addDefinitions {} = .ok {} := by
    rw [addDefinitions, hsource]
  have hentries : options.keyValues.entries = [] := by
    rw [hoptions]
    rfl
  simp only [buildScope, hdefinitions, hentries, List.foldl_nil, resolveVariables_empty]

theorem parse_sum : Formula.parse "=SUM(x)" = .ok (.call .named "sum" [.name "x"]) := by
  have hname : Grammar.formula.ReadsWhole .identifier "x".toList :=
    Grammar.readsWhole_of_firstMatch? (by decide) (by decide)
  have hcall : Grammar.formula.ReadsWhole .identifier "SUM".toList :=
    Grammar.readsWhole_of_firstMatch? (by decide) (by decide)
  have hspells := spells_call hcall (spellsArguments id (fun s => .reference (String.ofList s))
    ["x".toList] fun s hs => by
      rw [List.mem_singleton] at hs
      exact hs ▸ (spells_name hname).weaken_to (Nat.zero_le _) (Nat.le_refl _))
  have hbody := parseBody_of_spells (hspells.weaken_to (Nat.zero_le _) (Nat.le_refl _))
  have htext : Text.trimStart "=SUM(x)".toList = '=' :: ("SUM".toList ++ '(' ::
      (joinChars [',', ' '] (List.map id ["x".toList]) ++ [')'])) := by decide
  have hlower : Text.lower "SUM" = "sum" ∧ Text.lower "x" = "x" := by decide
  unfold Formula.parse
  rw [htext]
  change Formula.parseBody _ = _
  rw [hbody, List.map_singleton, String.ofList_toList, String.ofList_toList, Formula.namedCall,
    Formula.reference, hlower.1, hlower.2]

theorem read_repeatedSum :
    Sheet.read repeatedSum {} =
      .ok { filename := "sum.csvpp", rowOffset := 0, rows :=
        [{ index := 0, line := 1, modifier := { expand := some { amount := some 2 } }, cells :=
          [{ column := 0, row := 0, line := 1, value := "1", modifier := { boundName := some "x" },
             formula := none },
           { column := 1, row := 0, line := 1, value := "=SUM(x)", modifier := {},
             formula := some (.call .named "sum" [.name "x"]) }] }] } := by
  have hrow : Modifier.readRowModifier true (Text.trimStart "![[expand=2]][[var=x]]1".toList) =
      .ok (some { expand := some { amount := some 2 } }, "[[var=x]]1".toList) := by
    have hpairs : Modifier.readPairs true {} "expand=2]][[var=x]]1".toList =
        .ok ({ expand := some { amount := some 2 } }, "[[var=x]]1".toList) :=
      Modifier.readPairs_of_closed rfl
    have htrim : Text.trimStart "![[expand=2]][[var=x]]1".toList =
        '!' :: '[' :: '[' :: "expand=2]][[var=x]]1".toList := rfl
    rw [htrim, Modifier.readRowModifier, if_pos rfl, hpairs]
    rfl
  have hcell : Modifier.readCellModifier {} "[[var=x]]1".toList =
      .ok ({ boundName := some "x" }, "1".toList) :=
    Modifier.readPairs_of_closed rfl
  have hdefaults : Modifier.cellDefaults { expand := some { amount := some 2 } } = {} := rfl
  have hfirst : ParsedCell.read "![[expand=2]][[var=x]]1".toList {} true =
      .ok ⟨some { expand := some { amount := some 2 } }, { boundName := some "x" }, "1".toList⟩ := by
    simp only [ParsedCell.read, hrow, hdefaults, hcell]
  have hformula : Cell.readFormula "=SUM(x)".toList =
      .ok (some (.call .named "sum" [.name "x"])) := by
    have htrim : Text.trimStart "=SUM(x)".toList = '=' :: "SUM(x)".toList := by decide
    unfold Cell.readFormula
    rw [htrim, String.ofList_toList, parse_sum]
    rfl
  have hsecond : ParsedCell.read "=SUM(x)".toList {} false =
      .ok ⟨none, {}, "=SUM(x)".toList⟩ := rfl
  have hrecords : Sheet.dropBlankEnd (Csv.records repeatedSum.sheet) =
      [⟨0, "![[expand=2]][[var=x]]1,=SUM(x)".toList⟩] := by decide
  have hfields : Csv.fields "![[expand=2]][[var=x]]1,=SUM(x)".toList =
      ["![[expand=2]][[var=x]]1".toList, "=SUM(x)".toList] := by decide
  have hplain : Cell.readFormula "1".toList = .ok none := rfl
  simp only [Sheet.read, hrecords, Sheet.readRows, hfields, Row.ofFields, Cell.read, hfirst,
    hplain, Option.getD_some, hdefaults, Row.readCells, hsecond, hformula, String.ofList_toList]
  rfl

/-- What both copies of the formula become: the sum of a cell that is bound to their rows. -/
def resolvedSum : Formula :=
  .call .named "sum" [.literal (.cell (.cell 0 0) (some { first := 0, last := some 1 }))]

theorem compile_repeatedSum :
    ∃ sheet, repeatedSum.compile {} = .ok sheet ∧
      sheet.cells.map (·.formula) = [none, some resolvedSum, none, some resolvedSum] := by
  unfold compile
  rw [buildScope_of_no_definitions rfl rfl, read_repeatedSum]
  exact ⟨_, rfl, rfl⟩

theorem compile_resolved_repeatedSum :
    ∃ sheet, repeatedSum.compile {} = .ok sheet ∧
      sheet.cells.map (·.formula) = [none, some resolvedSum, none, some resolvedSum] ∧
      ∃ s, repeatedSum.buildScope {} = .ok s ∧
        ∀ cell ∈ sheet.cells, ∀ f, cell.formula = some f → f.Resolved s cell.position := by
  obtain ⟨sheet, hcompile, hformulas⟩ := compile_repeatedSum
  exact ⟨sheet, hcompile, hformulas, compile_resolved hcompile⟩

end Source
end Spreadsheet
