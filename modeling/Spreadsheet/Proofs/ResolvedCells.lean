import Spreadsheet.Proofs.ResolutionSteps
import Spreadsheet.Sheet.Resolve

/-!
Doing something to each item of a list until it fails, as resolving does to the cells of a row and
to the rows of a sheet.
-/
namespace Spreadsheet

/-- The cell with its formula, if it has one, resolved. -/
def Cell.ResolvesTo (s : Scope) (c c' : Cell) : Prop :=
  c.formula = none ∧ c' = c ∨
    ∃ f g, c.formula = some f ∧ s.resolve c.position f = .ok g ∧ c' = { c with formula := some g }

/-- The row with the formulas of its cells resolved. -/
def Row.ResolvesTo (s : Scope) (r r' : Row) : Prop :=
  ∃ cells, r.cells.Forall₂ (Cell.ResolvesTo s) cells ∧ r' = { r with cells := cells }

namespace Sheet

/-! ## Runs up to a failure -/

/-- A run without a failure did `f` to every item. -/
theorem forall₂_of_mapUntilError {α ε : Type} {f : α → α × Option ε} {items done : List α}
    (h : mapUntilError f items = (done, none)) :
    items.Forall₂ (fun item item' => f item = (item', none)) done := by
  induction items generalizing done with
  | nil =>
    cases h
    exact .nil
  | cons item rest ih =>
    rw [mapUntilError] at h
    split at h
    next => cases h
    next item' hitem =>
      cases hmore : mapUntilError f rest with
      | mk more failure =>
        rw [hmore] at h
        cases h
        exact .cons hitem (ih hmore)

theorem exists_of_mapUntilError {α ε : Type} {f : α → α × Option ε} {items done : List α}
    (h : mapUntilError f items = (done, none)) :
    ∀ item ∈ done, ∃ source ∈ items, f source = (item, none) := by
  intro item hitem
  obtain ⟨source, hsource, hf⟩ := exists_of_mem_forall₂ (forall₂_of_mapUntilError h) hitem
  exact ⟨source, hsource, hf⟩

/-- A run with a failure did `f` to the items up to the one that failed. -/
theorem exists_of_mapUntilError_failure {α ε : Type} {f : α → α × Option ε} {items done : List α}
    {e : ε} (h : mapUntilError f items = (done, some e)) :
    ∃ before item after before' item', items = before ++ item :: after ∧
      f item = (item', some e) ∧ done = before' ++ item' :: after ∧
      before.Forall₂ (fun item item' => f item = (item', none)) before' := by
  induction items generalizing done with
  | nil => cases h
  | cons first rest ih =>
    rw [mapUntilError] at h
    split at h
    next first' e' hfirst =>
      cases h
      exact ⟨[], first, rest, [], first', rfl, hfirst, rfl, .nil⟩
    next first' hfirst =>
      cases hmore : mapUntilError f rest with
      | mk more failure =>
        rw [hmore] at h
        cases h
        obtain ⟨before, item, after, before', item', rfl, hitem, rfl, hbefore⟩ := ih hmore
        exact ⟨first :: before, item, after, first' :: before', item', rfl, hitem, rfl,
          .cons hfirst hbefore⟩

theorem exists_of_failure {α ε : Type} {f : α → α × Option ε} {items : List α} {e : ε}
    (h : (mapUntilError f items).2 = some e) : ∃ item ∈ items, (f item).2 = some e := by
  obtain ⟨before, item, after, _, _, rfl, hitem, _⟩ :=
    exists_of_mapUntilError_failure (Prod.ext rfl h)
  exact ⟨item, by simp, congrArg Prod.snd hitem⟩

/-- What changes nothing that `f` looks at can be done before or after. -/
theorem mapUntilError_map {α ε : Type} {f : α → α × Option ε} {k : α → α}
    (hk : ∀ item, f (k item) = (k (f item).1, (f item).2)) (items : List α) :
    mapUntilError f (items.map k) =
      ((mapUntilError f items).1.map k, (mapUntilError f items).2) := by
  induction items with
  | nil => rfl
  | cons item rest ih =>
    rw [List.map_cons, mapUntilError, mapUntilError, hk]
    obtain ⟨item', failure⟩ := f item
    cases failure with
    | some e => rfl
    | none =>
      dsimp only
      rw [ih]
      rfl

/-- A run over items that `f` leaves as they are. -/
theorem mapUntilError_eq_self {α ε : Type} {f : α → α × Option ε} {items : List α}
    (h : ∀ item ∈ items, f item = (item, none)) : mapUntilError f items = (items, none) := by
  induction items with
  | nil => rfl
  | cons item rest ih =>
    obtain ⟨hitem, hrest⟩ := List.forall_mem_cons.1 h
    rw [mapUntilError, hitem]
    dsimp only
    rw [ih hrest]

/-- What `f` leaves as it is of every item, a run over the items leaves as it is. -/
theorem map_mapUntilError {α β ε : Type} {f : α → α × Option ε} {k : α → β}
    (hk : ∀ item, k (f item).1 = k item) (items : List α) :
    (mapUntilError f items).1.map k = items.map k := by
  induction items with
  | nil => rfl
  | cons item rest ih =>
    have hitem := hk item
    rw [mapUntilError]
    split
    next first e hfirst =>
      rw [hfirst] at hitem
      rw [List.map_cons, List.map_cons, hitem]
    next first hfirst =>
      rw [hfirst] at hitem
      rw [List.map_cons, List.map_cons, hitem, ih]

/-- Whether doing `f` again to what it gave changes nothing and ends in the same way. -/
def Settles {α ε : Type} (f : α → α × Option ε) : Prop :=
  ∀ item, f (f item).1 = f item

theorem settles_mapUntilError {α ε : Type} {f : α → α × Option ε} (hf : Settles f) :
    Settles (mapUntilError f) := by
  intro items
  induction items with
  | nil => rfl
  | cons item rest ih =>
    have hitem := hf item
    cases hdone : f item with
    | mk item' failure =>
      rw [hdone] at hitem
      cases failure with
      | some e => simp only [mapUntilError, hdone, hitem]
      | none =>
        simp only [mapUntilError, hdone, hitem]
        rw [ih]

/-! ## Cells and rows -/

variable {filename : String} {s : Scope}

theorem resolvesTo_resolveCell {cell cell' : Cell}
    (h : resolveCell filename s cell = .ok cell') : cell.ResolvesTo s cell' := by
  unfold resolveCell at h
  split at h
  next hnone =>
    cases h
    exact .inl ⟨hnone, rfl⟩
  next f hf =>
    split at h
    next g hg =>
      cases h
      exact .inr ⟨f, g, hf, hg, rfl⟩
    next => cases h

theorem resolvesTo_attemptCell {cell cell' : Cell}
    (h : attemptCell filename s cell = (cell', none)) : cell.ResolvesTo s cell' := by
  unfold attemptCell at h
  split at h
  next hcell =>
    cases h
    exact resolvesTo_resolveCell hcell
  next => cases h

theorem failure_attemptCell {cell cell' : Cell} {e : CompileError}
    (h : attemptCell filename s cell = (cell', some e)) :
    cell' = cell ∧ ∃ f error, cell.formula = some f ∧ s.resolve cell.position f = .error error ∧
      e = .cell { filename := filename, line := cell.line, row := cell.row,
                  column := cell.column } error := by
  unfold attemptCell at h
  split at h
  next => cases h
  next herror =>
    cases h
    unfold resolveCell at herror
    split at herror
    next => cases herror
    next f hf =>
      split at herror
      next => cases herror
      next error hresolve =>
        cases herror
        exact ⟨rfl, f, error, hf, hresolve, rfl⟩

theorem resolvesTo_attemptRow {row row' : Row}
    (h : attemptRow filename s row = (row', none)) : row.ResolvesTo s row' := by
  cases hcells : mapUntilError (attemptCell filename s) row.cells with
  | mk cells failure =>
    simp only [attemptRow, hcells, Prod.mk.injEq] at h
    obtain ⟨rfl, rfl⟩ := h
    exact ⟨cells, (forall₂_of_mapUntilError hcells).imp fun _ _ => resolvesTo_attemptCell, rfl⟩

end Sheet
end Spreadsheet
