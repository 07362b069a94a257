import Spreadsheet.Compile
import Spreadsheet.Proofs.ResolvedCells
import Spreadsheet.Proofs.SheetLayout

/-!
Repeating a row is writing it out by hand. Main statement: a sheet whose repeated rows bind no
variables and the sheet with their copies written one below the other come to the same cells, or
fail with the same error at the same cell.
-/
namespace Spreadsheet

namespace Row

/-- The row as a single one. -/
def once (r : Row) : Row :=
  { r with modifier := { r.modifier with expand := none } }

/-- Neither the row nor one of its cells binds a variable. -/
def BindsNothing (r : Row) : Prop :=
  r.modifier.boundName = none ∧ ∀ cell ∈ r.cells, cell.modifier.boundName = none

theorem once_placeAt (fill first : Nat) (r : Row) : (r.placeAt fill first).once = r.once := by
  unfold placeAt
  split <;> rfl

theorem once_of_expand_eq_none {r : Row} (h : r.modifier.expand = none) : r.once = r := by
  rw [once, ← h]

theorem block_once (fill first : Nat) (r : Row) :
    (r.block fill first).map once =
      (List.range (r.height fill)).map fun copy => r.once.moveTo (first + copy) := by
  rw [block, List.map_map]
  apply List.map_congr_left
  intro copy _
  change (r.placeAt fill first).once.moveTo (first + copy) = _
  rw [once_placeAt]

theorem bind_of_bindsNothing (s : Scope) {r : Row} (h : r.BindsNothing) : r.bind s = s := by
  unfold Row.bind
  rw [h.1]
  split
  next =>
    refine List.foldlRecOn (motive := (· = s)) _ _ rfl fun s' hs' cell hcell => ?_
    rw [h.2 cell hcell]
    exact hs'
  next => rfl

theorem bind_once (s : Scope) {r : Row} (h : r.modifier.expand ≠ none → r.BindsNothing) :
    r.once.bind s = r.bind s := by
  by_cases hexpand : r.modifier.expand = none
  · rw [once_of_expand_eq_none hexpand]
  · have honce : r.once.BindsNothing := h hexpand
    rw [bind_of_bindsNothing s honce, bind_of_bindsNothing s (h hexpand)]

end Row

namespace Sheet

/-- The sheet with each row written as often as it is repeated. -/
def writtenOut (t : Sheet) : Sheet :=
  { t with rows := t.rows.flatMap fun row => List.replicate (row.height t.fillAmount) row.once }

/-- Expands a sheet, binds its variables and resolves it. -/
def finish (t : Sheet) (s : Scope) : Except CompileError Sheet :=
  match t.expand with
  | .error e => .error e
  | .ok t =>
    match t.bind s with
    | .error e => .error e
    | .ok (t, s) =>
      match t.resolve s with
      | (_, some e) => .error e
      | (t, none) => .ok t

/-- This is what compiling does to the sheet that it reads. -/
theorem compile_eq_finish (source : Source) (options : Options) :
    source.compile options =
      match source.buildScope options with
      | .error e => .error e
      | .ok s =>
        match Sheet.read source options with
        | .error e => .error e
        | .ok t => t.finish s :=
  rfl

/-! ## Layout -/

theorem layout_replicate (fill next n : Nat) {r : Row} (rest : List Row)
    (h : r.modifier.expand = none) :
    layout fill next (List.replicate n r ++ rest) =
      ((List.range n).map fun copy => r.moveTo (next + copy)) ++ layout fill (next + n) rest := by
  induction n generalizing next with
  | zero => rfl
  | succ n ih =>
    have hshift : (List.range n).map (fun copy => r.moveTo (next + 1 + copy)) =
        ((List.range n).map Nat.succ).map fun copy => r.moveTo (next + copy) := by
      rw [List.map_map]
      apply List.map_congr_left
      intro copy _
      rw [Function.comp, Nat.add_right_comm, Nat.add_assoc]
    rw [List.replicate_succ, List.cons_append, layout, h]
    dsimp only
    rw [ih, hshift, List.range_succ_eq_map, List.map_cons, List.cons_append, Nat.add_right_comm]
    rfl

/-- Copies written out stand where the copies of the repeated row stand. -/
theorem layout_writtenOut (fill fill' next : Nat) (rows : List Row) :
    layout fill' next (rows.flatMap fun row => List.replicate (row.height fill) row.once) =
      (layout fill next rows).map Row.once := by
  induction rows generalizing next with
  | nil => rfl
  | cons row rest ih =>
    rw [List.flatMap_cons, layout_replicate _ _ _ _ rfl, layout_cons, List.map_append,
      Row.block_once, ih]

theorem expand_of_unbounded {t : Sheet} (hphase : t.phase = .parsed)
    (hunbounded : (t.rows.filter Row.isUnbounded).length ≤ 1) :
    t.expand =
      .ok { t with rows := layout t.fillAmount t.rowOffset t.rows, phase := .expanded } := by
  have hrequire : t.requirePhase .parsed "expand" = .ok () := by
    rw [requirePhase, if_pos hphase]
  have hcheck : t.checkUnbounded = .ok () := by
    unfold checkUnbounded
    split
    next heq =>
      rw [heq] at hunbounded
      simp only [List.length_cons] at hunbounded
      omega
    next => rfl
  rw [Sheet.expand, hrequire]
  dsimp only
  rw [hcheck]

theorem expand_writtenOut {t : Sheet} (hphase : t.phase = .parsed) :
    t.writtenOut.expand =
      .ok { t with rows := (layout t.fillAmount t.rowOffset t.rows).map Row.once,
                   phase := .expanded } := by
  -- no row of the second sheet is repeated, so that how much fills it does not matter
  have hsingle : t.writtenOut.rows.filter Row.isUnbounded = [] := by
    rw [List.filter_eq_nil_iff]
    intro row hrow
    obtain ⟨original, -, hcopy⟩ := List.mem_flatMap.1 hrow
    rw [List.eq_of_mem_replicate hcopy]
    exact Bool.false_ne_true
  rw [expand_of_unbounded (t := t.writtenOut) hphase (by rw [hsingle]; decide)]
  congr 2
  exact layout_writtenOut t.fillAmount t.writtenOut.fillAmount t.rowOffset t.rows

/-! ## Binding -/

theorem bindsNothing_of_mem_layout {fill next : Nat} {rows : List Row} {row : Row}
    (hbinds : ∀ row ∈ rows, row.modifier.expand ≠ none → row.BindsNothing)
    (hrow : row ∈ layout fill next rows) (hexpand : row.modifier.expand ≠ none) :
    row.BindsNothing := by
  obtain ⟨original, horiginal, first, copy, rfl⟩ := exists_of_mem_layout hrow
  have hrepeated : original.modifier.expand ≠ none := by
    intro hnone
    apply hexpand
    change (original.placeAt fill first).modifier.expand = none
    unfold Row.placeAt
    rw [hnone]
    exact hnone
  obtain ⟨hname, hcells⟩ := hbinds original horiginal hrepeated
  constructor
  · change (original.placeAt fill first).modifier.boundName = none
    rw [Row.boundName_placeAt]
    exact hname
  · intro cell hcell
    rw [Row.cells_moveTo, Row.cells_placeAt] at hcell
    obtain ⟨source, hsource, rfl⟩ := List.mem_map.1 hcell
    exact hcells source hsource

theorem foldl_bind_once {rows : List Row} (s : Scope)
    (hbinds : ∀ row ∈ rows, row.modifier.expand ≠ none → row.BindsNothing) :
    (rows.map Row.once).foldl Row.bind s = rows.foldl Row.bind s := by
  induction rows generalizing s with
  | nil => rfl
  | cons row rest ih =>
    rw [List.map_cons, List.foldl_cons, List.foldl_cons,
      Row.bind_once s (hbinds row List.mem_cons_self)]
    exact ih _ fun other hother => hbinds other (List.mem_cons_of_mem row hother)

/-! ## Resolving -/

/-- Resolving fails only in a cell. -/
theorem attemptRow_failure {filename : String} {s : Scope} {row : Row} {e : CompileError}
    (h : (attemptRow filename s row).2 = some e) : ∃ place error, e = .cell place error := by
  obtain ⟨cell, -, hcell⟩ := exists_of_failure h
  obtain ⟨-, f, error, -, -, rfl⟩ := failure_attemptCell (Prod.ext rfl hcell)
  exact ⟨_, error, rfl⟩

theorem finish_of_expand {t t' : Sheet} (s : Scope) (h : t.expand = .ok t')
    (hphase : t'.phase = .expanded) :
    t.finish s =
      match mapUntilError (attemptRow t'.filename (t'.rows.foldl Row.bind s)) t'.rows with
      | (_, some e) => .error e
      | (rows, none) => .ok { t' with rows := rows, phase := .resolved } := by
  have hrequire : t'.requirePhase .expanded "bind variables of" = .ok () := by
    rw [requirePhase, if_pos hphase]
  have hresolve : (Sheet.mk t'.filename t'.rows .bound t'.rowOffset).requirePhase .bound
      "resolve" = .ok () :=
    rfl
  rw [finish, h]
  dsimp only
  rw [Sheet.bind, hrequire]
  dsimp only
  rw [Sheet.resolve, hresolve]
  dsimp only
  obtain ⟨rows, failure⟩ :=
    mapUntilError (attemptRow t'.filename (t'.rows.foldl Row.bind s)) t'.rows
  cases failure <;> rfl

end Sheet

/-- What there is to see of a cell: where it stands, its formula and its text. -/
def Cell.view (c : Cell) : Nat × Nat × Nat × Option Formula × String :=
  (c.column, c.row, c.line, c.formula, c.text)

/-- What there is to see of a row. -/
def Row.view (r : Row) : Nat × Nat × List (Nat × Nat × Nat × Option Formula × String) :=
  (r.index, r.line, r.cells.map Cell.view)

namespace Sheet

/-- A sheet whose repeated rows bind nothing comes to what it comes to when they are written
out. -/
theorem finish_writtenOut {t : Sheet} (hphase : t.phase = .parsed)
    (hunbounded : (t.rows.filter Row.isUnbounded).length ≤ 1)
    (hbinds : ∀ row ∈ t.rows, row.modifier.expand ≠ none → row.BindsNothing) (s : Scope) :
    (∃ repeated written, t.finish s = .ok repeated ∧ t.writtenOut.finish s = .ok written ∧
      repeated.rows.map Row.view = written.rows.map Row.view) ∨
    ∃ place e, t.finish s = .error (.cell place e) ∧
      t.writtenOut.finish s = .error (.cell place e) := by
  have hrepeated := finish_of_expand s (expand_of_unbounded hphase hunbounded) rfl
  have hwritten := finish_of_expand s (expand_writtenOut hphase) rfl
  dsimp only at hrepeated hwritten
  -- both resolve in the same scope, and `once` touches nothing that resolving a row looks at, so
  -- that the second run is the image of the first
  rw [foldl_bind_once s fun row => bindsNothing_of_mem_layout hbinds,
    mapUntilError_map fun _ => rfl] at hwritten
  cases houtcome : mapUntilError (attemptRow t.filename ((layout t.fillAmount t.rowOffset
      t.rows).foldl Row.bind s)) (layout t.fillAmount t.rowOffset t.rows) with
  | mk rows failure =>
    rw [houtcome] at hrepeated hwritten
    cases failure with
    | none =>
      refine .inl ⟨_, _, hrepeated, hwritten, ?_⟩
      rw [List.map_map]
      rfl
    | some e =>
      obtain ⟨row, -, hrow⟩ := exists_of_failure (congrArg Prod.snd houtcome)
      obtain ⟨place, error, rfl⟩ := attemptRow_failure hrow
      exact .inr ⟨place, error, hrepeated, hwritten⟩

/-- A formula with three copies, and below them a row that fills the sheet and one that binds the
variable of the formula. -/
def threeCopies : Sheet :=
  { filename := "copies.csvpp", rowOffset := 0, rows :=
    [{ index := 0, line := 1, modifier := { expand := some { amount := some 3 } }, cells :=
        [{ column := 0, row := 0, line := 1, value := "=SUM(x)", modifier := {},
           formula := some (.call .named "sum" [.name "x"]) }] },
      { index := 1, line := 2, modifier := { expand := some { amount := none } }, cells := [] },
      { index := 2, line := 3, modifier := {}, cells :=
        [{ column := 0, row := 2, line := 3, value := "1", modifier := { boundName := some "x" },
           formula := none }] }] }

theorem finish_writtenOut_threeCopies :
    threeCopies.phase = .parsed ∧ (threeCopies.rows.filter Row.isUnbounded).length ≤ 1 ∧
    (∀ row ∈ threeCopies.rows, row.modifier.expand ≠ none → row.BindsNothing) ∧
    ((∃ repeated written, threeCopies.finish {} = .ok repeated ∧
        threeCopies.writtenOut.finish {} = .ok written ∧
        repeated.rows.map Row.view = written.rows.map Row.view) ∨
      ∃ place e, threeCopies.finish {} = .error (.cell place e) ∧
        threeCopies.writtenOut.finish {} = .error (.cell place e)) := by
  have hbinds : ∀ row ∈ threeCopies.rows, row.modifier.expand ≠ none → row.BindsNothing := by
    intro row hrow hexpand
    simp only [threeCopies, List.mem_cons, List.not_mem_nil, or_false] at hrow
    rcases hrow with rfl | rfl | rfl
    · exact ⟨rfl, by simp⟩
    · exact ⟨rfl, by simp⟩
    · exact absurd rfl hexpand
  exact ⟨rfl, by decide, hbinds, finish_writtenOut rfl (by decide) hbinds {}⟩

end Sheet
end Spreadsheet
