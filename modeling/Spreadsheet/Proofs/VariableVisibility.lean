import Spreadsheet.Proofs.SheetLayout
import Spreadsheet.Sheet.Resolve

/-!
Where the variables of a sheet can be seen. Main statement: after binding, a variable is what the
last place that binds it says, on all rows or, inside a repeated row, on the rows of its copies,
where each copy sees its own cell.
-/
namespace Spreadsheet

open Text

/-- A place that binds a variable: a cell, or a row as a whole. -/
structure Binder where
  name : String
  column : Option Nat
  /-- The row, which is the first copy inside a repeated row. -/
  row : Nat
  /-- The rows of the copies inside a repeated row. -/
  rows : Option RowRange

namespace Binder

/-- The place itself. -/
def address (b : Binder) : Address :=
  match b.column with
  | some column => .cell column b.row
  | none => .row b.row

def bind (s : Scope) (b : Binder) : Scope :=
  s.bindCell b.name b.address b.rows

end Binder

/-- The places in a row that bind variables, the row itself first. -/
def Row.binders (first : Nat) (r : Row) : List Binder :=
  (r.modifier.boundName.map fun name =>
    { name := name, column := none, row := first, rows := r.span? first }).toList ++
  r.cells.filterMap fun cell => cell.modifier.boundName.map fun name =>
    { name := name, column := some cell.column, row := first, rows := r.span? first }

namespace Sheet

/-- Each row with the index of its first copy in the expanded sheet. -/
def placed (t : Sheet) : List (Nat × Row) :=
  placements t.fillAmount t.rowOffset t.rows

/-- The places that bind variables, row by row; a repeated row counts once, unless it has no
copies. -/
def binders (t : Sheet) : List Binder :=
  (t.placed.filter fun (_, row) => row.height t.fillAmount != 0).flatMap fun (first, row) =>
    row.binders first

/-- The last place that binds the variable. -/
def lastBinder? (t : Sheet) (id : String) : Option Binder :=
  t.binders.reverse.find? fun b => lower b.name == lower id

end Sheet

/-! ## What a row binds -/

namespace Row

theorem binds_first_copy (fill first : Nat) (r : Row) :
    ((r.placeAt fill first).moveTo first).binds = true := by
  unfold binds placeAt moveTo
  cases hexpand : r.modifier.expand with
  | none =>
    dsimp only
    rw [hexpand]
  | some expand => exact beq_self_eq_true (some first)

theorem not_binds_later_copy {fill first copy : Nat} {r : Row}
    (hexpand : r.modifier.expand ≠ none) (hcopy : 0 < copy) :
    ((r.placeAt fill first).moveTo (first + copy)).binds = false := by
  obtain ⟨expand, hsome⟩ := Option.ne_none_iff_exists'.1 hexpand
  unfold binds placeAt moveTo
  rw [hsome]
  change (some first == some (first + copy)) = false
  rw [beq_eq_false_iff_ne, ne_eq, Option.some.injEq]
  omega

/-- A placed row knows the rows of its copies. -/
theorem rows_placeAt (fill first : Nat) (r : Row) :
    (r.placeAt fill first).modifier.expand.bind Expand.rows? = r.span? first := by
  unfold placeAt span?
  cases hexpand : r.modifier.expand with
  | none =>
    dsimp only
    rw [hexpand]
    rfl
  | some expand =>
    obtain ⟨amount, placed⟩ := expand
    cases amount <;> rfl

/-- The first copy binds what the row says. -/
theorem bind_first_copy (s : Scope) (fill first : Nat) (r : Row) :
    Row.bind s ((r.placeAt fill first).moveTo first) = (r.binders first).foldl Binder.bind s := by
  have hrow : ((r.placeAt fill first).moveTo first).modifier = (r.placeAt fill first).modifier :=
    rfl
  rw [Row.bind, if_pos (binds_first_copy fill first r), hrow, rows_placeAt, boundName_placeAt,
    cells_moveTo, cells_placeAt, binders, List.foldl_append, List.foldl_map,
    List.foldl_filterMap]
  congr 1
  · funext s cell
    cases cell.modifier.boundName <;> rfl
  · cases r.modifier.boundName <;> rfl

/-- A row with its copies binds what the row says, once. -/
theorem foldl_bind_block (s : Scope) (fill first : Nat) (r : Row) :
    (r.block fill first).foldl Row.bind s =
      if r.height fill = 0 then s else (r.binders first).foldl Binder.bind s := by
  unfold block
  cases hheight : r.height fill with
  | zero => rfl
  | succ n =>
    -- the copies below the first know that they are not the first and bind nothing
    have hlater : ∀ s, ∀ copy ∈ (List.range n).map Nat.succ,
        Row.bind s ((r.placeAt fill first).moveTo (first + copy)) = s := by
      intro s copy hcopy
      obtain ⟨m, hm, rfl⟩ := List.mem_map.1 hcopy
      rw [List.mem_range] at hm
      have hexpand : r.modifier.expand ≠ none := by
        intro hnone
        rw [height, hnone] at hheight
        cases hheight
        omega
      rw [Row.bind, not_binds_later_copy hexpand (Nat.succ_pos m)]
      rfl
    rw [List.range_succ_eq_map, List.map_cons, List.foldl_cons, Nat.add_zero, bind_first_copy,
      if_neg (Nat.succ_ne_zero n), List.foldl_map]
    exact List.foldlRecOn (motive := (· = (r.binders first).foldl Binder.bind s)) _ _ rfl
      fun s' hs' copy hcopy => (hlater s' copy hcopy).trans hs'

end Row

namespace Sheet

/-- Binding the expanded rows one after another binds at each binder once. -/
theorem foldl_bind_layout (s : Scope) (fill next : Nat) (rows : List Row) :
    (layout fill next rows).foldl Row.bind s =
      (((placements fill next rows).filter fun (_, row) => row.height fill != 0).flatMap
        fun (first, row) => row.binders first).foldl Binder.bind s := by
  induction rows generalizing s next with
  | nil => rfl
  | cons row rest ih =>
    rw [layout_cons, List.foldl_append, Row.foldl_bind_block, ih, placements, List.filter_cons]
    by_cases hheight : row.height fill = 0
    · rw [if_pos hheight, if_neg (by simp [hheight])]
    · rw [if_neg hheight, if_pos (bne_iff_ne.2 hheight), List.flatMap_cons, List.foldl_append]

theorem rows_expanded {t t' : Sheet} (h : t.expand = .ok t') :
    t'.rows = t.placed.flatMap fun (first, row) => row.block t.fillAmount first := by
  rw [eq_of_expand h]
  exact layout_eq_flatMap _ _ _

theorem bind_expanded {t t' : Sheet} (h : t.expand = .ok t') (s : Scope) :
    t'.bind s = .ok ({ t' with phase := .bound }, t.binders.foldl Binder.bind s) := by
  rw [eq_of_expand h, binders, placed, ← foldl_bind_layout]
  rfl

end Sheet

/-! ## Looking variables up -/

namespace Scope

theorem get?_bind (s : Scope) (binders : List Binder) (id : String) :
    (binders.foldl Binder.bind s).values.get? (lower id) =
      ((binders.reverse.find? fun b => lower b.name == lower id).map fun b =>
        .literal (.cell b.address b.rows)).or (s.values.get? (lower id)) := by
  have hvalues : (binders.foldl Binder.bind s).values =
      binders.foldl (fun d b => d.insert (lower b.name) (.literal (.cell b.address b.rows)))
        s.values := by
    induction binders generalizing s with
    | nil => rfl
    | cons b rest ih => exact ih (Binder.bind s b)
  rw [hvalues, Dictionary.get?_foldl_insert]

variable {s s' : Scope} {id : String}

theorem lookupVariable_congr (p : Position)
    (h : s'.values.get? (lower id) = s.values.get? (lower id)) :
    s'.lookupVariable id p = s.lookupVariable id p := by
  unfold lookupVariable
  dsimp only
  rw [h]

theorem lookupVariable_unscoped {a : Address} (p : Position)
    (h : s.values.get? (lower id) = some (.literal (.cell a none))) :
    s.lookupVariable id p = .ok (.literal (.cell a none)) := by
  unfold lookupVariable
  dsimp only
  rw [h]
  rfl

theorem lookupVariable_scoped {a : Address} {rows : RowRange} (p : Position)
    (h : s.values.get? (lower id) = some (.literal (.cell a (some rows)))) :
    s.lookupVariable id p =
      if rows.contains p.row then .ok (.literal (.cell a (some rows)))
      else .error (.outOfScope (lower id) rows p.row) := by
  unfold lookupVariable
  dsimp only
  rw [h]
  rfl

theorem isInScope_iff (p : Position) :
    s.isInScope id p = true ↔ ∃ value, s.lookupVariable id p = .ok value := by
  unfold isInScope lookupVariable
  dsimp only
  cases s.values.get? (lower id) with
  | some value =>
    dsimp only
    cases value.visibleRows? with
    | none => exact ⟨fun _ => ⟨value, rfl⟩, fun _ => rfl⟩
    | some rows =>
      dsimp only
      cases rows.contains p.row with
      | true => exact ⟨fun _ => ⟨value, rfl⟩, fun _ => rfl⟩
      | false => exact ⟨fun h => (nomatch h), fun ⟨_, h⟩ => (nomatch h)⟩
  | none =>
    dsimp only
    cases BuiltinVariable.named? (lower id) with
    | some v => exact ⟨fun _ => ⟨_, rfl⟩, fun _ => rfl⟩
    | none => exact ⟨fun h => (nomatch h), fun ⟨_, h⟩ => (nomatch h)⟩

end Scope

theorem RowRange.contains_iff (r : RowRange) (row : Nat) :
    r.contains row = true ↔ r.first ≤ row ∧ ∀ last, r.last = some last → row ≤ last := by
  obtain ⟨first, last⟩ := r
  cases last <;> simp [RowRange.contains]

namespace Binder

/-- Looked at from a row of a repeated row's copies, the place is in that row. -/
theorem renderChars_seen (b : Binder) (rows : RowRange) (p : Position) :
    Formula.renderChars p (.literal (.cell b.address (some rows))) =
      (b.column.map Column.letters).getD [] ++ decimal (p.row + 1) := by
  change (b.address.withRow p.row).renderChars = _
  unfold address
  cases b.column with
  | none => exact List.append_nil _
  | some column => exact List.append_nil _

/-- What looking up a variable gives that is bound inside a repeated row: the column of the place
in the row that it is looked at from, and an error on rows without a copy. -/
structure SeenInside (b : Binder) (rows : RowRange) (s : Scope) (id : String) (p : Position) :
    Prop where
  found : (∃ value, s.lookupVariable id p = .ok value) ↔
    rows.first ≤ p.row ∧ ∀ last, rows.last = some last → p.row ≤ last
  text : ∀ value, s.lookupVariable id p = .ok value →
    value.renderChars p = (b.column.map Column.letters).getD [] ++ decimal (p.row + 1)
  missing : ¬(rows.first ≤ p.row ∧ ∀ last, rows.last = some last → p.row ≤ last) →
    s.lookupVariable id p = .error (.outOfScope (lower id) rows p.row)

theorem seenInside {b : Binder} {rows : RowRange} {s : Scope} {id : String} {p : Position}
    (h : s.values.get? (lower id) = some (.literal (.cell b.address (some rows)))) :
    b.SeenInside rows s id p := by
  have hlookup := Scope.lookupVariable_scoped p h
  by_cases hrow : rows.contains p.row = true
  · rw [if_pos hrow] at hlookup
    have hrange := (rows.contains_iff p.row).1 hrow
    refine ⟨⟨fun _ => hrange, fun _ => ⟨_, hlookup⟩⟩, fun value hvalue => ?_, fun hnot => ?_⟩
    · rw [hlookup] at hvalue
      cases hvalue
      exact b.renderChars_seen rows p
    · exact absurd hrange hnot
  · rw [if_neg hrow] at hlookup
    have hrange : ¬_ := fun hin => hrow ((rows.contains_iff p.row).2 hin)
    refine ⟨⟨fun ⟨value, hvalue⟩ => ?_, fun hin => absurd hin hrange⟩, fun value hvalue => ?_,
      fun _ => hlookup⟩
    · rw [hlookup] at hvalue
      cases hvalue
    · rw [hlookup] at hvalue
      cases hvalue

end Binder

namespace Sheet

/-- After binding, each variable is what the last place that binds it says. -/
theorem bind_visibility {t t' : Sheet} (h : t.expand = .ok t') (s : Scope) :
    t'.rows = (t.placed.flatMap fun (first, row) => row.block t.fillAmount first) ∧
    ∃ t'' s', t'.bind s = .ok (t'', s') ∧ ∀ id p,
      (t.lastBinder? id = none → s'.lookupVariable id p = s.lookupVariable id p) ∧
      (∀ b, t.lastBinder? id = some b → b.rows = none →
        s'.lookupVariable id p = .ok (.literal (.cell b.address none))) ∧
      (∀ b rows, t.lastBinder? id = some b → b.rows = some rows → b.SeenInside rows s' id p) ∧
      (s'.isInScope id p = true ↔ ∃ value, s'.lookupVariable id p = .ok value) := by
  refine ⟨rows_expanded h, _, _, bind_expanded h s, fun id p => ?_⟩
  have hget := Scope.get?_bind s t.binders id
  refine ⟨fun hnone => ?_, fun b hlast hrows => ?_, fun b rows hlast hrows => ?_,
    Scope.isInScope_iff p⟩
  · apply Scope.lookupVariable_congr
    rw [hget, ← lastBinder?, hnone, Option.map_none, Option.none_or]
  · rw [← lastBinder?, hlast, Option.map_some, hrows] at hget
    exact Scope.lookupVariable_unscoped p hget
  · rw [← lastBinder?, hlast, Option.map_some, hrows] at hget
    exact Binder.seenInside hget

/-- A row with two copies that binds `X`, and a row below it that binds a variable itself. -/
def twoCopies : Sheet :=
  { filename := "copies.csvpp", rowOffset := 0, rows :=
    [{ index := 0, line := 1, modifier := { expand := some { amount := some 2 } }, cells :=
        [{ column := 3, row := 0, line := 1, value := "1", modifier := { boundName := some "X" },
           formula := none }] },
      { index := 1, line := 2, modifier := { boundName := some "total" }, cells := [] }] }

theorem bind_visibility_twoCopies :
    ∃ t', twoCopies.expand = .ok t' ∧ ∃ t'' s', t'.bind {} = .ok (t'', s') ∧
      (∃ value, s'.lookupVariable "x" { row := 1 } = .ok value ∧
        value.renderChars { row := 1 } = Column.letters 3 ++ decimal 2) ∧
      s'.lookupVariable "x" { row := 2 } =
        .error (.outOfScope "x" { first := 0, last := some 1 } 2) ∧
      s'.lookupVariable "Total" { row := 0 } = .ok (.literal (.cell (.row 2) none)) ∧
      s'.lookupVariable "y" {} = Scope.lookupVariable {} "y" {} := by
  refine ⟨_, rfl, ?_⟩
  obtain ⟨-, t'', s', hbind, hall⟩ := bind_visibility (t := twoCopies) rfl {}
  have hseen := fun p => (hall "x" p).2.2.1 _ _ rfl rfl
  obtain ⟨value, hvalue⟩ := (hseen { row := 1 }).found.2 (by decide)
  exact ⟨t'', s', hbind, ⟨value, hvalue, (hseen { row := 1 }).text value hvalue⟩,
    (hseen { row := 2 }).missing (by decide), (hall "Total" { row := 0 }).2.1 _ rfl rfl,
    (hall "y" {}).1 rfl⟩

end Sheet
end Spreadsheet
