import Spreadsheet.Sheet.Expand

/-!
Where the rows of a sheet come to stand. Each row of the source is placed below the copies of those
before it and takes up as many rows as it has copies.
-/
namespace Spreadsheet

namespace Row

/-- How many rows a row takes up; one that fills the sheet takes up `fill`. -/
def height (fill : Nat) (r : Row) : Nat :=
  match r.modifier.expand with
  | none => 1
  | some expand => expand.amount.getD fill

/-- The rows that the copies of a repeated row take up when the first of them is `first`. Those of
a row without an amount have no end. -/
def span? (first : Nat) (r : Row) : Option RowRange :=
  r.modifier.expand.map fun expand =>
    { first := first, last := expand.amount.map fun amount => first + amount - 1 }

/-- The row with its copies known to it. -/
def placeAt (fill first : Nat) (r : Row) : Row :=
  match r.modifier.expand with
  | none => r
  | some expand =>
    let last := first + expand.amount.getD fill - 1
    let placed : Expand := { expand with placed := some (first, last) }
    { r with modifier := { r.modifier with expand := some placed } }

/-- What stands in the place of a row when its first copy is `first`. -/
def block (fill first : Nat) (r : Row) : List Row :=
  (List.range (r.height fill)).map fun copy => (r.placeAt fill first).moveTo (first + copy)

end Row

namespace Sheet

/-- Each row with the index of its first copy. -/
def placements (fill : Nat) : (next : Nat) → List Row → List (Nat × Row)
  | _, [] => []
  | next, row :: rest => (next, row) :: placements fill (next + row.height fill) rest

theorem layout_cons (fill next : Nat) (row : Row) (rest : List Row) :
    layout fill next (row :: rest) =
      row.block fill next ++ layout fill (next + row.height fill) rest := by
  rw [layout]
  unfold Row.block Row.height Row.placeAt
  cases row.modifier.expand with
  | none => rfl
  | some expand => rfl

/-- A sheet with its copies is made of the blocks of its rows. -/
theorem layout_eq_flatMap (fill next : Nat) (rows : List Row) :
    layout fill next rows =
      (placements fill next rows).flatMap fun (first, row) => row.block fill first := by
  induction rows generalizing next with
  | nil => rfl
  | cons row rest ih => rw [layout_cons, placements, List.flatMap_cons, ih]

theorem mem_of_mem_placements {fill next first : Nat} {rows : List Row} {row : Row}
    (h : (first, row) ∈ placements fill next rows) : row ∈ rows := by
  induction rows generalizing next with
  | nil => cases h
  | cons other rest ih =>
    rw [placements, List.mem_cons] at h
    cases h with
    | inl heq =>
      cases heq
      exact List.mem_cons_self
    | inr hmem => exact List.mem_cons_of_mem other (ih hmem)

/-- The copies of a row differ from it in their index and in where they are placed. -/
theorem exists_of_mem_layout {fill next : Nat} {rows : List Row} {row : Row}
    (h : row ∈ layout fill next rows) :
    ∃ original ∈ rows, ∃ first copy, row = (original.placeAt fill first).moveTo (first + copy) := by
  rw [layout_eq_flatMap] at h
  obtain ⟨⟨first, original⟩, hplaced, hrow⟩ := List.mem_flatMap.1 h
  obtain ⟨copy, -, rfl⟩ := List.mem_map.1 hrow
  exact ⟨original, mem_of_mem_placements hplaced, first, copy, rfl⟩

theorem eq_of_expand {t t' : Sheet} (h : t.expand = .ok t') :
    t' = { t with rows := layout t.fillAmount t.rowOffset t.rows, phase := .expanded } := by
  unfold Sheet.expand at h
  split at h
  next => cases h
  next =>
    split at h
    next => cases h
    next =>
      cases h
      rfl

end Sheet

namespace Row

theorem cells_placeAt (fill first : Nat) (r : Row) : (r.placeAt fill first).cells = r.cells := by
  unfold placeAt
  split <;> rfl

theorem boundName_placeAt (fill first : Nat) (r : Row) :
    (r.placeAt fill first).modifier.boundName = r.modifier.boundName := by
  unfold placeAt
  split <;> rfl

theorem cells_moveTo (index : Nat) (r : Row) :
    (r.moveTo index).cells = r.cells.map fun cell => { cell with row := index } :=
  rfl

end Row
end Spreadsheet
