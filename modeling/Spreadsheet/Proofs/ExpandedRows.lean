import Spreadsheet.Proofs.SheetCoordinates

/-!
How a sheet is laid out. Main statement: each row of the source becomes a block of copies, the blocks
stand one below the other in the order of the source, the rows are numbered without a gap, and a row
without an amount fills the sheet; a second such row is refused, and the sheet stays as it was.
-/
namespace Spreadsheet

namespace Row

/-- The row is a copy of `source` at `index`, in a block that goes from `first` to `last`. Besides
its place it differs from `source` only in that it knows its block. -/
structure CopyOf (source : Row) (first last index : Nat) (r : Row) : Prop where
  index_eq : r.index = index
  line_eq : r.line = source.line
  cells_eq : r.cells = source.cells.map fun cell => { cell with row := index }
  settings_eq : { r.modifier with expand := none } = { source.modifier with expand := none }
  single : source.modifier.expand = none → r.modifier.expand = none
  repeated : ∀ expand, source.modifier.expand = some expand →
    r.modifier.expand = some { amount := expand.amount, placed := some (first, last) }

/-- The rows are what stands in the place of `source` from `first` on: a single row, as many copies
as its amount says or, without an amount, `fill` copies. -/
structure BecomesFrom (source : Row) (fill first : Nat) (block : List Row) : Prop where
  single : source.modifier.expand = none → block.length = 1
  repeated : ∀ expand amount, source.modifier.expand = some expand →
    expand.amount = some amount → block.length = amount
  filling : ∀ expand, source.modifier.expand = some expand → expand.amount = none →
    block.length = fill
  copies : ∀ k r, block[k]? = some r →
    source.CopyOf first (first + block.length - 1) (first + k) r

theorem length_block (fill first : Nat) (r : Row) : (r.block fill first).length = r.height fill := by
  rw [block, List.length_map, List.length_range]

theorem copyOf_placeAt (fill first index : Nat) (r : Row) :
    r.CopyOf first (first + r.height fill - 1) index ((r.placeAt fill first).moveTo index) where
  index_eq := rfl
  line_eq := by
    unfold placeAt
    split <;> rfl
  cells_eq := by rw [cells_moveTo, cells_placeAt]
  settings_eq := by
    unfold placeAt
    split <;> rfl
  single := by
    intro hsingle
    show (r.placeAt fill first).modifier.expand = none
    rw [placeAt, hsingle]
    exact hsingle
  repeated := by
    intro expand hexpand
    show (r.placeAt fill first).modifier.expand = _
    rw [placeAt, height, hexpand]

theorem becomesFrom_block (fill first : Nat) (r : Row) :
    r.BecomesFrom fill first (r.block fill first) where
  single := by
    intro hsingle
    rw [length_block, height, hsingle]
  repeated := by
    intro expand amount hexpand hamount
    rw [length_block, height, hexpand]
    show expand.amount.getD fill = amount
    rw [hamount, Option.getD_some]
  filling := by
    intro expand hexpand hamount
    rw [length_block, height, hexpand]
    show expand.amount.getD fill = fill
    rw [hamount, Option.getD_none]
  copies := by
    intro k copy hcopy
    have hk : k < (List.range (r.height fill)).length := by
      have hlt := (List.getElem?_eq_some_iff.1 hcopy).1
      rwa [length_block, ← List.length_range (n := r.height fill)] at hlt
    rw [length_block]
    rw [block, List.getElem?_map, List.getElem?_eq_getElem hk, List.getElem_range, Option.map_some,
      Option.some.injEq] at hcopy
    rw [← hcopy]
    exact copyOf_placeAt fill first (first + k) r

theorem height_eq (fill : Nat) (r : Row) :
    r.height fill = r.fixedAmount + if r.isUnbounded then fill else 0 := by
  unfold height fixedAmount isUnbounded
  cases r.modifier.expand with
  | none => rfl
  | some expand =>
    obtain ⟨amount, placed⟩ := expand
    cases amount with
    | none => exact (Nat.zero_add fill).symm
    | some amount => rfl

end Row

namespace Sheet

/-- The rows are the sheet with its copies: a block for each row of the sheet, in their order, each
of which starts behind all the rows of those before it. -/
structure LaidOut (t : Sheet) (rows : List Row) (blocks : List (List Row)) : Prop where
  rows_eq : rows = blocks.flatten
  length_eq : blocks.length = t.rows.length
  becomes : ∀ (i : Nat) source block, t.rows[i]? = some source → blocks[i]? = some block →
    source.BecomesFrom t.fillAmount (t.rowOffset + (blocks.take i).flatten.length) block

/-! ## Blocks -/

theorem length_placements (fill next : Nat) (rows : List Row) :
    (placements fill next rows).length = rows.length := by
  induction rows generalizing next with
  | nil => rfl
  | cons row rest ih => rw [placements, List.length_cons, List.length_cons, ih]

/-- The blocks of the rows, one after the other. -/
def blocks (fill next : Nat) (rows : List Row) : List (List Row) :=
  (placements fill next rows).map fun (first, row) => row.block fill first

theorem blocks_cons (fill next : Nat) (row : Row) (rest : List Row) :
    blocks fill next (row :: rest) =
      row.block fill next :: blocks fill (next + row.height fill) rest :=
  rfl

theorem flatten_blocks (fill next : Nat) (rows : List Row) :
    (blocks fill next rows).flatten = layout fill next rows := by
  rw [layout_eq_flatMap, blocks, List.flatMap_def]

/-- Each block starts where those before it end. -/
theorem getElem?_blocks {fill next i : Nat} {rows : List Row} {row : Row}
    (h : rows[i]? = some row) :
    (blocks fill next rows)[i]? =
      some (row.block fill (next + ((blocks fill next rows).take i).flatten.length)) := by
  induction rows generalizing next i with
  | nil => cases h
  | cons other rest ih =>
    rw [blocks_cons]
    cases i with
    | zero =>
      cases h
      rfl
    | succ i =>
      have hrest : rest[i]? = some row := h
      -- what stands before the row is the block of `other` and, behind it, what stands before it
      -- in the rest
      rw [List.getElem?_cons_succ, ih hrest, List.take_succ_cons, List.flatten_cons,
        List.length_append, Row.length_block, Nat.add_assoc]

theorem laidOut_layout (t : Sheet) :
    t.LaidOut (layout t.fillAmount t.rowOffset t.rows)
      (blocks t.fillAmount t.rowOffset t.rows) where
  rows_eq := (flatten_blocks _ _ _).symm
  length_eq := by rw [blocks, List.length_map, length_placements]
  becomes := by
    intro i source block hsource hblock
    rw [getElem?_blocks hsource, Option.some.injEq] at hblock
    rw [← hblock]
    exact Row.becomesFrom_block _ _ source

/-! ## The number of rows -/

theorem length_layout (fill next : Nat) (rows : List Row) :
    (layout fill next rows).length =
      rows.foldl (fun count row => count + row.fixedAmount) 0 +
        fill * (rows.filter Row.isUnbounded).length := by
  have hstart : ∀ start, start + (layout fill next rows).length =
      rows.foldl (fun count row => count + row.fixedAmount) start +
        fill * (rows.filter Row.isUnbounded).length := by
    induction rows generalizing next with
    | nil => intro start; rfl
    | cons row rest ih =>
      intro start
      have hrest := ih (next + row.height fill) (start + row.fixedAmount)
      rw [layout_cons, List.length_append, Row.length_block, Row.height_eq, List.foldl_cons,
        List.filter_cons]
      by_cases hunbounded : row.isUnbounded = true
      · rw [if_pos hunbounded, if_pos hunbounded, List.length_cons, Nat.mul_succ]
        rw [Row.height_eq, if_pos hunbounded] at hrest
        omega
      · rw [if_neg hunbounded, if_neg hunbounded]
        rw [Row.height_eq, if_neg hunbounded] at hrest
        omega
  have hzero := hstart 0
  omega

/-- A row without an amount fills the sheet, and has at least one copy in a sheet that is full. -/
theorem length_of_unbounded {t : Sheet} (h : (t.rows.filter Row.isUnbounded).length = 1) :
    t.rowOffset + (layout t.fillAmount t.rowOffset t.rows).length =
      max sheetRows (t.rowOffset + t.fixedRows + 1) := by
  rw [length_layout, h, Nat.mul_one]
  show t.rowOffset + (t.fixedRows + t.fillAmount) = _
  unfold fillAmount
  omega

/-- The cells of a row stand where the row stands. -/
theorem row_of_mem_layout {fill next : Nat} {rows : List Row} {row : Row}
    (h : row ∈ layout fill next rows) : ∀ cell ∈ row.cells, cell.row = row.index := by
  intro cell hcell
  obtain ⟨original, -, first, copy, rfl⟩ := exists_of_mem_layout h
  rw [Row.cells_moveTo] at hcell
  obtain ⟨source, -, rfl⟩ := List.mem_map.1 hcell
  rfl

/-! ## Refused sheets -/

theorem expand_of_second {t : Sheet} (hphase : t.phase = .parsed) {first second : Row}
    {more : List Row} (h : t.rows.filter Row.isUnbounded = first :: second :: more) :
    t.expand = .error (.secondUnbounded
      { filename := t.filename, line := second.line, row := second.index, column := 0 }
      first.line) := by
  rw [Sheet.expand, (requirePhase_iff "expand").2 hphase]
  dsimp only
  rw [checkUnbounded, h]

/-- Expanding lays the rows out in blocks or, where two rows have no amount, fails at the second of
them and changes nothing. -/
theorem expand_laidOut {t : Sheet} (hphase : t.phase = .parsed) :
    ((t.rows.filter Row.isUnbounded).length ≤ 1 →
      ∃ rows blocks, t.expand = .ok { t with rows := rows, phase := .expanded } ∧
        t.LaidOut rows blocks ∧
        (∀ (i : Nat) row, rows[i]? = some row →
          row.index = t.rowOffset + i ∧ ∀ cell ∈ row.cells, cell.row = t.rowOffset + i) ∧
        (t.rows.filter Row.isUnbounded = [] → rows.length = t.fixedRows) ∧
        (∀ row ∈ t.rows, row.isUnbounded = true →
          t.rowOffset + rows.length = max 1000 (t.rowOffset + t.fixedRows + 1))) ∧
    ∀ first second more, t.rows.filter Row.isUnbounded = first :: second :: more →
      ∃ e, t.expand = .error e ∧
        e = .secondUnbounded
          { filename := t.filename, line := second.line, row := second.index, column := 0 }
          first.line ∧
        e.category = .modifier ∧
        ∀ s options, Session.take options ⟨t, s⟩ .expand = (⟨t, s⟩, .error e) := by
  refine ⟨fun hunbounded => ?_, fun first second more hmore => ?_⟩
  · refine ⟨_, _, expand_of_unbounded hphase hunbounded, laidOut_layout t,
      fun i row hrow => ?_, fun hnone => ?_, fun row hrow hfills => ?_⟩
    · have hindex := index_of_getElem?_layout hrow
      refine ⟨hindex, fun cell hcell => ?_⟩
      rw [row_of_mem_layout (List.mem_of_getElem? hrow) cell hcell, hindex]
    · rw [length_layout, hnone]
      rfl
    · have hpos : 0 < (t.rows.filter Row.isUnbounded).length :=
        List.length_pos_of_mem (List.mem_filter.2 ⟨hrow, hfills⟩)
      exact length_of_unbounded (by omega)
  · have hexpand := expand_of_second hphase hmore
    refine ⟨_, hexpand, rfl, rfl, fun s options => ?_⟩
    unfold Session.take
    dsimp only
    rw [hexpand]

/-- A heading, a row with two copies and one that fills the sheet, below an offset of 997 rows. -/
def nearTheEnd : Sheet :=
  { filename := "end.csvpp", rowOffset := 997, rows :=
    [{ index := 997, line := 1, modifier := {}, cells := [] },
      { index := 998, line := 2, modifier := { expand := some { amount := some 2 } }, cells := [] },
      { index := 999, line := 3, modifier := { expand := some { amount := none } }, cells := [] }] }

/-- The same with a second row that fills the sheet. -/
def filledTwice : Sheet :=
  { nearTheEnd with rows := nearTheEnd.rows ++
    [{ index := 1000, line := 5, modifier := { expand := some { amount := none } }, cells := [] }] }

theorem expand_laidOut_nearTheEnd :
    nearTheEnd.phase = .parsed ∧ (nearTheEnd.rows.filter Row.isUnbounded).length ≤ 1 ∧
    (∃ rows blocks, nearTheEnd.expand = .ok { nearTheEnd with rows := rows, phase := .expanded } ∧
      nearTheEnd.LaidOut rows blocks ∧ 997 + rows.length = 1001) ∧
    ∃ e, filledTwice.expand = .error e ∧
      e = .secondUnbounded { filename := "end.csvpp", line := 5, row := 1000, column := 0 } 3 := by
  obtain ⟨rows, blocks, hexpand, hlaid, -, -, hfill⟩ :=
    (expand_laidOut (t := nearTheEnd) rfl).1 (by decide)
  obtain ⟨e, herror, he, -⟩ := (expand_laidOut (t := filledTwice) rfl).2 _ _ _ rfl
  refine ⟨rfl, by decide, ⟨rows, blocks, hexpand, hlaid, ?_⟩, e, herror, he⟩
  exact hfill _ (List.mem_of_getElem? (i := 2) rfl) rfl

end Sheet
end Spreadsheet
