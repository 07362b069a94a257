import Spreadsheet.Proofs.ResolutionRuns

/-!
What the cell functions see of their argument. A call of one is resolved in a single pass, which
makes a single pass over the argument too; what takes more passes to become a cell is looked at half
done. Main statement: the cell is moved to its row if that one pass has brought the argument to a
cell or to the spelling of one, the call is refused if it has brought it to another call, and the
name of a variable is taken for a column.
-/
namespace Spreadsheet

/-! ## Rows -/

namespace BuiltinFunction

variable {b : BuiltinFunction} {p : Position} {row : Nat} {address : Address} {f : Formula}

/-- The row above, beside or below the cell `p`. -/
def Targets (b : BuiltinFunction) (p : Position) (row : Nat) : Prop :=
  match b with
  | .cellAbove => row + 1 = p.row
  | .cellAdjacent => row = p.row
  | .cellBelow => row = p.row + 1

theorem Targets.targetRow (h : b.Targets p row) : b.targetRow p = .ok row := by
  cases b with
  | cellAbove =>
    unfold BuiltinFunction.targetRow
    rw [← show row + 1 = p.row from h]
  | cellAdjacent => exact congrArg Except.ok (Eq.symm h)
  | cellBelow => exact congrArg Except.ok (Eq.symm h)

theorem call_of_address? (hrow : b.Targets p row) (hf : f.address? = some address)
    (hcolumn : address.first.column.isSome = true) (hrange : address.isRange = false) :
    b.call p [f] = .ok (.cell (address.withRow row)) := by
  simp [call, columnArgument, hf, hcolumn, hrange, hrow.targetRow]

theorem call_of_no_address (hf : f.address? = none) :
    b.call p [f] = .error (.invalidArgument b.name (.notColumn (f.render {}))) := by
  simp [call, columnArgument, hf]

end BuiltinFunction

/-! ## Calls -/

namespace Scope

variable {s : Scope} {p : Position} {id : String} {f : Formula} {b : BuiltinFunction}
  {address : Address} {rows : Option RowRange} {row : Nat}

/-- A call of a built-in function is resolved by one pass. -/
theorem resolve_builtin {form : CallForm} {arguments : List Formula}
    (hnone : s.functions.get? (Text.lower id) = none)
    (hb : BuiltinFunction.named? (Text.lower id) = some b) :
    s.resolve p (.call form id arguments) =
      (arguments.mapM (s.passArgument p)).bind (b.call p) := by
  have hpending : s.pending (.call form id arguments) ≠ [] :=
    pending_call_ne_nil (by simp [isFunction, hb])
  have hpass : s.pass p (.call form id arguments) =
    (arguments.mapM (s.passArgument p)).bind (b.call p) := pass_builtin hnone hb
  rw [← hpass]
  cases hresult : s.pass p (.call form id arguments) with
  | error e => exact resolveWithin_of_error hpending hresult
  | ok g =>
    obtain ⟨given, _, hcall⟩ := (pass_builtin_eq_ok_iff hnone hb).1 hresult
    obtain ⟨address, rfl⟩ := builtin_call_eq_ok hcall
    exact (Reaches.step hpending hresult (.refl _)).resolveWithin rfl (by decide)

/-! ## Arguments -/

theorem Reaches.eq_of_done {k : Nat} {g : Formula} (h : s.Reaches p k f g)
    (hdone : s.pending f = []) : g = f := by
  cases h with
  | refl => rfl
  | step hpending _ _ => exact absurd hdone hpending

/-- A name that is no variable spells what it is resolved to. -/
theorem Reaches.read_eq {k : Nat} (hid : s.isVariable id = false)
    (h : s.Reaches p k (.name id) (.literal (.cell address rows))) :
    Address.read id = some address := by
  cases h with
  | step _ hpass hrest =>
    rw [pass, resolveName, if_neg (by simp [hid])] at hpass
    split at hpass
    next found hread =>
      split at hpass
      next =>
        cases hpass
        cases hrest.eq_of_done rfl
        exact hread
      next => cases hpass
    next => cases hpass

/-- What a built-in function sees of an argument lies on the way to what the argument is resolved
to. -/
theorem Reaches.exists_passArgument {k : Nat}
    (h : s.Reaches p k f (.literal (.cell address rows))) :
    ∃ seen k', s.passArgument p f = .ok seen ∧
      s.Reaches p k' seen (.literal (.cell address rows)) := by
  unfold passArgument
  by_cases hbare : f.isBareAddress s.isVariable = true
  · -- no pass is made over a bare name, which has its own way before it
    rw [if_pos hbare]
    exact ⟨f, k, rfl, h⟩
  · rw [if_neg hbare]
    cases h with
    | refl => exact ⟨_, 0, rfl, .refl _⟩
    | @step k _ next _ _ hpass hrest => exact ⟨next, k, hpass, hrest⟩

/-- A cell function sees what one pass leaves of its argument. Where that is a cell or spells one
the cell is moved to its row, and where it is a name or call that takes more passes the function
reads the name as a column and refuses the call. -/
theorem resolve_cellFunction {form : CallForm}
    (hnone : s.functions.get? (Text.lower id) = none)
    (hb : BuiltinFunction.named? (Text.lower id) = some b) (hrow : b.Targets p row)
    (hargument : s.resolve p f = .ok (.literal (.cell address rows)))
    (hcolumn : address.first.column.isSome = true) (hrange : address.isRange = false) :
    ∃ seen, s.passArgument p f = .ok seen ∧
      s.resolve p (.call form id [f]) =
        match seen with
        | .literal _ => .ok (.cell (address.withRow row))
        | .name other =>
          if s.isVariable other then b.call p [.name other]
          else .ok (.cell (address.withRow row))
        | _ => .error (.invalidArgument b.name (.notColumn (seen.render {}))) := by
  obtain ⟨k, _, hreaches, _⟩ := resolveWithin_eq_ok_iff.1 hargument
  obtain ⟨seen, k', hpass, hrest⟩ := hreaches.exists_passArgument
  have hcall : s.resolve p (.call form id [f]) = b.call p [seen] := by
    rw [resolve_builtin hnone hb, List.mapM_cons, hpass]
    rfl
  refine ⟨seen, hpass, hcall.trans ?_⟩
  cases seen with
  | literal value =>
    cases hrest.eq_of_done rfl
    exact BuiltinFunction.call_of_address? hrow rfl hcolumn hrange
  | name other =>
    by_cases hother : s.isVariable other = true
    · exact (if_pos hother).symm
    · -- one more pass would have made the name the cell that it spells
      have hread : (Formula.name other).address? = some address :=
        hrest.read_eq (Bool.eq_false_iff.2 hother)
      exact (BuiltinFunction.call_of_address? hrow hread hcolumn hrange).trans (if_neg hother).symm
  | call form id arguments => exact BuiltinFunction.call_of_no_address rfl
  | function id formals body => exact BuiltinFunction.call_of_no_address rfl
  | builtin value => exact BuiltinFunction.call_of_no_address rfl

/-- `same(x)` is its argument, and `price` is the cell `D1`. -/
def sameAndPrice : Scope :=
  { values := .ofList [("price", .name "d1")]
    functions := .ofList [("same", { id := "same", formals := ["x"], body := .name "x" })] }

theorem resolve_cellFunction_price :
    sameAndPrice.functions.get? (Text.lower "cellbelow") = none ∧
      BuiltinFunction.named? (Text.lower "cellbelow") = some .cellBelow ∧
      BuiltinFunction.cellBelow.Targets {} 1 ∧
      sameAndPrice.resolve {} (.name "price") = .ok (.cell (Address.cell 3 0)) ∧
      sameAndPrice.resolve {} (.call .named "cellbelow" [.name "price"]) =
        .ok (.cell (Address.cell 3 1)) := by
  have hnone : sameAndPrice.functions.get? (Text.lower "cellbelow") = none := by decide
  have hb : BuiltinFunction.named? (Text.lower "cellbelow") = some .cellBelow := by decide
  have hprice : sameAndPrice.resolve {} (.name "price") = .ok (.cell (Address.cell 3 0)) := rfl
  obtain ⟨seen, hseen, hresolve⟩ := resolve_cellFunction hnone hb rfl hprice rfl rfl
  cases hseen
  exact ⟨hnone, hb, rfl, hprice, hresolve⟩

/-- `same(price)` is `D1`, and yet the cell below it is taken to be one in a column `PRICE`. -/
theorem resolve_cellbelow_same :
    sameAndPrice.resolve {} (.namedCall "same" [.name "price"]) =
        .ok (.cell (Address.cell 3 0)) ∧
      ∃ address, Address.read "PRICE2" = some address ∧ address ≠ Address.cell 3 1 ∧
        sameAndPrice.resolve {} (.namedCall "cellbelow" [.namedCall "same" [.name "price"]]) =
          .ok (.cell address) := by
  exact ⟨rfl, Address.cell 7634150 1, by decide, by decide, rfl⟩

end Scope
end Spreadsheet
