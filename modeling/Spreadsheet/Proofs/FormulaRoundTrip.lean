import Spreadsheet.Proofs.FormulaLeaves
import Spreadsheet.Proofs.FormulaSpelling

/-!
Formulas keep their shape when they are written and read again. Main statement: the text of a
formula is read as the formula that `reread` gives, which has the same operators with the same
operands.
-/
namespace Spreadsheet

open Text

/-- A whole number, as its decimal digits are read. -/
def Number.ofInt : Int → Number
  | .ofNat n => ofNat n
  | .negSucc n => (ofNat (n + 1)).neg

/-- The address that a cell is written as: one bound inside an expanded row follows the row it is
looked at from. -/
def Address.seenFrom (p : Position) (a : Address) : Option RowRange → Address
  | some _ => a.withRow p.row
  | none => a

namespace Formula

/-- Texts are the same with and without the range that a cell is bound to. -/
theorem renderChars_cell (p : Position) (a : Address) (rows : Option RowRange) :
    renderChars p (.literal (.cell a rows)) = (a.seenFrom p rows).renderChars := by
  cases rows <;> rfl

/-- What a leaf is after it has been written, as seen from `p`, and read again. -/
def rereadLiteral (p : Position) : Literal → Formula
  | .date d => .call .named "date" [.number (.ofInt d.year), .number (.ofNat d.month),
      .number (.ofNat d.day)]
  | .cell a rows =>
    let seen := a.seenFrom p rows
    if seen.isPlain then .reference seen.render
    else ((Address.readChars seen.renderChars).map Formula.cell).getD (.cell seen)
  | value => .literal value

mutual

/-- What a formula is after it has been written, as seen from `p`, and read again: a minus in
front of a number belongs to the number, a date is a call, names and plain cells are names in lower
case, and other cells are what their text names. -/
def reread (p : Position) : Formula → Formula
  | .literal value => rereadLiteral p value
  | .name id => .reference (String.ofList (nameChars id))
  | .call .named id arguments => .call .named (lower (upper id)) (rereadAll p arguments)
  | .call .operator "-" [operand] => Expression.negate (reread p operand)
  | .call .operator id arguments => .call .operator id (rereadAll p arguments)
  | f => f
termination_by structural f => f

def rereadAll (p : Position) : List Formula → List Formula
  | [] => []
  | f :: rest => reread p f :: rereadAll p rest
termination_by structural fs => fs

end

theorem rereadAll_eq (p : Position) (fs : List Formula) : rereadAll p fs = fs.map (reread p) := by
  induction fs with
  | nil => rfl
  | cons f rest ih => rw [rereadAll, ih, List.map_cons]

/-- The formulas that can be written and read again: operators over leaves and named calls. Each
name, and each cell that is not plain, must be written as one token. -/
inductive Printable (p : Position) : Formula → Prop
  | number {x : Number} (hfinite : x.isFinite = true) : Printable p (.number x)
  | text (value : String) : Printable p (.text value)
  | boolean (value : Bool) : Printable p (.literal (.boolean value))
  | date (d : Date) : Printable p (.literal (.date d))
  | plainCell {a : Address} {rows : Option RowRange} (hplain : (a.seenFrom p rows).isPlain = true) :
    Printable p (.literal (.cell a rows))
  | markedCell {a b : Address} {rows : Option RowRange}
    (htoken : Grammar.formula.ReadsWhole .address (a.seenFrom p rows).renderChars)
    (hread : Address.readChars (a.seenFrom p rows).renderChars = some b) :
    Printable p (.literal (.cell a rows))
  | name {id : String} (htoken : Grammar.formula.ReadsWhole .identifier (nameChars id)) :
    Printable p (.name id)
  | call {id : String} {arguments : List Formula}
    (htoken : Grammar.formula.ReadsWhole .identifier (upper id).toList)
    (harguments : ∀ f ∈ arguments, Printable p f) : Printable p (.call .named id arguments)
  | binary {operator : String} {left right : Formula}
    (hoperator : (Operator.strength? operator).isSome = true) (hleft : Printable p left)
    (hright : Printable p right) : Printable p (.binary operator left right)
  | negation {operand : Formula} (hoperand : Printable p operand) :
    Printable p (.unary "-" operand)

/-! ## Leaves -/

theorem spells_decimal {whole fraction text : List Char}
    (h : Number.Decimal whole fraction text) :
    Spells Operator.levels.length text (.number (.ofDecimalText text)) := by
  apply spells_leaf (Grammar.readsWhole_decimal h) (by decide) (by decide)
  intro offset
  change some (Except.ok (Formula.number (.ofDecimalText (String.ofList text).toList))) = _
  rw [String.toList_ofList]

theorem spells_nat (n : Nat) : Spells Operator.levels.length (decimal n) (.number (.ofNat n)) := by
  have hdecimal : Number.Decimal (decimal n) [] (decimal n) :=
    .whole Nat.toDigits_ne_nil fun _ => Number.isDigit_of_mem_decimal
  rw [← Number.ofDecimalText_decimal]
  exact spells_decimal hdecimal

theorem negate_number (x : Number) : Expression.negate (.number x) = .number x.neg :=
  rfl

theorem spells_int (n : Int) :
    Spells Operator.levels.length (toString n).toList (.number (.ofInt n)) := by
  cases n with
  | ofNat n =>
    have htext : (toString (Int.ofNat n)).toList = decimal n := Nat.toList_repr
    rw [htext, Number.ofInt]
    exact spells_nat n
  | negSucc n =>
    have htext : (toString (Int.negSucc n)).toList = '-' :: decimal (n + 1) := by
      change ("-" ++ Nat.repr (n + 1)).toList = _
      rw [String.toList_append, Nat.toList_repr]
      rfl
    have hspells := spells_minus (spells_nat (n + 1))
    rw [negate_number] at hspells
    rw [htext, Number.ofInt]
    exact hspells

theorem spells_number {x : Number} (hfinite : x.isFinite = true) :
    Spells Operator.levels.length x.render (.number x) := by
  have hlt : x.magnitude.val < Number.infinity := by simpa [Number.isFinite] using hfinite
  have hmagnitude : Spells Operator.levels.length (Number.renderMagnitude x.magnitude)
      (.number x.abs) := by
    obtain ⟨whole, fraction, hdecimal, -⟩ := Number.renderMagnitude_decimal x.magnitude hlt
    rw [← Number.ofDecimalText_renderMagnitude x hfinite]
    exact spells_decimal hdecimal
  have hnan : x.isNaN = false := by
    rw [Number.isNaN, decide_eq_false_iff_not]
    omega
  have hinfinite : x.isInfinite = false := by
    rw [Number.isInfinite, beq_eq_false_iff_ne]
    omega
  simp only [Number.render, hnan, hinfinite, Bool.false_eq_true, if_false]
  by_cases hnegative : x.negative = true
  · have hneg : x.abs.neg = x := by
      rw [Number.neg, Number.abs, Bool.not_false, ← hnegative]
    -- the sign is read as a minus in front of the number, which folds into it
    have hminus := spells_minus hmagnitude
    rw [negate_number, hneg] at hminus
    rw [if_pos hnegative]
    exact hminus
  · have habs : x.abs = x := by
      rw [Number.abs, ← eq_false_of_ne_true hnegative]
    rw [habs] at hmagnitude
    rw [if_neg hnegative]
    exact hmagnitude

theorem spells_boolean (p : Position) (value : Bool) :
    Spells Operator.levels.length (Literal.renderChars p (.boolean value))
      (.literal (.boolean value)) := by
  have hword (w : String) (hfirst : w.toList.head?.map isBlank = some false)
      (hmatch : Grammar.formula.firstMatch? w.toList = some (some .boolean, w.toList.length))
      (hvalue : (lowerAscii w.toList == "true".toList) = value) :
      Spells Operator.levels.length w.toList (.literal (.boolean value)) := by
    apply spells_leaf (Grammar.readsWhole_of_firstMatch? hfirst hmatch) (by decide) (by decide)
    intro offset
    rw [String.ofList_toList, ← hvalue]
    rfl
  cases value with
  | true => exact hword "TRUE" (by decide) (by decide) (by decide)
  | false => exact hword "FALSE" (by decide) (by decide) (by decide)

theorem renderChars_date (d : Date) :
    d.renderChars = "DATE".toList ++ '(' ::
      (joinChars [',', ' '] [(toString d.year).toList, decimal d.month, decimal d.day] ++ [')']) := by
  have hopening : "DATE(".toList = "DATE".toList ++ ['('] := by decide
  have hcomma : ", ".toList = [',', ' '] := by decide
  have hclosing : ")".toList = [')'] := by decide
  unfold Date.renderChars
  rw [hopening, hcomma, hclosing]
  simp only [joinChars, List.append_assoc, List.cons_append, List.nil_append]

theorem spells_date (p : Position) (d : Date) :
    Spells Operator.levels.length d.renderChars (rereadLiteral p (.date d)) := by
  have hname : Grammar.formula.ReadsWhole .identifier "DATE".toList :=
    Grammar.readsWhole_of_firstMatch? (by decide) (by decide)
  have hlower : lower (String.ofList "DATE".toList) = "date" := by decide
  have hparts : ∀ part ∈ [((toString d.year).toList, Formula.number (.ofInt d.year)),
      (decimal d.month, .number (.ofNat d.month)), (decimal d.day, .number (.ofNat d.day))],
      Spells 0 part.1 part.2 := by
    intro part hpart
    simp only [List.mem_cons, List.not_mem_nil, or_false] at hpart
    rcases hpart with rfl | rfl | rfl
    · exact (spells_int d.year).weaken_to (Nat.zero_le _) (Nat.le_refl _)
    · exact (spells_nat d.month).weaken_to (Nat.zero_le _) (Nat.le_refl _)
    · exact (spells_nat d.day).weaken_to (Nat.zero_le _) (Nat.le_refl _)
  have hcall := spells_call hname (spellsArguments Prod.fst Prod.snd _ hparts)
  rw [namedCall, hlower] at hcall
  simp only [List.map_cons, List.map_nil] at hcall
  rw [renderChars_date, rereadLiteral]
  exact hcall

/-! ## Operands -/

theorem operator_level {operator : String} {strength : Nat}
    (h : Operator.strength? operator = some strength) :
    ∃ level operators, strength = level + 1 ∧ level < Operator.levels.length ∧
      Operator.levels[level]? = some operators ∧ operator ∈ operators := by
  obtain ⟨level, hlevel, rfl⟩ := Option.map_eq_some_iff.1 h
  obtain ⟨hlt, hmem, -⟩ := List.findIdx?_eq_some_iff_getElem.1 hlevel
  exact ⟨level, _, rfl, hlt, List.getElem?_eq_getElem hlt, List.contains_iff_mem.1 hmem⟩

/-- The level of operators that take the formula as an operand without parentheses. -/
def level (f : Formula) : Nat :=
  match f.strength? with
  | some strength => strength - 1
  | none => Operator.levels.length

theorem level_le (f : Formula) : f.level ≤ Operator.levels.length := by
  unfold level
  split
  next strength hstrength =>
    unfold strength? callStrength? at hstrength
    split at hstrength
    next =>
      split at hstrength
      next =>
        cases hstrength
        decide
      next =>
        obtain ⟨level, operators, rfl, hlt, -⟩ := operator_level hstrength
        omega
    next => cases hstrength
  next => exact Nat.le_refl _

theorem level_of_not_isOperatorCall {f : Formula} (h : f.isOperatorCall = false) :
    f.level = Operator.levels.length := by
  unfold isOperatorCall at h
  split at h
  next => cases h
  next hother =>
    have hstrength : f.strength? = none := by
      unfold strength?
      split
      next form id arguments => exact absurd rfl (hother id arguments)
      next => rfl
    rw [level, hstrength]

/-- An operand of an operator of the given level is written so that it is read as one. -/
theorem spells_operand {f g : Formula} {text : List Char} {level : Nat} (onRight : Bool)
    (hle : level + onRight.toNat ≤ Operator.levels.length) (h : Spells f.level text g) :
    Spells (level + onRight.toNat) (operandChars (level + 1) onRight f text) g := by
  unfold operandChars
  dsimp only
  split
  next =>
    have hinner := h.weaken_to (Nat.zero_le _) f.level_le
    exact (spells_parentheses hinner).weaken_to hle (Nat.le_refl _)
  next hparentheses =>
    -- without parentheses the operand is no weaker than the operator, and stronger on its right
    apply h.weaken_to _ f.level_le
    by_cases hcall : f.isOperatorCall = true
    · rw [hcall, Bool.true_and, Bool.or_eq_true, Bool.and_eq_true, decide_eq_true_eq,
        beq_iff_eq, not_or] at hparentheses
      obtain ⟨hge, hne⟩ := hparentheses
      unfold Formula.level
      cases hstrength : f.strength? with
      | none =>
        rw [hstrength] at hge
        exact absurd (Nat.succ_pos level) hge
      | some strength =>
        rw [hstrength, Option.getD_some] at hge hne
        cases onRight with
        | false => simp only [Bool.toNat_false]; omega
        | true =>
          have hstrict : strength ≠ level + 1 := fun heq => hne ⟨rfl, heq⟩
          simp only [Bool.toNat_true]
          omega
    · rw [level_of_not_isOperatorCall (eq_false_of_ne_true hcall)]
      exact hle

/-! ## Formulas -/

theorem readsWhole_kind {kind kind' : TokenKind} {s : List Char}
    (h : Grammar.formula.ReadsWhole kind s) (h' : Grammar.formula.ReadsWhole kind' s) :
    kind = kind' := by
  have heq := h.symm.trans h'
  simp only [Except.ok.injEq, List.cons.injEq, Token.mk.injEq, and_true] at heq
  exact heq

variable {p : Position}

theorem spells_plainCell {a : Address} {rows : Option RowRange}
    (hplain : (a.seenFrom p rows).isPlain = true) :
    Spells Operator.levels.length (renderChars p (.literal (.cell a rows)))
      (reread p (.literal (.cell a rows))) := by
  rw [renderChars_cell, reread, rereadLiteral, if_pos hplain]
  exact spells_name (Address.readsWhole_of_isPlain hplain)

theorem spells_cell {text : List Char} {a : Address}
    (htoken : Grammar.formula.ReadsWhole .address text) (hread : Address.readChars text = some a) :
    Spells Operator.levels.length text (.cell a) := by
  apply spells_leaf htoken (by decide) (by decide)
  intro offset
  simp only [Expression.leaf?, String.toList_ofList, hread]

theorem spells_markedCell {a b : Address} {rows : Option RowRange}
    (htoken : Grammar.formula.ReadsWhole .address (a.seenFrom p rows).renderChars)
    (hread : Address.readChars (a.seenFrom p rows).renderChars = some b) :
    Spells Operator.levels.length (renderChars p (.literal (.cell a rows)))
      (reread p (.literal (.cell a rows))) := by
  -- a plain cell would make an identifier
  have hplain : ¬(a.seenFrom p rows).isPlain = true := by
    intro hplain
    cases readsWhole_kind htoken (Address.readsWhole_of_isPlain hplain)
  rw [renderChars_cell, reread, rereadLiteral, if_neg hplain, hread]
  exact spells_cell htoken hread

theorem renderChars_namedCall (p : Position) (id : String) (arguments : List Formula) :
    renderChars p (.call .named id arguments) =
      (upper id).toList ++
        '(' :: (joinChars [',', ' '] (arguments.map (renderChars p)) ++ [')']) := by
  have htext : renderChars p (.call .named id arguments) =
      (upper id).toList ++ '(' :: joinChars [',', ' '] (renderAllChars p arguments) ++ [')'] := rfl
  rw [htext, renderAllChars_eq, List.append_assoc, List.cons_append]

theorem spells_namedCall {id : String} {arguments : List Formula} (value : Formula → Formula)
    (htoken : Grammar.formula.ReadsWhole .identifier (upper id).toList)
    (harguments : ∀ f ∈ arguments, Spells f.level (f.renderChars p) (value f)) :
    Spells Operator.levels.length (renderChars p (.call .named id arguments))
      (.call .named (lower (upper id)) (arguments.map value)) := by
  have hspells := spellsArguments (renderChars p) value arguments fun f hf =>
    (harguments f hf).weaken_to (Nat.zero_le _) f.level_le
  have hcall := spells_call htoken hspells
  rw [namedCall, String.ofList_toList] at hcall
  rw [renderChars_namedCall]
  exact hcall

/-- The text of two operands with an operator of the given strength between them. -/
theorem renderChars_binary {operator : String} {strength : Nat}
    (hstrength : Operator.strength? operator = some strength) (left right : Formula) :
    renderChars p (.binary operator left right) =
      operandChars strength false left (left.renderChars p) ++ ' ' :: operator.toList ++
        ' ' :: operandChars strength true right (right.renderChars p) := by
  change operandChars ((Operator.strength? operator).getD 0) false left _ ++ _ ++
    ' ' :: operandChars ((Operator.strength? operator).getD 0) true right _ = _
  rw [hstrength]
  rfl

theorem level_binary {operator : String} {level : Nat}
    (hstrength : Operator.strength? operator = some (level + 1)) (left right : Formula) :
    (binary operator left right).level = level := by
  change (match Operator.strength? operator with
    | some strength => strength - 1
    | none => Operator.levels.length) = level
  rw [hstrength]
  rfl

theorem spells_binaryCall {operator : String} {left right left' right' : Formula}
    (hoperator : (Operator.strength? operator).isSome = true)
    (hleft : Spells left.level (left.renderChars p) left')
    (hright : Spells right.level (right.renderChars p) right') :
    Spells (binary operator left right).level (renderChars p (.binary operator left right))
      (.binary operator left' right') := by
  obtain ⟨strength, hstrength⟩ := Option.isSome_iff_exists.1 hoperator
  obtain ⟨level, operators, rfl, hlt, hlevel, hmem⟩ := operator_level hstrength
  rw [level_binary hstrength, renderChars_binary hstrength]
  exact spells_binary hlevel hmem (spells_operand false (Nat.le_of_lt hlt) hleft)
    (spells_operand true hlt hright)

theorem renderChars_negation (p : Position) (operand : Formula) :
    renderChars p (.unary "-" operand) =
      '-' :: operandChars (Operator.levels.length + 1) false operand (operand.renderChars p) :=
  rfl

theorem spells_negation {operand operand' : Formula}
    (h : Spells operand.level (operand.renderChars p) operand') :
    Spells Operator.levels.length (renderChars p (.unary "-" operand))
      (Expression.negate operand') := by
  rw [renderChars_negation]
  exact spells_minus (spells_operand false (Nat.le_refl _) h)

theorem reread_binary (p : Position) (operator : String) (left right : Formula) :
    reread p (.binary operator left right) = .binary operator (reread p left) (reread p right) := by
  rw [binary, reread, rereadAll_eq]
  · rfl
  · intro operand _ hsingle
    cases hsingle

theorem Printable.spells {f : Formula} (h : Printable p f) :
    Spells f.level (f.renderChars p) (f.reread p) := by
  induction h with
  | number hfinite => exact spells_number hfinite
  | text value =>
    have hspells := spells_text value.toList
    rw [String.ofList_toList] at hspells
    exact hspells
  | boolean value => exact spells_boolean p value
  | date d => exact spells_date p d
  | plainCell hplain => exact spells_plainCell hplain
  | markedCell htoken hread => exact spells_markedCell htoken hread
  | name htoken => exact spells_name htoken
  | call htoken _ ih =>
    rw [reread, rereadAll_eq]
    exact spells_namedCall (reread p) htoken ih
  | binary hoperator _ _ ihleft ihright =>
    rw [reread_binary]
    exact spells_binaryCall hoperator ihleft ihright
  | negation _ ih =>
    rw [unary, reread]
    exact spells_negation ih

theorem Printable.parseBody {f : Formula} (h : Printable p f) :
    Formula.parseBody (f.renderChars p) = .ok (f.reread p) :=
  parseBody_of_spells (h.spells.weaken_to (Nat.zero_le _) f.level_le)

theorem parse_equals (body : List Char) :
    Formula.parse ("=" ++ String.ofList body) = Formula.parseBody body := by
  have htrim : trimStart ("=" ++ String.ofList body).toList = '=' :: body := by
    have htext : ("=" ++ String.ofList body).toList = '=' :: body := by simp
    rw [htext, trimStart, List.dropWhile_cons_of_neg (by decide)]
  unfold Formula.parse
  rw [htrim]
  rfl

/-- A formula is read from its own text, with no operand in another place. -/
theorem parse_render {f : Formula} (h : Printable p f) :
    Formula.parse ("=" ++ f.render p) = .ok (f.reread p) := by
  rw [render, parse_equals, h.parseBody]

/-- A negated difference of differences, raised to a power and joined to a call. -/
def nestedOperators : Formula :=
  .binary "&"
    (.binary "^"
      (.unary "-" (.binary "-" (.name "unit_price")
        (.binary "-" (.unary "-" (.number ⟨true, ⟨3, by decide⟩⟩)) (.number ⟨true, ⟨5, by decide⟩⟩))))
      (.cell { sheet := some "my sheet", first := { row := some 4 }, last := { row := some 6 } }))
    (.call .named "sum" [.text "say \"hi\"", .literal (.boolean true), .literal (.date ⟨2024, 1, 31⟩),
      .literal (.cell (.cell 2 0) (some ⟨3, none⟩))])

theorem printable_nestedOperators : Printable { row := 4 } nestedOperators := by
  have hname : Grammar.formula.ReadsWhole .identifier (nameChars "unit_price") :=
    Grammar.readsWhole_of_firstMatch? (by decide) (by decide)
  have hcall : Grammar.formula.ReadsWhole .identifier (upper "sum").toList :=
    Grammar.readsWhole_of_firstMatch? (by decide) (by decide)
  have hrows : Grammar.formula.ReadsWhole .address
      (Address.renderChars ⟨some "my sheet", { row := some 4 }, { row := some 6 }⟩) :=
    Grammar.readsWhole_of_firstMatch? (by decide +kernel) (by decide +kernel)
  have hread : Address.readChars
      (Address.renderChars ⟨some "my sheet", { row := some 4 }, { row := some 6 }⟩) =
        some ⟨some "my sheet", { row := some 4 }, { row := some 6 }⟩ := by
    decide +kernel
  refine .binary (by decide) (.binary (by decide) (.negation ?_) (.markedCell hrows hread))
    (.call hcall ?_)
  · exact .binary (by decide) (.name hname)
      (.binary (by decide) (.negation (.number (by decide))) (.number (by decide)))
  · intro f hf
    simp only [List.mem_cons, List.not_mem_nil, or_false] at hf
    rcases hf with rfl | rfl | rfl | rfl
    · exact .text _
    · exact .boolean true
    · exact .date _
    · exact .plainCell (by decide)

theorem parse_render_nestedOperators :
    Printable { row := 4 } nestedOperators ∧
      Formula.parse ("=" ++ nestedOperators.render { row := 4 }) =
        .ok (nestedOperators.reread { row := 4 }) :=
  ⟨printable_nestedOperators, parse_render printable_nestedOperators⟩

/-- A name is not kept when no small letters lead to its capitals but those of another. -/
theorem parse_render_sharpS :
    Printable {} (.call .named "ß" []) ∧
      Formula.parse ("=" ++ render {} (.call .named "ß" [])) = .ok (.call .named "ss" []) ∧
      ("ss" : String) ≠ "ß" := by
  have hupper : upper "ß" = "SS" := by decide
  have hcall : Grammar.formula.ReadsWhole .identifier (upper "ß").toList := by
    rw [hupper]
    exact Grammar.readsWhole_of_firstMatch? (by decide) (by decide)
  have hprintable : Printable {} (.call .named "ß" []) := .call hcall fun f hf => nomatch hf
  have hlower : lower "SS" = "ss" := by decide
  refine ⟨hprintable, ?_, by decide⟩
  rw [render, parse_equals, hprintable.parseBody, reread, hupper, hlower]
  rfl

end Formula
end Spreadsheet
