import Spreadsheet.Proofs.AddressTokens
import Spreadsheet.Proofs.ClashingTokens
import Spreadsheet.Proofs.FormulaRoundTrip
import Spreadsheet.Proofs.LowerCase
import Spreadsheet.Proofs.WrittenNames

/-!
Formulas that are written, read and written once more. Two things can go wrong: the name of a sheet
with a dot in it is written without the quotes that it needs, so that nothing is read; and a number
that is not finite is written as a word, which is read as a name and written in capitals. Each kind
of formula is shown to do nothing else, given that its operands do not.
-/
namespace Spreadsheet

open Text

/-- Whether the literal is a finite number, if it is a number. -/
def Literal.isFinite : Literal → Bool
  | .number x => x.isFinite
  | _ => true

/-- Whether the sheet of the literal, if it is a cell on one, is found where it is written. -/
def Literal.hasSpelledSheet : Literal → Bool
  | .cell a _ => a.sheet.all Address.isSpelledSheet
  | _ => true

/-- A number that is not finite is written as a word, perhaps with a minus. -/
theorem Number.render_of_not_isFinite {x : Number} (h : x.isFinite = false) :
    x.render = "NaN".toList ∨ x.render = "inf".toList ∨ x.render = "-inf".toList := by
  by_cases hnan : x.isNaN = true
  · exact .inl (by rw [Number.render, if_pos hnan]; rfl)
  · have hinfinite : x.isInfinite = true := by
      rw [Number.isFinite, decide_eq_false_iff_not] at h
      rw [Number.isNaN, decide_eq_true_eq] at hnan
      rw [Number.isInfinite, beq_iff_eq]
      omega
    right
    rw [Number.render, if_neg hnan]
    by_cases hnegative : x.negative = true
    · exact .inr (by simp [hinfinite, hnegative])
    · exact .inl (by simp [hinfinite, hnegative])

/-- Texts of the same lengths are joined to texts of the same length, and to the same text only if
they are the same. -/
theorem joinChars_congr {α : Type} (separator : List Char) {spelling spelling' : α → List Char}
    {as : List α} (h : ∀ a ∈ as, (spelling' a).length = (spelling a).length) :
    (joinChars separator (as.map spelling')).length =
        (joinChars separator (as.map spelling)).length ∧
      (joinChars separator (as.map spelling') = joinChars separator (as.map spelling) ↔
        ∀ a ∈ as, spelling' a = spelling a) := by
  induction as with
  | nil => exact ⟨rfl, fun _ => List.forall_mem_nil _, fun _ => rfl⟩
  | cons a as ih =>
    obtain ⟨ha, has⟩ := List.forall_mem_cons.1 h
    obtain ⟨hlength, hjoin⟩ := ih has
    rw [List.forall_mem_cons, ← hjoin]
    cases as with
    | nil => exact ⟨ha, fun heq => ⟨heq, rfl⟩, And.left⟩
    | cons b as =>
      simp only [List.map_cons, joinChars, List.length_append] at hlength ⊢
      refine ⟨by omega, ?_, ?_⟩
      · -- the separators stand at the same places, as the texts have the same lengths
        intro heq
        obtain ⟨hleft, hright⟩ := List.append_inj heq (by simp [ha])
        exact ⟨(List.append_inj hleft ha).1, hright⟩
      · rintro ⟨hfirst, hrest⟩
        rw [hfirst, hrest]

namespace Formula

/-! ## Operands -/

/-- An operator at the root binds as strongly as its level says. -/
def Ranked (f : Formula) : Prop :=
  f.isOperatorCall = true → f.strength? = some (f.level + 1)

theorem ranked_of_not_isOperatorCall {f : Formula} (h : f.isOperatorCall = false) : f.Ranked := by
  intro hcall
  rw [h] at hcall
  cases hcall

/-- Whether an operand is put into parentheses depends on its level only. -/
theorem Ranked.operandChars_eq {f : Formula} (h : f.Ranked) {parent : Nat} {onRight : Bool}
    (hle : parent + onRight.toNat ≤ Operator.levels.length + 1) (text : List Char) :
    operandChars parent onRight f text =
      if f.level + 1 < parent + onRight.toNat then '(' :: text ++ [')'] else text := by
  unfold operandChars
  dsimp only
  by_cases hcall : f.isOperatorCall = true
  · rw [h hcall, hcall, Option.getD_some, Bool.true_and]
    cases onRight with
    | false => simp
    | true =>
      have hiff : f.level + 1 < parent ∨ f.level + 1 = parent ↔ f.level + 1 < parent + 1 := by omega
      simp only [Bool.true_and, Bool.or_eq_true, decide_eq_true_eq, beq_iff_eq, Bool.toNat_true,
        hiff]
  · -- nothing binds more strongly than what is no operator
    have hlevel := level_of_not_isOperatorCall (eq_false_of_ne_true hcall)
    rw [eq_false_of_ne_true hcall, Bool.false_and, if_neg (by decide), if_neg (by omega)]

/-! ## What is read -/

/-- The text of `f` is read as `g`, and the text of `g` is that of `f` again, if all numbers are
finite; otherwise it is another one of the same length. The levels agree, so that both get the same
parentheses, and `g` is no number unless `f` is, so that no minus is drawn into it. -/
structure Reprints (p : Position) (f g : Formula) : Prop where
  spells : Spells f.level (f.renderChars p) g
  ranked : g.Ranked
  level_eq : g.level = f.level
  number : ∀ x, g = .number x → ∃ y, f = .number y
  length_eq : (g.renderChars p).length = (f.renderChars p).length
  text_iff : g.renderChars p = f.renderChars p ↔ f.Over Literal.isFinite

/-- What comes of writing `f` and reading it: it is read as long as all sheets are found, and is no
formula if one of them is not. -/
structure Normalizes (p : Position) (f : Formula) : Prop where
  ranked : f.Ranked
  reprints : f.Over Literal.hasSpelledSheet → ∃ g, Reprints p f g
  clashes : ¬f.Over Literal.hasSpelledSheet → Clashes (f.renderChars p)

variable {p : Position} {f g : Formula}

/-- A leaf that is read as a leaf and written the same way. -/
theorem reprints_leaf (hspells : Spells Operator.levels.length (f.renderChars p) g)
    (hf : f.isOperatorCall = false) (hg : g.isOperatorCall = false)
    (hnumber : ∀ x, g = .number x → ∃ y, f = .number y)
    (hfinite : f.Over Literal.isFinite) (htext : g.renderChars p = f.renderChars p) :
    Reprints p f g where
  spells := by rwa [level_of_not_isOperatorCall hf]
  ranked := ranked_of_not_isOperatorCall hg
  level_eq := by rw [level_of_not_isOperatorCall hf, level_of_not_isOperatorCall hg]
  number := hnumber
  length_eq := by rw [htext]
  text_iff := iff_of_true htext hfinite

theorem normalizes_leaf (hf : f.isOperatorCall = false) (hsheet : f.Over Literal.hasSpelledSheet)
    (h : Reprints p f g) : Normalizes p f where
  ranked := ranked_of_not_isOperatorCall hf
  reprints := fun _ => ⟨g, h⟩
  clashes := fun hnone => absurd hsheet hnone

/-! ## Numbers -/

/-- The word is read as a name, and names of columns are written in capitals. -/
theorem reprints_word {x : Number} (hfinite : x.isFinite = false) {text written : List Char}
    (hrender : x.render = text) (hspells : Spells Operator.levels.length text g)
    (hwritten : g.renderChars p = written) (hranked : g.Ranked)
    (hlevel : g.level = Operator.levels.length) (hnumber : ∀ y, g ≠ .number y)
    (hlength : written.length = text.length) (hne : written ≠ text) :
    Reprints p (.number x) g := by
  have htext : renderChars p (.number x) = text := hrender
  refine ⟨by rw [htext]; exact hspells, hranked, hlevel, fun y hy => absurd hy (hnumber y), ?_, ?_⟩
  · rw [htext, hwritten, hlength]
  · rw [htext, hwritten]
    refine iff_of_false hne fun hover => ?_
    have hx : x.isFinite = true := over_literal_iff.1 hover
    rw [hfinite] at hx
    cases hx

theorem exists_reprints_number (p : Position) (x : Number) : ∃ g, Reprints p (.number x) g := by
  have hnan : Spells Operator.levels.length "NaN".toList (.reference "NaN") :=
    spells_name (Grammar.readsWhole_name (by decide) (by decide))
  have hinf : Spells Operator.levels.length "inf".toList (.reference "inf") :=
    spells_name (Grammar.readsWhole_name (by decide) (by decide))
  have hnanChars : renderChars p (.reference "NaN") = "NAN".toList := by
    show nameChars (lower "NaN") = _
    decide +kernel
  have hinfChars : renderChars p (.reference "inf") = "INF".toList := by
    show nameChars (lower "inf") = _
    decide +kernel
  by_cases hfinite : x.isFinite = true
  · exact ⟨.number x, reprints_leaf (spells_number hfinite) rfl rfl (fun _ _ => ⟨x, rfl⟩)
      (.literal hfinite) rfl⟩
  · have hnone := eq_false_of_ne_true hfinite
    rcases Number.render_of_not_isFinite hnone with hrender | hrender | hrender
    · exact ⟨_, reprints_word hnone hrender hnan hnanChars (ranked_of_not_isOperatorCall rfl) rfl
        (fun y hy => by cases hy) rfl (by decide)⟩
    · exact ⟨_, reprints_word hnone hrender hinf hinfChars (ranked_of_not_isOperatorCall rfl) rfl
        (fun y hy => by cases hy) rfl (by decide)⟩
    · -- the sign is read as an operator in front of the name
      have hchars : renderChars p (.unary "-" (.reference "inf")) = '-' :: "INF".toList := by
        rw [renderChars_negation, hinfChars]
        rfl
      exact ⟨.unary "-" (.reference "inf"), reprints_word hnone hrender (spells_minus hinf) hchars
        (fun _ => rfl) rfl (fun y hy => by cases hy) rfl (by decide)⟩

theorem normalizes_number (p : Position) (x : Number) : Normalizes p (.number x) := by
  obtain ⟨g, hg⟩ := exists_reprints_number p x
  exact normalizes_leaf rfl (.literal rfl) hg

/-! ## Other leaves -/

theorem normalizes_text (p : Position) (value : String) : Normalizes p (.text value) := by
  have hspells := spells_text value.toList
  rw [String.ofList_toList] at hspells
  exact normalizes_leaf rfl (.literal rfl)
    (reprints_leaf hspells rfl rfl (fun x hx => by cases hx) (.literal rfl) rfl)

theorem normalizes_boolean (p : Position) (value : Bool) :
    Normalizes p (.literal (.boolean value)) :=
  normalizes_leaf rfl (.literal rfl) (reprints_leaf (spells_boolean p value) rfl rfl
    (fun x hx => by cases hx) (.literal rfl) rfl)

theorem dot_mem_of_plain {name : String} (h : Address.isSpelledSheet name = false) :
    (∀ c ∈ name.toList, Address.isPlainSheetChar c = true) ∧ '.' ∈ name.toList := by
  rw [Address.isSpelledSheet, Bool.or_eq_false_iff, Bool.not_eq_false'] at h
  obtain ⟨hname, hplain⟩ := h
  have hplain := List.all_eq_true.1 hplain
  obtain ⟨c, hc, hother⟩ := List.all_eq_false.1 hname
  -- the dot is the one plain character that names do not have
  have hdot : c = '.' := by
    have hc := hplain c hc
    rw [Address.isPlainSheetChar, Bool.or_eq_true, beq_iff_eq] at hc
    exact hc.resolve_left hother
  exact ⟨hplain, hdot ▸ hc⟩

/-- A cell that makes one token is read as itself. -/
theorem normalizes_cell {a : Address} (hwell : a.WellFormed) (hmarked : a.IsMarked) :
    Normalizes p (.cell a) where
  ranked := ranked_of_not_isOperatorCall rfl
  reprints := by
    intro hover
    have hspelled : a.sheet.all Address.isSpelledSheet = true := over_literal_iff.1 hover
    have htoken := hwell.readsWhole hmarked ((Option.all_eq_true _ _).1 hspelled)
    exact ⟨.cell a, reprints_leaf (spells_cell htoken hwell.readChars_renderChars) rfl rfl
      (fun x hx => by cases hx) (.literal rfl) rfl⟩
  clashes := by
    intro hover
    have hspelled : ¬a.sheet.all Address.isSpelledSheet = true := fun h => hover (.literal h)
    cases hsheet : a.sheet with
    | none =>
      rw [hsheet] at hspelled
      exact absurd rfl hspelled
    | some name =>
      rw [hsheet, Option.all_some] at hspelled
      obtain ⟨hplain, hdot⟩ := dot_mem_of_plain (eq_false_of_ne_true hspelled)
      have htext : renderChars p (.cell a) = name.toList ++ '!' ::
          (a.first.render ++ if a.isRange then ':' :: a.last.render else []) := by
        show a.renderChars = _
        simp only [Address.renderChars, hsheet, Address.renderSheet,
          if_pos (List.all_eq_true.2 hplain), List.append_assoc, List.cons_append,
          List.nil_append]
      rw [htext]
      exact clashes_of_dot hplain hdot _

/-! ## Names -/

theorem normalizes_name {id : String} (hname : TokenRule.isName id.toList = true)
    (hlower : lower id = id) (hboolean : TokenRule.boolean id.toList = none) :
    Normalizes p (.name id) := by
  obtain ⟨hwritten, hkeyword⟩ := isName_nameChars hname
  refine normalizes_leaf rfl (.name id) (reprints_leaf
    (spells_name (Grammar.readsWhole_name hwritten (hkeyword hboolean))) rfl rfl
    (fun x hx => by cases hx) (.name id) ?_)
  exact nameChars_again hname hlower

/-- A name that is one of the keywords is written as the keyword. -/
theorem normalizes_keyword (p : Position) (value : Bool) :
    Normalizes p (.name (if value then "true" else "false")) := by
  have htrue : nameChars "true" = "TRUE".toList := by decide +kernel
  have hfalse : nameChars "false" = "FALSE".toList := by decide +kernel
  have htext : renderChars p (.name (if value then "true" else "false")) =
      Literal.renderChars p (.boolean value) := by
    cases value with
    | true => exact htrue
    | false => exact hfalse
  refine normalizes_leaf rfl (.name _) (reprints_leaf (g := .literal (.boolean value)) ?_ rfl rfl
    (fun x hx => by cases hx) (.name _) htext.symm)
  rw [htext]
  exact spells_boolean p value

/-! ## Operators and calls -/

theorem Reprints.operand (h : Reprints p f g) (hf : f.Ranked) (parent : Nat) (onRight : Bool)
    (hle : parent + onRight.toNat ≤ Operator.levels.length + 1) :
    (operandChars parent onRight g (g.renderChars p)).length =
        (operandChars parent onRight f (f.renderChars p)).length ∧
      (operandChars parent onRight g (g.renderChars p) =
          operandChars parent onRight f (f.renderChars p) ↔ f.Over Literal.isFinite) := by
  rw [h.ranked.operandChars_eq hle, hf.operandChars_eq hle, h.level_eq, ← h.text_iff]
  have hlength := h.length_eq
  split
  · simp only [List.length_append, List.length_cons, hlength, true_and]
    refine ⟨fun heq => ?_, fun heq => by rw [heq]⟩
    exact (List.append_inj (List.cons.inj heq).2 hlength).1
  · exact ⟨hlength, Iff.rfl⟩

theorem clashes_operand {text : List Char} (h : Clashes text) (parent : Nat) (onRight : Bool)
    (f : Formula) : Clashes (operandChars parent onRight f text) := by
  unfold operandChars
  dsimp only
  split
  · apply Clashes.cons Grammar.lexesAlways_opening
    exact h.append fun rest _ => atBreak_cons rest (by decide)
  · exact h

theorem negate_of_not_number (h : ∀ x, f ≠ .number x) : Expression.negate f = .unary "-" f := by
  unfold Expression.negate
  split
  next x => exact absurd rfl (h x)
  next => rfl

theorem reprints_negation (h : Reprints p f g) (hf : f.Ranked) (hnumber : ∀ x, f ≠ .number x) :
    Reprints p (.unary "-" f) (.unary "-" g) := by
  have hg : ∀ x, g ≠ .number x := by
    intro x hx
    obtain ⟨y, hy⟩ := h.number x hx
    exact hnumber y hy
  have hspells := spells_negation h.spells
  rw [negate_of_not_number hg] at hspells
  obtain ⟨hlength, htext⟩ := h.operand hf (Operator.levels.length + 1) false (Nat.le_refl _)
  refine ⟨hspells, fun _ => rfl, rfl, fun x hx => (by cases hx), ?_, ?_⟩
  · rw [renderChars_negation, renderChars_negation, List.length_cons, List.length_cons, hlength]
  · rw [renderChars_negation, renderChars_negation, unary, over_call_iff,
      List.forall_mem_singleton, ← htext, List.cons.injEq, and_iff_right rfl]

/-- A minus in front of a number belongs to the number; any other is read as it was. -/
theorem normalizes_negate (h : Normalizes p f) : Normalizes p (Expression.negate f) := by
  by_cases hnumber : ∃ x, f = .number x
  · obtain ⟨x, rfl⟩ := hnumber
    exact normalizes_number p x.neg
  · have hnumber : ∀ x, f ≠ .number x := fun x hx => hnumber ⟨x, hx⟩
    have hover {leaf : Literal → Bool} : (unary "-" f).Over leaf ↔ f.Over leaf := by
      rw [unary, over_call_iff, List.forall_mem_singleton]
    rw [negate_of_not_number hnumber]
    refine ⟨fun _ => rfl, fun hsheet => ?_, fun hsheet => ?_⟩
    · obtain ⟨g, hg⟩ := h.reprints (hover.1 hsheet)
      exact ⟨_, reprints_negation hg h.ranked hnumber⟩
    · rw [renderChars_negation]
      have hminus : Grammar.LexesAlways ['-'] _ :=
        Grammar.lexesAlways_symbol (by decide) fun _ => rfl
      exact .cons hminus (clashes_operand (h.clashes fun hf => hsheet (hover.2 hf)) _ _ _)

theorem reprints_binary {operator : String} {left right left' right' : Formula}
    (hoperator : (Operator.strength? operator).isSome = true)
    (hleft : Reprints p left left') (hright : Reprints p right right')
    (hrankedLeft : left.Ranked) (hrankedRight : right.Ranked) :
    Reprints p (.binary operator left right) (.binary operator left' right') := by
  obtain ⟨strength, hstrength⟩ := Option.isSome_iff_exists.1 hoperator
  obtain ⟨level, -, rfl, hlt, -, -⟩ := operator_level hstrength
  obtain ⟨hlengthLeft, htextLeft⟩ := hleft.operand hrankedLeft (level + 1) false
    (by rw [Bool.toNat_false]; omega)
  obtain ⟨hlengthRight, htextRight⟩ := hright.operand hrankedRight (level + 1) true
    (by rw [Bool.toNat_true]; omega)
  refine ⟨spells_binaryCall hoperator hleft.spells hright.spells, fun _ => ?_, ?_,
    fun x hx => (by cases hx), ?_, ?_⟩
  · rw [level_binary hstrength]
    exact hstrength
  · rw [level_binary hstrength, level_binary hstrength]
  · rw [renderChars_binary hstrength, renderChars_binary hstrength]
    simp only [List.length_append, List.length_cons, hlengthLeft, hlengthRight]
  · rw [renderChars_binary hstrength, renderChars_binary hstrength, over_binary_iff, ← htextLeft,
      ← htextRight, List.append_assoc, List.append_assoc]
    constructor
    · intro heq
      obtain ⟨hfirst, hrest⟩ := List.append_inj heq hlengthLeft
      exact ⟨hfirst, (List.cons.inj (List.append_cancel_left hrest)).2⟩
    · rintro ⟨hfirst, hsecond⟩
      rw [hfirst, hsecond]

theorem clashes_binary {operators : List String} {operator : String}
    (hlevel : operators ∈ Operator.levels) (hoperator : operator ∈ operators)
    {left right : List Char}
    (h : Clashes left ∨ (∃ tokens, Grammar.Lexes left tokens) ∧ Clashes right) :
    Clashes (left ++ ' ' :: operator.toList ++ ' ' :: right) := by
  rw [List.append_assoc, List.cons_append]
  rcases h with hleft | ⟨⟨tokens, hlexes⟩, hright⟩
  · exact hleft.append fun rest _ => atBreak_cons _ (by decide)
  · have hword := Grammar.lexes_word (readsWhole_operator hlevel hoperator) (by decide)
    have hbehind : Clashes (operator.toList ++ ' ' :: right) :=
      .behind hword (.cons Grammar.lexesAlways_blank hright)
        fun rest _ => atBreak_cons _ (by decide)
    exact .behind hlexes (.cons Grammar.lexesAlways_blank hbehind)
      fun rest _ => atBreak_cons _ (by decide)

theorem normalizes_binary {operator : String} {left right : Formula}
    (hoperator : operator ∈ Operator.levels.flatten) (hleft : Normalizes p left)
    (hright : Normalizes p right) : Normalizes p (.binary operator left right) := by
  have hsome : (Operator.strength? operator).isSome = true := by
    have hall : (Operator.levels.flatten.all fun operator =>
        (Operator.strength? operator).isSome) = true := by decide
    exact List.all_eq_true.1 hall operator hoperator
  obtain ⟨strength, hstrength⟩ := Option.isSome_iff_exists.1 hsome
  obtain ⟨level, operators, rfl, hlt, hlevel, hmem⟩ := operator_level hstrength
  refine ⟨fun _ => ?_, fun hsheet => ?_, fun hsheet => ?_⟩
  · rw [level_binary hstrength]
    exact hstrength
  · obtain ⟨hover, hover'⟩ := over_binary_iff.1 hsheet
    obtain ⟨left', hreprint⟩ := hleft.reprints hover
    obtain ⟨right', hreprint'⟩ := hright.reprints hover'
    exact ⟨_, reprints_binary hsome hreprint hreprint' hleft.ranked hright.ranked⟩
  · rw [renderChars_binary hstrength]
    apply clashes_binary (List.mem_of_getElem? hlevel) hmem
    by_cases hover : left.Over Literal.hasSpelledSheet
    · obtain ⟨left', hreprint⟩ := hleft.reprints hover
      obtain ⟨tokens, hlexes, -⟩ := spells_operand false (Nat.le_of_lt hlt) hreprint.spells
      have hover' : ¬right.Over Literal.hasSpelledSheet :=
        fun h => hsheet (over_binary_iff.2 ⟨hover, h⟩)
      exact .inr ⟨⟨tokens, hlexes⟩, clashes_operand (hright.clashes hover') _ _ _⟩
    · exact .inl (clashes_operand (hleft.clashes hover) _ _ _)

/-- The first argument that clashes stands behind arguments with tokens. -/
theorem clashes_arguments {α : Type} {spelling : α → List Char} {as : List α}
    (h : ∀ a ∈ as, (∃ tokens, Grammar.Lexes (spelling a) tokens) ∨ Clashes (spelling a))
    (hclash : ∃ a ∈ as, Clashes (spelling a)) :
    Clashes (joinChars [',', ' '] (as.map spelling) ++ [')']) := by
  induction as with
  | nil =>
    obtain ⟨a, ha, -⟩ := hclash
    cases ha
  | cons a as ih =>
    obtain ⟨ha, has⟩ := List.forall_mem_cons.1 h
    cases as with
    | nil =>
      obtain ⟨b, hb, hclash⟩ := hclash
      rw [List.mem_singleton.1 hb] at hclash
      exact hclash.append fun rest _ => atBreak_cons rest (by decide)
    | cons b as =>
      have hjoin : joinChars [',', ' '] ((a :: b :: as).map spelling) ++ [')'] =
          spelling a ++
            ',' :: ' ' :: (joinChars [',', ' '] ((b :: as).map spelling) ++ [')']) := by
        simp only [List.map_cons, joinChars, List.append_assoc, List.cons_append, List.nil_append]
      have hbreak (rest : List Char) : AtBreak
          (',' :: ' ' :: (joinChars [',', ' '] ((b :: as).map spelling) ++ [')']) ++ rest) :=
        atBreak_cons _ (by decide)
      rw [hjoin]
      by_cases hfirst : Clashes (spelling a)
      · exact hfirst.append fun rest _ => hbreak rest
      · obtain ⟨tokens, hlexes⟩ := ha.resolve_right hfirst
        have hmore : ∃ c ∈ b :: as, Clashes (spelling c) := by
          obtain ⟨c, hc, hclash⟩ := hclash
          refine ⟨c, (List.mem_cons.1 hc).resolve_left ?_, hclash⟩
          rintro rfl
          exact hfirst hclash
        have hcomma : Grammar.LexesAlways [','] _ :=
          Grammar.lexesAlways_symbol (by decide) fun _ => rfl
        exact .behind hlexes (.cons hcomma (.cons Grammar.lexesAlways_blank (ih has hmore)))
          fun rest _ => hbreak rest

theorem upper_lower {id : String} (h : ∀ c ∈ id.toList, c.toNat < 128) :
    (upper (lower id)).toList = id.toList.map Char.toUpper := by
  have hlower := toList_lower h
  rw [toList_upper, hlower, List.map_map]
  · exact List.map_congr_left fun c hc => toUpper_toLower (h c hc)
  · intro c hc
    rw [hlower] at hc
    obtain ⟨d, hd, rfl⟩ := List.mem_map.1 hc
    exact toLower_lt (h d hd)

theorem upper_again {id : String} (h : ∀ c ∈ id.toList, c.toNat < 128) :
    upper (lower (upper id)) = upper id := by
  have hupper := toList_upper h
  apply String.toList_inj.1
  rw [upper_lower, hupper, List.map_map]
  · refine List.map_congr_left fun c hc => ?_
    exact forall_ascii (P := fun c => c.toUpper.toUpper = c.toUpper) (by decide) (h c hc)
  · intro c hc
    rw [hupper] at hc
    obtain ⟨d, hd, rfl⟩ := List.mem_map.1 hc
    exact toUpper_lt (h d hd)

/-- Calls are written with their names in capitals. -/
theorem reprints_namedCall {id : String} {arguments : List Formula} {value : Formula → Formula}
    (hascii : ∀ c ∈ id.toList, c.toNat < 128)
    (htoken : Grammar.formula.ReadsWhole .identifier (upper id).toList)
    (harguments : ∀ f ∈ arguments, Reprints p f (value f)) :
    Reprints p (.call .named id arguments)
      (.call .named (lower (upper id)) (arguments.map value)) := by
  have hlengths : ∀ f ∈ arguments, ((renderChars p ∘ value) f).length = (renderChars p f).length :=
    fun f hf => (harguments f hf).length_eq
  obtain ⟨hlength, htext⟩ := joinChars_congr [',', ' '] hlengths
  have hlevel (id : String) (given : List Formula) :
      (call .named id given).level = Operator.levels.length := rfl
  refine ⟨spells_namedCall value htoken fun f hf => (harguments f hf).spells,
    ranked_of_not_isOperatorCall rfl, by rw [hlevel, hlevel], fun x hx => (by cases hx), ?_, ?_⟩
  · rw [renderChars_namedCall, renderChars_namedCall, upper_again hascii, List.map_map]
    simp only [List.length_append, List.length_cons, hlength]
  · rw [renderChars_namedCall, renderChars_namedCall, upper_again hascii, List.map_map,
      List.append_cancel_left_eq, List.cons.injEq, and_iff_right rfl, List.append_cancel_right_eq,
      htext, over_call_iff]
    exact forall₂_congr fun f hf => (harguments f hf).text_iff

theorem normalizes_namedCall {id : String} {arguments : List Formula}
    (hascii : ∀ c ∈ id.toList, c.toNat < 128)
    (htoken : Grammar.formula.ReadsWhole .identifier (upper id).toList)
    (harguments : ∀ f ∈ arguments, Normalizes p f) :
    Normalizes p (.call .named id arguments) := by
  refine ⟨ranked_of_not_isOperatorCall rfl, fun hsheet => ?_, fun hsheet => ?_⟩
  · have hover := over_call_iff.1 hsheet
    choose! value hvalue using fun f hf => (harguments f hf).reprints (hover f hf)
    exact ⟨_, reprints_namedCall hascii htoken hvalue⟩
  · have hword := Grammar.lexes_word htoken (by decide)
    rw [over_call_iff] at hsheet
    push Not at hsheet
    obtain ⟨f, hf, hover⟩ := hsheet
    rw [renderChars_namedCall]
    refine .behind hword (.cons Grammar.lexesAlways_opening (clashes_arguments (fun g hg => ?_)
      ⟨f, hf, (harguments f hf).clashes hover⟩)) fun rest _ => atBreak_cons _ (by decide)
    by_cases hover : g.Over Literal.hasSpelledSheet
    · obtain ⟨g', hreprint⟩ := (harguments g hg).reprints hover
      obtain ⟨tokens, hlexes, -⟩ := hreprint.spells
      exact .inl ⟨tokens, hlexes⟩
    · exact .inr ((harguments g hg).clashes hover)

end Formula
end Spreadsheet
