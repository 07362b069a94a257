import Spreadsheet.Formula.Parser
import Spreadsheet.Formula.Render
import Spreadsheet.Proofs.ExpressionReading
import Spreadsheet.Proofs.FormulaTokens

/-!
Texts that spell formulas. A text spells a formula at a level of operators when its tokens are
read as the formula there. Parentheses, signs, calls and operators put spelled texts together, in
the way in which formulas are written.
-/
namespace Spreadsheet

open Text Expression

/-- The text is read as `f` where an operand for the operators of the given level is wanted. -/
def Spells (level : Nat) (text : List Char) (f : Formula) : Prop :=
  ∃ tokens : Nat → List Token,
    Grammar.Lexes text tokens ∧ ∀ offset, Readable level (tokens offset) f

/-- The text is read as the arguments of a call, up to the closing parenthesis. -/
def SpellsArguments (text : List Char) (arguments : List Formula) : Prop :=
  ∃ tokens : Nat → List Token,
    Grammar.LexesAlways text tokens ∧ ∀ offset, ReadableArguments (tokens offset) arguments

variable {level level' : Nat} {text left right : List Char} {f g : Formula}

theorem Spells.weaken_to (h : Spells level' text f) (hle : level ≤ level')
    (hlevel : level' ≤ Operator.levels.length) : Spells level text f := by
  obtain ⟨tokens, hlexes, hreadable⟩ := h
  exact ⟨tokens, hlexes, fun offset => (hreadable offset).weaken_to hle hlevel⟩

theorem spells_leaf {kind : TokenKind} (h : Grammar.formula.ReadsWhole kind text)
    (htext : kind ≠ .text) (hoperator : kind ≠ .operator)
    (hleaf : ∀ offset, leaf? { kind := kind, text := String.ofList text, offset := offset } =
      some (.ok f)) : Spells Operator.levels.length text f :=
  ⟨_, Grammar.lexes_word h htext, fun offset => readable_leaf hoperator (hleaf offset)⟩

theorem spells_name (h : Grammar.formula.ReadsWhole .identifier text) :
    Spells Operator.levels.length text (.reference (String.ofList text)) :=
  ⟨_, Grammar.lexes_word h (by decide), fun _ => readable_name rfl⟩

theorem unquote_enclose (s : List Char) : unquote (enclose '"' s) = s := by
  unfold unquote enclose
  rw [List.cons_append, List.tail_cons, List.dropLast_concat, undouble_double]

theorem spells_text (s : List Char) :
    Spells Operator.levels.length (enclose '"' s) (.text (String.ofList s)) := by
  refine ⟨_, Grammar.lexes_text s, fun offset => readable_leaf (fun h => nomatch h) ?_⟩
  change some (Except.ok (Formula.text (String.ofList (unquote _)))) = _
  rw [String.toList_ofList, unquote_enclose]

theorem spells_minus (h : Spells Operator.levels.length text f) :
    Spells Operator.levels.length ('-' :: text) (negate f) := by
  obtain ⟨tokens, hlexes, hreadable⟩ := h
  have hminus : Grammar.LexesAlways ['-'] _ := Grammar.lexesAlways_symbol (by decide) fun _ => rfl
  exact ⟨_, hminus.cons hlexes, fun offset => readable_minus rfl rfl (hreadable _)⟩

theorem spells_parentheses (h : Spells 0 text f) :
    Spells Operator.levels.length ('(' :: text ++ [')']) f := by
  obtain ⟨tokens, hlexes, hreadable⟩ := h
  have hinner := hlexes.append Grammar.lexesAlways_closing
    fun rest _ => atBreak_cons rest (by decide)
  have hall := Grammar.lexesAlways_opening.cons hinner
  refine ⟨_, fun offset rest _ => hall offset rest trivial, fun offset => ?_⟩
  exact readable_parentheses rfl rfl (hreadable _)

theorem spellsArguments_none : SpellsArguments [')'] [] :=
  ⟨_, Grammar.lexesAlways_closing, fun _ => readableArguments_none rfl⟩

/-- Arguments with commas between them. -/
theorem spellsList {α : Type} (spelling : α → List Char) (value : α → Formula) (a : α)
    (as : List α) (h : ∀ b ∈ a :: as, Spells 0 (spelling b) (value b)) :
    ∃ tokens : Nat → List Token,
      Grammar.LexesAlways (joinChars [',', ' '] ((a :: as).map spelling) ++ [')']) tokens ∧
        ∀ offset, ReadableList (tokens offset) ((a :: as).map value) := by
  induction as generalizing a with
  | nil =>
    obtain ⟨tokens, hlexes, hreadable⟩ := h a List.mem_cons_self
    have hclosed := hlexes.append Grammar.lexesAlways_closing
      fun rest _ => atBreak_cons rest (by decide)
    exact ⟨_, hclosed, fun offset => readableList_last rfl (hreadable offset)⟩
  | cons b as ih =>
    obtain ⟨tokens, hlexes, hreadable⟩ := h a List.mem_cons_self
    obtain ⟨more, hmore, hlist⟩ := ih b fun c hc => h c (List.mem_cons_of_mem a hc)
    have hcomma : Grammar.LexesAlways [','] _ :=
      Grammar.lexesAlways_symbol (by decide) fun _ => rfl
    have hjoined := hlexes.append (hcomma.cons (Grammar.lexesAlways_blank.cons hmore))
      fun rest _ => atBreak_cons _ (by decide)
    have hjoin : joinChars [',', ' '] ((a :: b :: as).map spelling) ++ [')'] =
        spelling a ++ ',' :: ' ' :: (joinChars [',', ' '] ((b :: as).map spelling) ++ [')']) := by
      simp only [List.map_cons, joinChars, List.append_assoc, List.cons_append, List.nil_append]
    rw [hjoin]
    exact ⟨_, hjoined, fun offset => readableList_more rfl (hreadable offset) (hlist _)⟩

theorem spellsArguments {α : Type} (spelling : α → List Char) (value : α → Formula) (as : List α)
    (h : ∀ a ∈ as, Spells 0 (spelling a) (value a)) :
    SpellsArguments (joinChars [',', ' '] (as.map spelling) ++ [')']) (as.map value) := by
  cases as with
  | nil => exact spellsArguments_none
  | cons a as =>
    obtain ⟨tokens, hlexes, hreadable⟩ := spellsList spelling value a as h
    exact ⟨tokens, hlexes, fun offset => (hreadable offset).arguments⟩

theorem spells_call {name : List Char} {arguments : List Formula}
    (hname : Grammar.formula.ReadsWhole .identifier name)
    (harguments : SpellsArguments text arguments) :
    Spells Operator.levels.length (name ++ '(' :: text)
      (.namedCall (String.ofList name) arguments) := by
  obtain ⟨tokens, hlexes, hreadable⟩ := harguments
  have hcall := (Grammar.lexes_word hname (by decide)).append
    (Grammar.lexesAlways_opening.cons hlexes) fun rest _ => atBreak_cons _ (by decide)
  exact ⟨_, fun offset rest _ => hcall offset rest trivial,
    fun offset => readable_call rfl rfl (hreadable _)⟩

theorem readsWhole_operator {operators : List String} {operator : String}
    (hlevel : operators ∈ Operator.levels) (hoperator : operator ∈ operators) :
    Grammar.formula.ReadsWhole .operator operator.toList := by
  have hall : ∀ operators ∈ Operator.levels, ∀ operator ∈ operators,
      operator.toList.head?.map isBlank = some false ∧
        Grammar.formula.firstMatch? operator.toList =
          some (some .operator, operator.toList.length) := by
    decide
  obtain ⟨hfirst, hmatch⟩ := hall operators hlevel operator hoperator
  exact Grammar.readsWhole_of_firstMatch? hfirst hmatch

theorem spells_binary {operators : List String} {operator : String}
    (hlevel : Operator.levels[level]? = some operators) (hoperator : operator ∈ operators)
    (hleft : Spells level left f) (hright : Spells (level + 1) right g) :
    Spells level (left ++ ' ' :: operator.toList ++ ' ' :: right) (.binary operator f g) := by
  obtain ⟨tokens, hlexes, hreadable⟩ := hleft
  obtain ⟨tokens', hlexes', hreadable'⟩ := hright
  have hword := Grammar.lexes_word
    (readsWhole_operator (List.mem_of_getElem? hlevel) hoperator) (by decide)
  rw [String.ofList_toList] at hword
  have hmiddle := Grammar.lexesAlways_blank.cons (hword.append
    (Grammar.lexesAlways_blank.cons hlexes') fun rest _ => atBreak_cons _ (by decide))
  have hall := hlexes.append hmiddle fun rest _ => atBreak_cons _ (by decide)
  rw [List.append_assoc, List.cons_append]
  refine ⟨_, hall, fun offset => ?_⟩
  exact readable_binary hlevel rfl hoperator (hreadable offset) (hreadable' _)

/-- A spelled text is the text of the formula. -/
theorem parseBody_of_spells (h : Spells 0 text f) : Formula.parseBody text = .ok f := by
  obtain ⟨tokens, hlexes, hreadable⟩ := h
  have htokens : Grammar.formula.tokens text = .ok (tokens 0) := by
    have hall := hlexes 0 [] atBreak_nil
    rw [List.append_nil] at hall
    rw [Grammar.tokens, hall]
    exact congrArg Except.ok (List.append_nil _)
  have hstops : Stops 0 [] := by
    intro t ht
    cases ht
  have hread : Reads (Expression.read (Grammar.finish text) (tokens 0 ++ [])) f [] :=
    (hreadable 0).reads hstops
  rw [List.append_nil] at hread
  obtain ⟨hrest, hread⟩ := hread
  have hne : ¬(tokens 0).isEmpty = true := by
    intro hempty
    rw [List.isEmpty_iff.1 hempty] at hrest
    cases hrest
  unfold Formula.parseBody
  rw [htokens]
  dsimp only
  rw [Formula.ofTokens, if_neg hne, hread]

end Spreadsheet
