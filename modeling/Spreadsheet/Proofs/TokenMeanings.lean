import Spreadsheet.Proofs.DefinitionGrammar

/-!
What tokens mean to the readers. Of the text of a token only an operator is looked at, and a name
in lower case; a leaf is what it converts to, and of all other tokens only the kind matters. Main
statement: rows of tokens with the same meanings are read as the same formula or section.
-/
namespace Spreadsheet

open Expression

namespace Token

/-- The name that an identifier stands for, or the operator. -/
def name (t : Token) : String :=
  match t.kind with
  | .identifier => Text.lower t.text
  | .operator => t.text
  | _ => ""

/-- The formula that a leaf converts to. -/
def value? (t : Token) : Option Formula :=
  (leaf? t).bind Except.toOption

/-- All that the readers know of a token. -/
def meaning (t : Token) : TokenKind × String × Option Formula :=
  (t.kind, t.name, t.value?)

variable {t t' : Token}

theorem value?_eq_some_iff {f : Formula} : t.value? = some f ↔ leaf? t = some (.ok f) := by
  unfold value?
  cases leaf? t with
  | none => simp
  | some result => cases result <;> simp [Except.toOption]

theorem value?_date (hkind : t.kind = .date) :
    t.value? = (Date.read t.text.toList).map fun date => .literal (.date date) := by
  simp only [value?, leaf?, hkind]
  cases Date.read t.text.toList <;> rfl

theorem value?_address (hkind : t.kind = .address) :
    t.value? = (Address.readChars t.text.toList).map Formula.cell := by
  simp only [value?, leaf?, hkind]
  cases Address.readChars t.text.toList <;> rfl

/-- Where a token stands makes no difference. -/
theorem meaning_congr (hkind : t'.kind = t.kind) (htext : t'.text = t.text) :
    t'.meaning = t.meaning := by
  have hname : t'.name = t.name := by rw [name, name, hkind, htext]
  have hvalue : t'.value? = t.value? := by
    cases h : t.kind with
    | date => rw [value?_date h, value?_date (hkind.trans h), htext]
    | address => rw [value?_address h, value?_address (hkind.trans h), htext]
    | _ => simp only [value?, leaf?, hkind, htext, h]
  rw [meaning, meaning, hkind, hname, hvalue]

theorem kind_of_meaning (h : t'.meaning = t.meaning) : t'.kind = t.kind :=
  congrArg Prod.fst h

theorem text_of_meaning (h : t'.meaning = t.meaning) (hkind : t.kind = .operator) :
    t'.text = t.text := by
  have hname : t'.name = t.name := congrArg (·.2.1) h
  rwa [name, name, kind_of_meaning h, hkind] at hname

theorem lower_of_meaning (h : t'.meaning = t.meaning) (hkind : t.kind = .identifier) :
    Text.lower t'.text = Text.lower t.text := by
  have hname : t'.name = t.name := congrArg (·.2.1) h
  rwa [name, name, kind_of_meaning h, hkind] at hname

theorem converts_of_meaning (h : t'.meaning = t.meaning) (hconverts : t.Converts) :
    t'.Converts := by
  by_cases hleaf : t.kind.isLeaf = true
  · obtain ⟨f, hf⟩ := exists_leaf_iff.2 ⟨hleaf, hconverts⟩
    have hvalue : t'.value? = t.value? := congrArg (·.2.2) h
    rw [value?_eq_some_iff.2 hf] at hvalue
    exact (exists_leaf_iff.1 ⟨f, value?_eq_some_iff.1 hvalue⟩).2
  · exact converts_of_kind (kind_of_meaning h) (eq_false_of_ne_true hleaf)

end Token

/-- Rows of tokens with the same meanings. -/
abbrev SameMeanings (ts ts' : List Token) : Prop :=
  ts'.map Token.meaning = ts.map Token.meaning

namespace SameMeanings

variable {t : Token} {ts ts' : List Token}

theorem exists_cons (h : SameMeanings (t :: ts) ts') :
    ∃ t' rest, ts' = t' :: rest ∧ t'.meaning = t.meaning ∧ SameMeanings ts rest :=
  List.map_eq_cons_iff.1 h

theorem exists_append {front back : List Token} (h : SameMeanings (front ++ back) ts') :
    ∃ front' back', ts' = front' ++ back' ∧ SameMeanings front front' ∧
      SameMeanings back back' := by
  unfold SameMeanings at h
  rw [List.map_append] at h
  exact List.map_eq_append_iff.1 h

theorem converts (h : SameMeanings ts ts') (hconverts : ∀ t ∈ ts, t.Converts) :
    ∀ t ∈ ts', t.Converts := by
  induction ts generalizing ts' with
  | nil =>
    rw [List.map_eq_nil_iff.1 h]
    exact List.forall_mem_nil _
  | cons t ts ih =>
    obtain ⟨hfirst, hrest⟩ := List.forall_mem_cons.1 hconverts
    obtain ⟨t', rest, rfl, hsame, hmore⟩ := h.exists_cons
    exact List.forall_mem_cons.2 ⟨Token.converts_of_meaning hsame hfirst, ih hmore hrest⟩

end SameMeanings

namespace Expression.Derivation

/-- Tokens of the same meanings have a derivation of the same tree. -/
theorem exists_sameMeanings {s : Symbol} (d : Derivation s) {ts : List Token}
    (h : SameMeanings d.tokens ts) : ∃ d' : Derivation s, d'.tokens = ts ∧ d'.tree = d.tree := by
  induction d generalizing ts with
  | unary operand ih =>
    obtain ⟨operand', rfl, htree⟩ := ih h
    exact ⟨.unary operand', rfl, htree⟩
  | operands first rest ihFirst ihRest =>
    obtain ⟨front, back, rfl, hfront, hback⟩ := h.exists_append
    obtain ⟨first', rfl, hfirst⟩ := ihFirst hfront
    obtain ⟨rest', rfl, hrest⟩ := ihRest hback
    exact ⟨.operands first' rest', rfl, by rw [tree, tree, hfirst, hrest]⟩
  | noMore =>
    rw [List.map_eq_nil_iff.1 h]
    exact ⟨.noMore, rfl, rfl⟩
  | more t hkind htext operand rest ihOperand ihRest =>
    obtain ⟨t', more, rfl, hsame, hmore⟩ := h.exists_cons
    obtain ⟨front, back, rfl, hfront, hback⟩ := hmore.exists_append
    obtain ⟨operand', rfl, hoperand⟩ := ihOperand hfront
    obtain ⟨rest', rfl, hrest⟩ := ihRest hback
    have hoperator := Token.text_of_meaning hsame hkind
    refine ⟨.more t' ((Token.kind_of_meaning hsame).trans hkind) (hoperator ▸ htext) operand' rest',
      rfl, ?_⟩
    rw [tree, tree, hoperator, hoperand, hrest]
  | sign t hkind htext operand ih =>
    obtain ⟨t', more, rfl, hsame, hmore⟩ := h.exists_cons
    obtain ⟨operand', rfl, hoperand⟩ := ih hmore
    have hoperator := Token.text_of_meaning hsame hkind
    refine ⟨.sign t' ((Token.kind_of_meaning hsame).trans hkind) (hoperator ▸ htext) operand', rfl,
      ?_⟩
    rw [tree, tree, hoperator, hoperand]
  | primary operand ih =>
    obtain ⟨operand', rfl, htree⟩ := ih h
    exact ⟨.primary operand', rfl, htree⟩
  | leaf t hkind =>
    obtain ⟨t', more, rfl, hsame, hmore⟩ := h.exists_cons
    cases List.map_eq_nil_iff.1 hmore
    -- a leaf that does not convert has no value, and neither has the other one
    have hvalue : t'.value? = t.value? := congrArg (·.2.2) hsame
    refine ⟨.leaf t' ((Token.kind_of_meaning hsame).symm ▸ hkind), rfl, ?_⟩
    exact congrArg (Option.getD · default) hvalue
  | name t hkind =>
    obtain ⟨t', more, rfl, hsame, hmore⟩ := h.exists_cons
    cases List.map_eq_nil_iff.1 hmore
    refine ⟨.name t' ((Token.kind_of_meaning hsame).trans hkind), rfl, ?_⟩
    exact congrArg Formula.name (Token.lower_of_meaning hsame hkind)
  | call t opening closing hkind hopening hclosing given ih =>
    obtain ⟨t', more, rfl, hsame, hmore⟩ := h.exists_cons
    obtain ⟨opening', more, rfl, hsameOpening, hmore⟩ := hmore.exists_cons
    obtain ⟨front, back, rfl, hfront, hback⟩ := hmore.exists_append
    obtain ⟨closing', more, rfl, hsameClosing, hmore⟩ := hback.exists_cons
    cases List.map_eq_nil_iff.1 hmore
    obtain ⟨given', rfl, hgiven⟩ := ih hfront
    refine ⟨.call t' opening' closing' ((Token.kind_of_meaning hsame).trans hkind)
      ((Token.kind_of_meaning hsameOpening).trans hopening)
      ((Token.kind_of_meaning hsameClosing).trans hclosing) given', rfl, ?_⟩
    rw [tree, tree, Formula.namedCall, Formula.namedCall, Token.lower_of_meaning hsame hkind, hgiven]
  | parentheses opening closing hopening hclosing inner ih =>
    obtain ⟨opening', more, rfl, hsameOpening, hmore⟩ := h.exists_cons
    obtain ⟨front, back, rfl, hfront, hback⟩ := hmore.exists_append
    obtain ⟨closing', more, rfl, hsameClosing, hmore⟩ := hback.exists_cons
    cases List.map_eq_nil_iff.1 hmore
    obtain ⟨inner', rfl, hinner⟩ := ih hfront
    exact ⟨.parentheses opening' closing' ((Token.kind_of_meaning hsameOpening).trans hopening)
      ((Token.kind_of_meaning hsameClosing).trans hclosing) inner', rfl, hinner⟩
  | noArguments =>
    rw [List.map_eq_nil_iff.1 h]
    exact ⟨.noArguments, rfl, rfl⟩
  | arguments list ih =>
    obtain ⟨list', rfl, htree⟩ := ih h
    exact ⟨.arguments list', rfl, htree⟩
  | lastArgument argument ih =>
    obtain ⟨argument', rfl, htree⟩ := ih h
    exact ⟨.lastArgument argument', rfl, by rw [tree, tree, htree]⟩
  | moreArguments argument comma hcomma rest ihArgument ihRest =>
    obtain ⟨front, back, rfl, hfront, hback⟩ := h.exists_append
    obtain ⟨comma', more, rfl, hsame, hmore⟩ := hback.exists_cons
    obtain ⟨argument', rfl, hargument⟩ := ihArgument hfront
    obtain ⟨rest', rfl, hrest⟩ := ihRest hmore
    exact ⟨.moreArguments argument' comma' ((Token.kind_of_meaning hsame).trans hcomma) rest', rfl,
      by rw [tree, tree, hargument, hrest]⟩

end Expression.Derivation

theorem Formula.ofTokens_sameMeanings {ts ts' : List Token} {finish : Token} {f : Formula}
    (h : SameMeanings ts ts') (hread : Formula.ofTokens finish ts = .ok f) (finish' : Token) :
    Formula.ofTokens finish' ts' = .ok f := by
  obtain ⟨d, rfl, hconverts, rfl⟩ := (Definitions.formula_ofTokens_iff finish ts f).1 hread
  obtain ⟨d', rfl, htree⟩ := d.exists_sameMeanings h
  exact (Definitions.formula_ofTokens_iff finish' _ _).2 ⟨d', rfl, h.converts hconverts, htree⟩

namespace Definitions

theorem FormalList.exists_sameMeanings (l : FormalList) {ts : List Token}
    (h : SameMeanings l.tokens ts) : ∃ l' : FormalList, l'.tokens = ts ∧ l'.names = l.names := by
  induction l generalizing ts with
  | last t hkind =>
    obtain ⟨t', more, rfl, hsame, hmore⟩ := h.exists_cons
    cases List.map_eq_nil_iff.1 hmore
    refine ⟨.last t' ((Token.kind_of_meaning hsame).trans hkind), rfl, ?_⟩
    rw [names, names, Token.lower_of_meaning hsame hkind]
  | more t comma hkind hcomma rest ih =>
    obtain ⟨t', more, rfl, hsame, hmore⟩ := h.exists_cons
    obtain ⟨comma', more, rfl, hsameComma, hmore⟩ := hmore.exists_cons
    obtain ⟨rest', rfl, hnames⟩ := ih hmore
    refine ⟨.more t' comma' ((Token.kind_of_meaning hsame).trans hkind)
      ((Token.kind_of_meaning hsameComma).trans hcomma) rest', rfl, ?_⟩
    rw [names, names, Token.lower_of_meaning hsame hkind, hnames]

theorem formals_exists_sameMeanings (o : Option FormalList) {ts : List Token}
    (h : SameMeanings (o.elim [] FormalList.tokens) ts) : ∃ o' : Option FormalList,
      o'.elim [] FormalList.tokens = ts ∧
        o'.elim [] FormalList.names = o.elim [] FormalList.names := by
  cases o with
  | none =>
    rw [List.map_eq_nil_iff.1 h]
    exact ⟨none, rfl, rfl⟩
  | some l =>
    obtain ⟨l', htokens, hnames⟩ := l.exists_sameMeanings h
    exact ⟨some l', htokens, hnames⟩

/-- Tokens of the same meanings have a definition that says the same. -/
theorem Definition.exists_sameMeanings (d : Definition) {ts : List Token}
    (h : SameMeanings d.tokens ts) : ∃ d' : Definition, d'.tokens = ts ∧ d'.formals = d.formals ∧
      d'.value? = d.value? ∧ d'.function? = d.function? := by
  cases d with
  | assignment t assign hkind hassign value =>
    obtain ⟨t', more, rfl, hsame, hmore⟩ := h.exists_cons
    obtain ⟨assign', more, rfl, hsameAssign, hmore⟩ := hmore.exists_cons
    obtain ⟨value', rfl, hvalue⟩ := value.exists_sameMeanings hmore
    refine ⟨.assignment t' assign' ((Token.kind_of_meaning hsame).trans hkind)
      ((Token.kind_of_meaning hsameAssign).trans hassign) value', rfl, rfl, ?_, rfl⟩
    rw [value?, value?, Token.lower_of_meaning hsame hkind, hvalue]
  | function define t opening closing hdefine hkind hopening hclosing formals body =>
    obtain ⟨define', more, rfl, hsameDefine, hmore⟩ := h.exists_cons
    obtain ⟨t', more, rfl, hsame, hmore⟩ := hmore.exists_cons
    obtain ⟨opening', more, rfl, hsameOpening, hmore⟩ := hmore.exists_cons
    obtain ⟨front, back, rfl, hfront, hback⟩ := hmore.exists_append
    obtain ⟨closing', last, rfl, hsameClosing, hlast⟩ := hback.exists_cons
    obtain ⟨formals', rfl, hnames⟩ := formals_exists_sameMeanings formals hfront
    obtain ⟨body', rfl, hbody⟩ := body.exists_sameMeanings hlast
    refine ⟨.function define' t' opening' closing' ((Token.kind_of_meaning hsameDefine).trans hdefine)
      ((Token.kind_of_meaning hsame).trans hkind)
      ((Token.kind_of_meaning hsameOpening).trans hopening)
      ((Token.kind_of_meaning hsameClosing).trans hclosing) formals' body', rfl, hnames, rfl, ?_⟩
    rw [function?, function?, Function.define, Function.define, Token.lower_of_meaning hsame hkind,
      hnames, hbody]

theorem definitions_exists_sameMeanings (ds : List Definition) {ts : List Token}
    (h : SameMeanings (ds.flatMap Definition.tokens) ts) : ∃ ds' : List Definition,
      ds'.flatMap Definition.tokens = ts ∧ ds'.map Definition.formals = ds.map Definition.formals ∧
        ofDefinitions ds' = ofDefinitions ds := by
  induction ds generalizing ts with
  | nil =>
    rw [List.map_eq_nil_iff.1 h]
    exact ⟨[], rfl, rfl, rfl⟩
  | cons d ds ih =>
    rw [List.flatMap_cons] at h
    obtain ⟨front, back, rfl, hfront, hback⟩ := h.exists_append
    obtain ⟨d', rfl, hformals, hvalue, hfunction⟩ := d.exists_sameMeanings hfront
    obtain ⟨ds', rfl, hmore, hsame⟩ := ih hback
    refine ⟨d' :: ds', rfl, ?_, ?_⟩
    · rw [List.map_cons, List.map_cons, hformals, hmore]
    · rw [ofDefinitions_cons, ofDefinitions_cons, hsame, add, add, hvalue, hfunction]

theorem ofTokens_sameMeanings {ts ts' : List Token} {finish : Token} {d : Definitions}
    (h : SameMeanings ts ts') (hread : ofTokens finish ts = .ok d) (finish' : Token) :
    ofTokens finish' ts' = .ok d := by
  obtain ⟨ds, rfl, hconverts, hnodup, rfl⟩ := (ofTokens_iff finish ts d).1 hread
  obtain ⟨ds', rfl, hformals, hsame⟩ := definitions_exists_sameMeanings ds h
  refine (ofTokens_iff finish' _ _).2 ⟨ds', rfl, h.converts hconverts, ?_, hsame⟩
  rw [← List.forall_mem_map (f := Definition.formals) (P := List.Nodup)] at hnodup ⊢
  rwa [hformals]

end Definitions

/-! ## Texts

What is read from a text is what is read from its tokens. -/

/-- What stands behind the first character that is no blank, which is the `=` of a formula. -/
def Formula.body (input : String) : List Char :=
  (Text.trimStart input.toList).tail

theorem Formula.parseBody_eq_ok_iff {body : List Char} {f : Formula} :
    Formula.parseBody body = .ok f ↔ ∃ ts, Grammar.formula.tokens body = .ok ts ∧
      Formula.ofTokens (Grammar.finish body) ts = .ok f := by
  unfold Formula.parseBody
  cases Grammar.formula.tokens body with
  | error misfit => simp
  | ok ts =>
    dsimp only
    cases hread : Formula.ofTokens (Grammar.finish body) ts <;> simp [hread]

theorem Formula.parse_eq_ok_iff {input : String} {f : Formula} :
    Formula.parse input = .ok f ↔ Text.trimStart input.toList = '=' :: Formula.body input ∧
      Formula.parseBody (Formula.body input) = .ok f := by
  unfold Formula.parse Formula.body
  split
  next body hinput => rw [hinput, List.tail_cons, and_iff_right rfl]
  next hother =>
    refine iff_of_false (fun h => by cases h) ?_
    rintro ⟨hinput, -⟩
    exact hother _ hinput

theorem Definitions.parse_eq_ok_iff {input : String} {d : Definitions} :
    Definitions.parse input = .ok d ↔ ∃ ts, Grammar.definitions.tokens input.toList = .ok ts ∧
      Definitions.ofTokens (Grammar.finish input.toList) ts = .ok d := by
  unfold Definitions.parse
  dsimp only
  cases Grammar.definitions.tokens input.toList with
  | error misfit => simp
  | ok ts =>
    dsimp only
    cases hread : Definitions.ofTokens (Grammar.finish input.toList) ts <;> simp [hread]

end Spreadsheet
