import Spreadsheet.Proofs.ExpressionReading

/-!
The grammar of expressions. A derivation is a tree of the rules, with the tokens that they take at
its leaves; no two derivations have the same tokens, also where others follow them that cannot go
on with the expression.
-/
namespace Spreadsheet

/-- The kinds of token that are an operand by themselves. -/
def TokenKind.isLeaf : TokenKind → Bool
  | .number | .text | .boolean | .date | .address | .dollarName => true
  | _ => false

namespace Expression

/-- The symbols of the grammar. The operands of a level are those of the tighter levels. -/
inductive Symbol where
  | level (levels : List (List String))
  | chain (operators : List String) (tighter : List (List String))
  | unary
  | primary
  | arguments
  | argumentList

/-- Where the grammar starts. -/
abbrev Symbol.expression : Symbol :=
  .level Operator.levels

/-- The rules of the grammar. -/
inductive Derivation : Symbol → Type
  | unary (operand : Derivation .unary) : Derivation (.level [])
  | operands {operators : List String} {tighter : List (List String)}
    (first : Derivation (.level tighter)) (rest : Derivation (.chain operators tighter)) :
    Derivation (.level (operators :: tighter))
  | noMore {operators : List String} {tighter : List (List String)} :
    Derivation (.chain operators tighter)
  | more {operators : List String} {tighter : List (List String)} (t : Token)
    (hkind : t.kind = .operator) (htext : t.text ∈ operators)
    (operand : Derivation (.level tighter)) (rest : Derivation (.chain operators tighter)) :
    Derivation (.chain operators tighter)
  | sign (t : Token) (hkind : t.kind = .operator) (htext : t.text = "-" ∨ t.text = "+")
    (operand : Derivation .unary) : Derivation .unary
  | primary (operand : Derivation .primary) : Derivation .unary
  | leaf (t : Token) (hkind : t.kind.isLeaf = true) : Derivation .primary
  | name (t : Token) (hkind : t.kind = .identifier) : Derivation .primary
  | call (t opening closing : Token) (hkind : t.kind = .identifier)
    (hopening : opening.kind = .opening) (hclosing : closing.kind = .closing)
    (given : Derivation .arguments) : Derivation .primary
  | parentheses (opening closing : Token) (hopening : opening.kind = .opening)
    (hclosing : closing.kind = .closing) (inner : Derivation .expression) : Derivation .primary
  | noArguments : Derivation .arguments
  | arguments (list : Derivation .argumentList) : Derivation .arguments
  | lastArgument (argument : Derivation .expression) : Derivation .argumentList
  | moreArguments (argument : Derivation .expression) (comma : Token)
    (hcomma : comma.kind = .comma) (rest : Derivation .argumentList) : Derivation .argumentList

/-- What the tree of a derivation is: for a chain its operators, each with its right operand. -/
abbrev Symbol.Value : Symbol → Type
  | .chain _ _ => List (String × Formula)
  | .arguments | .argumentList => List Formula
  | _ => Formula

namespace Derivation

/-- The tokens of a derivation. -/
def tokens : {s : Symbol} → Derivation s → List Token
  | _, .unary operand => operand.tokens
  | _, .operands first rest => first.tokens ++ rest.tokens
  | _, .noMore => []
  | _, .more t _ _ operand rest => t :: (operand.tokens ++ rest.tokens)
  | _, .sign t _ _ operand => t :: operand.tokens
  | _, .primary operand => operand.tokens
  | _, .leaf t _ => [t]
  | _, .name t _ => [t]
  | _, .call t opening closing _ _ _ given => t :: opening :: (given.tokens ++ [closing])
  | _, .parentheses opening closing _ _ inner => opening :: (inner.tokens ++ [closing])
  | _, .noArguments => []
  | _, .arguments list => list.tokens
  | _, .lastArgument argument => argument.tokens
  | _, .moreArguments argument comma _ rest => argument.tokens ++ comma :: rest.tokens

/-- The operands of one level, grouped to the left. -/
def foldLeft (first : Formula) (rest : List (String × Formula)) : Formula :=
  rest.foldl (fun left (operator, right) => .binary operator left right) first

/-- The tree of a derivation. A plus sign leaves no trace, and a minus sign in front of a number
belongs to the number. A leaf that does not convert has no tree of its own. -/
def tree : {s : Symbol} → Derivation s → s.Value
  | _, .unary operand => operand.tree
  | _, .operands first rest => foldLeft first.tree rest.tree
  | _, .noMore => []
  | _, .more t _ _ operand rest => (t.text, operand.tree) :: rest.tree
  | _, .sign t _ _ operand => if t.text = "-" then negate operand.tree else operand.tree
  | _, .primary operand => operand.tree
  | _, .leaf t _ => ((leaf? t).bind Except.toOption).getD default
  | _, .name t _ => .reference t.text
  | _, .call t _ _ _ _ _ given => .namedCall t.text given.tree
  | _, .parentheses _ _ _ _ inner => inner.tree
  | _, .noArguments => []
  | _, .arguments list => list.tree
  | _, .lastArgument argument => [argument.tree]
  | _, .moreArguments argument _ _ rest => argument.tree :: rest.tree

end Derivation

/-! ## What stands first and what may follow -/

/-- What the tokens of a symbol start with. -/
def Symbol.Starts : Symbol → List Token → Prop
  | .level _, ts | .unary, ts | .argumentList, ts => ∃ t rest, ts = t :: rest ∧ t.kind ≠ .closing
  | .primary, ts => ∃ t rest, ts = t :: rest ∧ t.kind ≠ .closing ∧ t.kind ≠ .operator
  | .chain operators _, ts => ∀ t ∈ ts.head?, t.kind = .operator ∧ t.text ∈ operators
  | .arguments, _ => True

theorem Derivation.starts {s : Symbol} (d : Derivation s) : s.Starts d.tokens := by
  induction d with
  | unary operand ih => exact ih
  | operands first rest ih _ =>
    obtain ⟨t, tail, hfirst, hkind⟩ := ih
    exact ⟨t, tail ++ rest.tokens, by rw [tokens, hfirst, List.cons_append], hkind⟩
  | noMore => exact fun t ht => nomatch ht
  | more t hkind htext operand rest _ _ =>
    intro head hhead
    cases hhead
    exact ⟨hkind, htext⟩
  | sign t hkind htext operand _ => exact ⟨t, operand.tokens, rfl, by simp [hkind]⟩
  | primary operand ih =>
    obtain ⟨t, rest, hfirst, hkind, _⟩ := ih
    exact ⟨t, rest, hfirst, hkind⟩
  | leaf t hkind => refine ⟨t, [], rfl, ?_, ?_⟩ <;> intro h <;> simp [h, TokenKind.isLeaf] at hkind
  | name t hkind => exact ⟨t, [], rfl, by simp [hkind]⟩
  | call t opening closing hkind _ _ given _ => exact ⟨t, _, rfl, by simp [hkind]⟩
  | parentheses opening closing hopening _ inner _ => exact ⟨opening, _, rfl, by simp [hopening]⟩
  | noArguments => trivial
  | arguments list _ => trivial
  | lastArgument argument ih => exact ih
  | moreArguments argument comma hcomma rest ih _ =>
    obtain ⟨t, tail, hfirst, hkind⟩ := ih
    exact ⟨t, tail ++ comma :: rest.tokens, by rw [tokens, hfirst, List.cons_append], hkind⟩

/-- What may follow a symbol, so that nothing more is read into it. -/
def Symbol.Follows : Symbol → List Token → Prop
  | .level levels, ts => Ends levels ts
  | .chain operators tighter, ts => Ends (operators :: tighter) ts
  | .unary, ts | .primary, ts => Ends [] ts
  | .arguments, ts | .argumentList, ts => ∃ t rest, ts = t :: rest ∧ t.kind = .closing

/-- No operator belongs to two levels. -/
def Disjoint (levels : List (List String)) : Prop :=
  levels.Pairwise fun weaker tighter => ∀ operator ∈ weaker, operator ∉ tighter

/-- The levels of a symbol. -/
def Symbol.levels : Symbol → List (List String)
  | .level levels => levels
  | .chain operators tighter => operators :: tighter
  | _ => []

/-- An operand ends where the chain of its level goes on or ends. -/
theorem Derivation.ends_chain {operators : List String} {tighter : List (List String)}
    (d : Derivation (.chain operators tighter)) {after : List Token}
    (hdisjoint : Disjoint (operators :: tighter)) (hafter : Ends (operators :: tighter) after) :
    Ends tighter (d.tokens ++ after) := by
  have hstarts := d.starts
  cases htokens : d.tokens with
  | nil => exact hafter.mono fun _ hmem => List.mem_cons_of_mem _ hmem
  | cons t ts =>
    rw [htokens] at hstarts
    obtain ⟨hkind, htext⟩ := hstarts t rfl
    intro head hhead
    cases hhead
    refine ⟨by simp [hkind], fun _ other hother => ?_⟩
    exact (List.pairwise_cons.1 hdisjoint).1 other hother t.text htext

/-! ## Derivations are unique

The two derivations are compared rule by rule. Where the rules differ, so does a token: one of the
following lemmas says which. -/

variable {t : Token} {ts after after' : List Token}

theorem Ends.ne_operator {operators : List String} {levels : List (List String)}
    (h : Ends levels after) (hkind : t.kind = .operator) (htext : t.text ∈ operators)
    (hlevel : operators ∈ levels) : after ≠ t :: ts := by
  rintro rfl
  exact (h t rfl).2 hkind operators hlevel htext

theorem Ends.ne_opening {levels : List (List String)} (h : Ends levels after)
    (hkind : t.kind = .opening) : after ≠ t :: ts := by
  rintro rfl
  exact (h t rfl).1 hkind

namespace Derivation

theorem ne_primary (d : Derivation .primary) (hkind : t.kind = .operator) :
    t :: ts ≠ d.tokens ++ after := by
  obtain ⟨first, rest, hstart, _, hoperator⟩ := d.starts
  rw [hstart]
  rintro ⟨⟩
  exact hoperator hkind

theorem ne_argumentList (d : Derivation .argumentList) (hkind : t.kind = .closing) :
    t :: ts ≠ d.tokens ++ after := by
  obtain ⟨first, rest, hstart, hclosing⟩ := d.starts
  rw [hstart]
  rintro ⟨⟩
  exact hclosing hkind

theorem unique {s : Symbol} (d d' : Derivation s) (hdisjoint : Disjoint s.levels)
    (hafter : s.Follows after) (hafter' : s.Follows after')
    (htokens : d.tokens ++ after = d'.tokens ++ after') : d = d' ∧ after = after' := by
  induction d generalizing after after' with
  | unary operand ih =>
    cases d' with
    | unary operand' =>
      obtain ⟨rfl, rfl⟩ := ih operand' .nil hafter hafter' htokens
      exact ⟨rfl, rfl⟩
  | operands first rest ihFirst ihRest =>
    cases d' with
    | operands first' rest' =>
      simp only [tokens, List.append_assoc] at htokens
      obtain ⟨rfl, hrest⟩ := ihFirst first' hdisjoint.tail (rest.ends_chain hdisjoint hafter)
        (rest'.ends_chain hdisjoint hafter') htokens
      obtain ⟨rfl, rfl⟩ := ihRest rest' hdisjoint hafter hafter' hrest
      exact ⟨rfl, rfl⟩
  | noMore =>
    cases d' with
    | noMore => exact ⟨rfl, htokens⟩
    | more t hkind htext operand rest =>
      exact absurd htokens (hafter.ne_operator hkind htext List.mem_cons_self)
  | more t hkind htext operand rest ihOperand ihRest =>
    cases d' with
    | noMore => exact absurd htokens.symm (hafter'.ne_operator hkind htext List.mem_cons_self)
    | more t' _ _ operand' rest' =>
      simp only [tokens, List.cons_append, List.append_assoc, List.cons.injEq] at htokens
      obtain ⟨rfl, htokens⟩ := htokens
      obtain ⟨rfl, hrest⟩ := ihOperand operand' hdisjoint.tail (rest.ends_chain hdisjoint hafter)
        (rest'.ends_chain hdisjoint hafter') htokens
      obtain ⟨rfl, rfl⟩ := ihRest rest' hdisjoint hafter hafter' hrest
      exact ⟨rfl, rfl⟩
  | sign t hkind htext operand ih =>
    cases d' with
    | sign t' _ _ operand' =>
      simp only [tokens, List.cons_append, List.cons.injEq] at htokens
      obtain ⟨rfl, htokens⟩ := htokens
      obtain ⟨rfl, rfl⟩ := ih operand' .nil hafter hafter' htokens
      exact ⟨rfl, rfl⟩
    | primary operand' => exact absurd htokens (operand'.ne_primary hkind)
  | primary operand ih =>
    cases d' with
    | sign t hkind htext operand' => exact absurd htokens.symm (operand.ne_primary hkind)
    | primary operand' =>
      obtain ⟨rfl, rfl⟩ := ih operand' .nil hafter hafter' htokens
      exact ⟨rfl, rfl⟩
  | leaf t hkind =>
    cases d' with
    | leaf t' _ =>
      cases htokens
      exact ⟨rfl, rfl⟩
    | _ => grind [tokens, TokenKind.isLeaf]
  | name t hkind =>
    cases d' with
    | name t' _ =>
      cases htokens
      exact ⟨rfl, rfl⟩
    | call t' opening closing _ hopening _ given =>
      -- a name in front of a parenthesis is the name of a call
      simp only [tokens, List.cons_append, List.nil_append, List.cons.injEq] at htokens
      exact absurd htokens.2 (hafter.ne_opening hopening)
    | _ => grind [tokens, TokenKind.isLeaf]
  | call t opening closing hkind hopening hclosing given ih =>
    cases d' with
    | call t' opening' closing' _ _ hclosing' given' =>
      simp only [tokens, List.cons_append, List.append_assoc, List.nil_append,
        List.cons.injEq] at htokens
      obtain ⟨rfl, rfl, htokens⟩ := htokens
      obtain ⟨rfl, hrest⟩ := ih given' .nil ⟨closing, after, rfl, hclosing⟩
        ⟨closing', after', rfl, hclosing'⟩ htokens
      cases hrest
      exact ⟨rfl, rfl⟩
    | name t' _ =>
      simp only [tokens, List.cons_append, List.nil_append, List.cons.injEq] at htokens
      exact absurd htokens.2.symm (hafter'.ne_opening hopening)
    | _ => grind [tokens, TokenKind.isLeaf]
  | parentheses opening closing hopening hclosing inner ih =>
    cases d' with
    | parentheses opening' closing' _ hclosing' inner' =>
      simp only [tokens, List.cons_append, List.append_assoc, List.nil_append,
        List.cons.injEq] at htokens
      obtain ⟨rfl, htokens⟩ := htokens
      obtain ⟨rfl, hrest⟩ := ih inner' levels_disjoint (ends_closing _ after hclosing)
        (ends_closing _ after' hclosing') htokens
      cases hrest
      exact ⟨rfl, rfl⟩
    | _ => grind [tokens, TokenKind.isLeaf]
  | noArguments =>
    cases d' with
    | noArguments => exact ⟨rfl, htokens⟩
    | arguments list =>
      obtain ⟨t, rest, rfl, hclosing⟩ := hafter
      exact absurd htokens (list.ne_argumentList hclosing)
  | arguments list ih =>
    cases d' with
    | noArguments =>
      obtain ⟨t, rest, rfl, hclosing⟩ := hafter'
      exact absurd htokens.symm (list.ne_argumentList hclosing)
    | arguments list' =>
      obtain ⟨rfl, rfl⟩ := ih list' .nil hafter hafter' htokens
      exact ⟨rfl, rfl⟩
  | lastArgument argument ih =>
    obtain ⟨t, rest, rfl, hclosing⟩ := hafter
    cases d' with
    | lastArgument argument' =>
      obtain ⟨t', rest', rfl, hclosing'⟩ := hafter'
      obtain ⟨rfl, hrest⟩ := ih argument' levels_disjoint (ends_closing _ rest hclosing)
        (ends_closing _ rest' hclosing') htokens
      exact ⟨rfl, hrest⟩
    | moreArguments argument' comma hcomma list =>
      -- both arguments end here, one at a parenthesis and the other at a comma
      simp only [tokens, List.append_assoc, List.cons_append] at htokens
      have hrest := (ih argument' levels_disjoint (ends_closing _ rest hclosing)
        (ends_comma _ _ hcomma) htokens).2
      cases hrest
      simp [hclosing] at hcomma
  | moreArguments argument comma hcomma list ihArgument ihList =>
    cases d' with
    | lastArgument argument' =>
      obtain ⟨t, rest, rfl, hclosing⟩ := hafter'
      simp only [tokens, List.append_assoc, List.cons_append] at htokens
      have hrest := (ihArgument argument' levels_disjoint (ends_comma _ _ hcomma)
        (ends_closing _ rest hclosing) htokens).2
      cases hrest
      simp [hclosing] at hcomma
    | moreArguments argument' comma' hcomma' list' =>
      simp only [tokens, List.append_assoc, List.cons_append] at htokens
      obtain ⟨rfl, hrest⟩ := ihArgument argument' levels_disjoint (ends_comma _ _ hcomma)
        (ends_comma _ _ hcomma') htokens
      rw [List.cons.injEq] at hrest
      obtain ⟨rfl, hrest⟩ := hrest
      obtain ⟨rfl, rfl⟩ := ihList list' .nil hafter hafter' hrest
      exact ⟨rfl, rfl⟩

end Derivation
end Expression
end Spreadsheet
