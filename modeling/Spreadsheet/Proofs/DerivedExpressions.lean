import Spreadsheet.Formula.Parser
import Spreadsheet.Proofs.ExpressionGrammar

/-!
The reader follows the grammar. It reads the tokens of every derivation whose leaves convert, up to
what can follow it, as the tree of the derivation; and whatever it reads has such a derivation.
-/
namespace Spreadsheet

/-- A date or an address converts if its text is one. Numbers always convert, and so does every
token that is no leaf. -/
def Token.Converts (t : Token) : Prop :=
  (t.kind = .date → (Date.read t.text.toList).isSome = true) ∧
    (t.kind = .address → (Address.readChars t.text.toList).isSome = true)

namespace Expression

variable {finish t : Token} {ts rest : List Token} {f : Formula}

theorem converts_of_kind {kind : TokenKind} (hkind : t.kind = kind) (hleaf : kind.isLeaf = false) :
    t.Converts := by
  subst hkind
  constructor
  all_goals
    intro h
    rw [h] at hleaf
    cases hleaf

/-- The leaves that the reader takes are the leaves of the grammar that convert. -/
theorem exists_leaf_iff :
    (∃ f, leaf? t = some (.ok f)) ↔ t.kind.isLeaf = true ∧ t.Converts := by
  unfold leaf? Token.Converts
  cases hkind : t.kind with
  | date => cases hread : Date.read t.text.toList <;> simp [TokenKind.isLeaf, hread]
  | address => cases hread : Address.readChars t.text.toList <;> simp [TokenKind.isLeaf, hread]
  | _ => simp [TokenKind.isLeaf]

theorem Derivation.tree_leaf (hkind : t.kind.isLeaf = true) (h : leaf? t = some (.ok f)) :
    (Derivation.leaf t hkind).tree = f := by
  rw [tree, h]
  rfl

/-! ## Derivations are read -/

/-- What reading gives on the tokens of a derivation and others behind them. The reader takes the
parenthesis behind arguments with them. -/
def Derivation.IsRead (finish : Token) : {s : Symbol} → Derivation s → List Token → Prop
  | .level levels, d, after => Reads (readLevels finish levels (d.tokens ++ after)) d.tree after
  | .chain operators tighter, d, after => ∀ left,
    Reads (readChain finish operators tighter left (d.tokens ++ after))
      (foldLeft left d.tree) after
  | .unary, d, after => Reads (readUnary finish (d.tokens ++ after)) d.tree after
  | .primary, d, after => Reads (readUnary finish (d.tokens ++ after)) d.tree after
  | .arguments, d, after => Reads (readArguments finish (d.tokens ++ after)) d.tree after.tail
  | .argumentList, d, after =>
    Reads (readArgumentList finish (d.tokens ++ after)) d.tree after.tail

namespace Derivation

theorem isRead {s : Symbol} (d : Derivation s) (finish : Token) {after : List Token}
    (hdisjoint : Disjoint s.levels) (hafter : s.Follows after)
    (hconverts : ∀ t ∈ d.tokens, t.Converts) : d.IsRead finish after := by
  induction d generalizing after with
  | unary operand ih =>
    show Reads (readLevels finish [] _) _ _
    rw [readLevels]
    exact ih .nil hafter hconverts
  | operands first rest ihFirst ihRest =>
    show Reads (readLevels finish _ (first.tokens ++ rest.tokens ++ after)) _ _
    rw [List.append_assoc]
    have hfirst := ihFirst hdisjoint.tail (rest.ends_chain hdisjoint hafter)
      fun t ht => hconverts t (List.mem_append_left _ ht)
    have hrest := ihRest hdisjoint hafter fun t ht => hconverts t (List.mem_append_right _ ht)
    exact reads_levels hfirst (hrest first.tree)
  | noMore =>
    intro left
    exact reads_chain_stop _ left fun t ht hkind => (hafter t ht).2 hkind _ List.mem_cons_self
  | more t hkind htext operand rest ihOperand ihRest =>
    intro left
    show Reads (readChain finish _ _ left (t :: (operand.tokens ++ rest.tokens ++ after))) _ _
    rw [List.append_assoc]
    have hoperand := ihOperand hdisjoint.tail (rest.ends_chain hdisjoint hafter)
      fun t ht => hconverts t (by simp [tokens, ht])
    have hrest := ihRest hdisjoint hafter fun t ht => hconverts t (by simp [tokens, ht])
    exact reads_chain_step hkind htext hoperand (hrest _)
  | sign t hkind htext operand ih =>
    have hoperand := ih .nil hafter fun t ht => hconverts t (by simp [tokens, ht])
    show Reads (readUnary finish (t :: (operand.tokens ++ after)))
      (if t.text = "-" then negate operand.tree else operand.tree) after
    rcases htext with hminus | hplus
    · rw [if_pos hminus]
      exact reads_minus hkind hminus hoperand
    · rw [if_neg (by simp [hplus])]
      exact reads_plus hkind hplus hoperand
  | primary operand ih => exact ih .nil hafter hconverts
  | leaf t hkind =>
    obtain ⟨f, hleaf⟩ := exists_leaf_iff.2 ⟨hkind, hconverts t (by simp [tokens])⟩
    rw [IsRead, tree_leaf hkind hleaf]
    exact reads_primary (fun h => by simp [h, TokenKind.isLeaf] at hkind) (reads_leaf hleaf)
  | name t hkind =>
    exact reads_primary (by simp [hkind]) (reads_name hkind fun n hn => (hafter n hn).1)
  | call t opening closing hkind hopening hclosing given ih =>
    have hgiven := ih .nil ⟨closing, after, rfl, hclosing⟩
      fun t ht => hconverts t (by simp [tokens, ht])
    show Reads (readUnary finish (t :: opening :: (given.tokens ++ [closing] ++ after))) _ _
    rw [List.append_assoc, List.singleton_append]
    exact reads_primary (by simp [hkind]) (reads_call hkind hopening hgiven)
  | parentheses opening closing hopening hclosing inner ih =>
    have hinner := ih levels_disjoint (ends_closing _ after hclosing)
      fun t ht => hconverts t (by simp [tokens, ht])
    show Reads (readUnary finish (opening :: (inner.tokens ++ [closing] ++ after))) _ _
    rw [List.append_assoc, List.singleton_append]
    exact reads_primary (by simp [hopening]) (reads_parentheses hopening hclosing hinner)
  | noArguments =>
    obtain ⟨closing, rest, rfl, hclosing⟩ := hafter
    exact reads_no_arguments hclosing
  | arguments list ih => exact reads_arguments (ih .nil hafter hconverts)
  | lastArgument argument ih =>
    obtain ⟨closing, rest, rfl, hclosing⟩ := hafter
    exact reads_last_argument hclosing
      (ih levels_disjoint (ends_closing _ rest hclosing) hconverts)
  | moreArguments argument comma hcomma list ihArgument ihList =>
    have hargument := ihArgument levels_disjoint (ends_comma _ (list.tokens ++ after) hcomma)
      fun t ht => hconverts t (by simp [tokens, ht])
    have hlist := ihList .nil hafter fun t ht => hconverts t (by simp [tokens, ht])
    show Reads (readArgumentList finish (argument.tokens ++ comma :: list.tokens ++ after)) _ _
    rw [List.append_assoc, List.cons_append]
    exact reads_more_arguments hcomma hargument hlist

end Derivation

/-! ## What is read has a derivation -/

/-- The tokens are those of a derivation whose leaves convert, with `rest` behind them. -/
def Derives (s : Symbol) (ts : List Token) (value : s.Value) (rest : List Token) : Prop :=
  ∃ d : Derivation s, d.tokens ++ rest = ts ∧ d.tree = value ∧ ∀ t ∈ d.tokens, t.Converts

section Rules

variable {operators : List String} {tighter : List (List String)} {mid : List Token}
  {left right : Formula} {chained : List (String × Formula)} {given : List Formula}

theorem Derives.unary (h : Derives .unary ts f rest) : Derives (.level []) ts f rest := by
  obtain ⟨d, htokens, htree, hconverts⟩ := h
  exact ⟨.unary d, htokens, htree, hconverts⟩

theorem Derives.operands (hfirst : Derives (.level tighter) ts left mid)
    (hrest : Derives (.chain operators tighter) mid chained rest) :
    Derives (.level (operators :: tighter)) ts (Derivation.foldLeft left chained) rest := by
  obtain ⟨first, rfl, rfl, hconverts⟩ := hfirst
  obtain ⟨more, rfl, rfl, hconverts'⟩ := hrest
  refine ⟨.operands first more, by simp [Derivation.tokens], rfl, ?_⟩
  exact List.forall_mem_append.2 ⟨hconverts, hconverts'⟩

theorem derives_noMore : Derives (.chain operators tighter) ts [] ts :=
  ⟨.noMore, rfl, rfl, List.forall_mem_nil _⟩

theorem Derives.levels (h : Derives .unary ts f rest) (levels : List (List String)) :
    Derives (.level levels) ts f rest := by
  induction levels with
  | nil => exact h.unary
  | cons operators tighter ih => exact ih.operands derives_noMore

theorem Derives.more (hkind : t.kind = .operator) (htext : t.text ∈ operators)
    (hright : Derives (.level tighter) ts right mid)
    (hrest : Derives (.chain operators tighter) mid chained rest) :
    Derives (.chain operators tighter) (t :: ts) ((t.text, right) :: chained) rest := by
  obtain ⟨operand, rfl, rfl, hconverts⟩ := hright
  obtain ⟨more, rfl, rfl, hconverts'⟩ := hrest
  refine ⟨.more t hkind htext operand more, by simp [Derivation.tokens], rfl, ?_⟩
  refine List.forall_mem_cons.2 ⟨converts_of_kind hkind rfl, ?_⟩
  exact List.forall_mem_append.2 ⟨hconverts, hconverts'⟩

theorem Derives.sign (hkind : t.kind = .operator) (htext : t.text = "-" ∨ t.text = "+")
    (h : Derives .unary ts f rest) :
    Derives .unary (t :: ts) (if t.text = "-" then negate f else f) rest := by
  obtain ⟨operand, rfl, rfl, hconverts⟩ := h
  exact ⟨.sign t hkind htext operand, rfl, rfl,
    List.forall_mem_cons.2 ⟨converts_of_kind hkind rfl, hconverts⟩⟩

theorem Derives.primary (h : Derives .primary ts f rest) : Derives .unary ts f rest := by
  obtain ⟨d, htokens, htree, hconverts⟩ := h
  exact ⟨.primary d, htokens, htree, hconverts⟩

theorem derives_leaf (h : leaf? t = some (.ok f)) : Derives .primary (t :: ts) f ts := by
  obtain ⟨hkind, hconverts⟩ := exists_leaf_iff.1 ⟨f, h⟩
  exact ⟨.leaf t hkind, rfl, Derivation.tree_leaf hkind h, List.forall_mem_singleton.2 hconverts⟩

theorem derives_name (hkind : t.kind = .identifier) :
    Derives .primary (t :: ts) (.reference t.text) ts :=
  ⟨.name t hkind, rfl, rfl,
    List.forall_mem_singleton.2 (converts_of_kind hkind rfl)⟩

theorem Derives.call {opening closing : Token} (hkind : t.kind = .identifier)
    (hopening : opening.kind = .opening) (hclosing : closing.kind = .closing)
    (h : Derives .arguments ts given (closing :: rest)) :
    Derives .primary (t :: opening :: ts) (.namedCall t.text given) rest := by
  obtain ⟨d, rfl, rfl, hconverts⟩ := h
  refine ⟨.call t opening closing hkind hopening hclosing d, by simp [Derivation.tokens], rfl, ?_⟩
  refine List.forall_mem_cons.2 ⟨converts_of_kind hkind rfl,
    List.forall_mem_cons.2 ⟨converts_of_kind hopening rfl, ?_⟩⟩
  exact List.forall_mem_append.2 ⟨hconverts,
    List.forall_mem_singleton.2 (converts_of_kind hclosing rfl)⟩

theorem Derives.parentheses {opening closing : Token} (hopening : opening.kind = .opening)
    (hclosing : closing.kind = .closing) (h : Derives .expression ts f (closing :: rest)) :
    Derives .primary (opening :: ts) f rest := by
  obtain ⟨inner, rfl, rfl, hconverts⟩ := h
  refine ⟨.parentheses opening closing hopening hclosing inner, by simp [Derivation.tokens], rfl,
    ?_⟩
  refine List.forall_mem_cons.2 ⟨converts_of_kind hopening rfl, ?_⟩
  exact List.forall_mem_append.2 ⟨hconverts,
    List.forall_mem_singleton.2 (converts_of_kind hclosing rfl)⟩

theorem derives_noArguments : Derives .arguments ts [] ts :=
  ⟨.noArguments, rfl, rfl, List.forall_mem_nil _⟩

theorem Derives.arguments (h : Derives .argumentList ts given rest) :
    Derives .arguments ts given rest := by
  obtain ⟨d, htokens, htree, hconverts⟩ := h
  exact ⟨.arguments d, htokens, htree, hconverts⟩

theorem Derives.lastArgument (h : Derives .expression ts f rest) :
    Derives .argumentList ts [f] rest := by
  obtain ⟨d, htokens, rfl, hconverts⟩ := h
  exact ⟨.lastArgument d, htokens, rfl, hconverts⟩

theorem Derives.moreArguments {comma : Token} (hcomma : comma.kind = .comma)
    (h : Derives .expression ts f (comma :: mid))
    (hmore : Derives .argumentList mid given rest) :
    Derives .argumentList ts (f :: given) rest := by
  obtain ⟨argument, rfl, rfl, hconverts⟩ := h
  obtain ⟨list, rfl, rfl, hconverts'⟩ := hmore
  refine ⟨.moreArguments argument comma hcomma list, by simp [Derivation.tokens], rfl, ?_⟩
  exact List.forall_mem_append.2 ⟨hconverts,
    List.forall_mem_cons.2 ⟨converts_of_kind hcomma rfl, hconverts'⟩⟩

end Rules

-- As in the reader, the measure is the number of tokens that are left, then the depth of the call
-- among the levels.
mutual

theorem derives_readLevels (finish : Token) : (levels : List (List String)) → (ts : List Token) →
    {f : Formula} → {rest : { rest : List Token // rest.length < ts.length }} →
    readLevels finish levels ts = .ok (f, rest) → Derives (.level levels) ts f rest.val
  | [], ts, _, _, h => by
    rw [readLevels] at h
    exact (derives_readUnary finish ts h).unary
  | operators :: tighter, ts, _, _, h => by
    rw [readLevels] at h
    split at h
    next => cases h
    next left middle hlt hleft =>
      split at h
      next => cases h
      next hchain =>
        cases h
        obtain ⟨operands, hoperands, rfl⟩ :=
          derives_readChain finish operators tighter left middle hchain
        exact (derives_readLevels finish tighter ts hleft).operands hoperands
termination_by levels ts => (ts.length, levels.length + 2)

theorem derives_readChain (finish : Token) (operators : List String)
    (tighter : List (List String)) : (left : Formula) → (ts : List Token) → {f : Formula} →
    {rest : { rest : List Token // rest.length ≤ ts.length }} →
    readChain finish operators tighter left ts = .ok (f, rest) →
    ∃ operands, Derives (.chain operators tighter) ts operands rest.val ∧
      f = Derivation.foldLeft left operands
  | _, [], _, _, h => by
    rw [readChain] at h
    cases h
    exact ⟨[], derives_noMore, rfl⟩
  | left, t :: tail, _, _, h => by
    rw [readChain] at h
    split at h
    next hmore =>
      split at h
      next => cases h
      next right middle hlt hright =>
        split at h
        next => cases h
        next hchain =>
          cases h
          rw [Bool.and_eq_true, beq_iff_eq, List.contains_iff_mem] at hmore
          have hoperand := derives_readLevels finish tighter tail hright
          obtain ⟨operands, hoperands, rfl⟩ :=
            derives_readChain finish operators tighter _ middle hchain
          exact ⟨_, hoperand.more hmore.1 hmore.2 hoperands, rfl⟩
    next =>
      cases h
      exact ⟨[], derives_noMore, rfl⟩
termination_by _ ts => (ts.length, 0)

theorem derives_readUnary (finish : Token) : (ts : List Token) → {f : Formula} →
    {rest : { rest : List Token // rest.length < ts.length }} →
    readUnary finish ts = .ok (f, rest) → Derives .unary ts f rest.val
  | [], _, _, h => by
    rw [readUnary] at h
    cases h
  | t :: tail, _, _, h => by
    rw [readUnary] at h
    split at h
    next hminus =>
      split at h
      next => cases h
      next hoperand =>
        cases h
        rw [isOperator, Bool.and_eq_true, beq_iff_eq, beq_iff_eq] at hminus
        have hsign := (derives_readUnary finish tail hoperand).sign hminus.1 (.inl hminus.2)
        rw [if_pos hminus.2] at hsign
        exact hsign
    next =>
      split at h
      next hplus =>
        split at h
        next => cases h
        next hoperand =>
          cases h
          rw [isOperator, Bool.and_eq_true, beq_iff_eq, beq_iff_eq] at hplus
          have hsign := (derives_readUnary finish tail hoperand).sign hplus.1 (.inr hplus.2)
          rw [if_neg (by simp [hplus.2])] at hsign
          exact hsign
      next => exact (derives_readPrimary finish t tail h).primary
termination_by ts => (ts.length, 1)

theorem derives_readPrimary (finish : Token) (t : Token) (ts : List Token) {f : Formula}
    {rest : { rest : List Token // rest.length < (t :: ts).length }}
    (h : readPrimary finish t ts = .ok (f, rest)) : Derives .primary (t :: ts) f rest.val := by
  rw [readPrimary.eq_def] at h
  split at h
  next hleaf =>
    cases h
    exact derives_leaf hleaf
  next => cases h
  next =>
    split at h
    next hkind =>
      split at h
      next =>
        cases h
        exact derives_name hkind
      next next' tail =>
        split at h
        next hopening =>
          split at h
          next => cases h
          next harguments =>
            cases h
            obtain ⟨closing, hclosing, hgiven⟩ := derives_readArguments finish tail harguments
            exact hgiven.call hkind hopening hclosing
        next =>
          cases h
          exact derives_name hkind
    next hkind =>
      split at h
      next => cases h
      next => cases h
      next hread =>
        split at h
        next hclosing =>
          cases h
          exact (derives_readLevels finish Operator.levels ts hread).parentheses hkind hclosing
        next => cases h
    next => cases h
termination_by (ts.length + 1, 0)

theorem derives_readArguments (finish : Token) : (ts : List Token) → {arguments : List Formula} →
    {rest : { rest : List Token // rest.length < ts.length }} →
    readArguments finish ts = .ok (arguments, rest) →
    ∃ closing, closing.kind = .closing ∧ Derives .arguments ts arguments (closing :: rest.val)
  | [], _, _, h => by
    rw [readArguments] at h
    cases h
  | t :: tail, _, _, h => by
    rw [readArguments] at h
    split at h
    next hclosing =>
      cases h
      exact ⟨t, hclosing, derives_noArguments⟩
    next =>
      obtain ⟨closing, hclosing, hlist⟩ := derives_readArgumentList finish (t :: tail) h
      exact ⟨closing, hclosing, hlist.arguments⟩
termination_by ts => (ts.length, 9)

theorem derives_readArgumentList (finish : Token) (ts : List Token) {arguments : List Formula}
    {rest : { rest : List Token // rest.length < ts.length }}
    (h : readArgumentList finish ts = .ok (arguments, rest)) :
    ∃ closing, closing.kind = .closing ∧
      Derives .argumentList ts arguments (closing :: rest.val) := by
  rw [readArgumentList] at h
  split at h
  next => cases h
  next => cases h
  next first next' tail hlt hfirst =>
    have hargument := derives_readLevels finish Operator.levels ts hfirst
    split at h
    next hcomma =>
      split at h
      next => cases h
      next hmore =>
        cases h
        have hlt' : tail.length < ts.length := Nat.lt_of_succ_lt hlt
        obtain ⟨closing, hclosing, hlist⟩ := derives_readArgumentList finish tail hmore
        exact ⟨closing, hclosing, hargument.moreArguments hcomma hlist⟩
    next =>
      split at h
      next hclosing =>
        cases h
        exact ⟨next', hclosing, hargument.lastArgument⟩
      next => cases h
termination_by (ts.length, 8)
decreasing_by
  all_goals simp only [List.length_cons, List.length_nil, Operator.levels] at *
  all_goals omega

end

/-! ## Whole expressions -/

theorem Derives.reads {after : List Token} (h : Derives .expression ts f after)
    (hafter : Ends Operator.levels after) (finish : Token) : Reads (read finish ts) f after := by
  obtain ⟨d, rfl, rfl, hconverts⟩ := h
  exact d.isRead finish levels_disjoint hafter hconverts

theorem ends_nil (levels : List (List String)) : Ends levels [] :=
  fun _ ht => nomatch ht

end Expression

theorem Formula.ofTokens_eq_ok_iff (finish : Token) (ts : List Token) (f : Formula) :
    Formula.ofTokens finish ts = .ok f ↔ Expression.Derives .expression ts f [] := by
  constructor
  · intro h
    unfold Formula.ofTokens at h
    split at h
    next => cases h
    next =>
      split at h
      next => cases h
      next hread =>
        cases h
        exact Expression.derives_readLevels finish Operator.levels ts hread
      next => cases h
  · intro h
    obtain ⟨hlength, hread⟩ := h.reads (Expression.ends_nil _) finish
    have hsome : ¬ts.isEmpty = true := by
      intro hempty
      rw [List.isEmpty_iff.1 hempty] at hlength
      cases hlength
    rw [Formula.ofTokens, if_neg hsome, hread]

end Spreadsheet
