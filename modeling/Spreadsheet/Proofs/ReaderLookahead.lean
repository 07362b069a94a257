import Spreadsheet.Proofs.DerivedExpressions

/-!
How far the readers of expressions look. What a reader does hangs on the tokens that it takes and on
the next one: it reads the same, or fails at the same place, whatever stands further on. Where it
fails, what it has taken can be completed with numbers and closing parentheses, so that it fails as
early as it can.
-/
namespace Spreadsheet

namespace Expression

/-! ## Rows of tokens that can be completed -/

/-- The tokens that complete an expression: an operand where one is missing, and a parenthesis. -/
def fillers : List Token :=
  [⟨.number, "1", 0⟩, ⟨.closing, ")", 0⟩]

/-- Whether a symbol has a derivation that starts with the tokens and goes on with fillers. -/
def Symbol.Completes (s : Symbol) (front : List Token) : Prop :=
  ∃ (d : Derivation s) (added : List Token),
    d.tokens = front ++ added ∧ ∀ t ∈ added, t ∈ fillers

namespace Symbol.Completes

variable {operators : List String} {tighter : List (List String)} {t opening comma : Token}
  {front : List Token}

theorem nil : Symbol.unary.Completes [] :=
  ⟨.primary (.leaf ⟨.number, "1", 0⟩ rfl), [⟨.number, "1", 0⟩], rfl, by decide⟩

theorem derived {s : Symbol} (d : Derivation s) : s.Completes d.tokens :=
  ⟨d, [], (List.append_nil _).symm, List.forall_mem_nil _⟩

theorem unary (h : Symbol.unary.Completes front) : (Symbol.level []).Completes front := by
  obtain ⟨d, added, htokens, hadded⟩ := h
  exact ⟨.unary d, added, htokens, hadded⟩

theorem firstOperand (h : (Symbol.level tighter).Completes front) :
    (Symbol.level (operators :: tighter)).Completes front := by
  obtain ⟨d, added, htokens, hadded⟩ := h
  refine ⟨.operands d .noMore, added, ?_, hadded⟩
  rw [Derivation.tokens, Derivation.tokens, List.append_nil, htokens]

theorem operands (d : Derivation (.level tighter))
    (h : (Symbol.chain operators tighter).Completes front) :
    (Symbol.level (operators :: tighter)).Completes (d.tokens ++ front) := by
  obtain ⟨rest, added, htokens, hadded⟩ := h
  refine ⟨.operands d rest, added, ?_, hadded⟩
  rw [Derivation.tokens, htokens, List.append_assoc]

theorem nextOperand (hkind : t.kind = .operator) (htext : t.text ∈ operators)
    (h : (Symbol.level tighter).Completes front) :
    (Symbol.chain operators tighter).Completes (t :: front) := by
  obtain ⟨d, added, htokens, hadded⟩ := h
  refine ⟨.more t hkind htext d .noMore, added, ?_, hadded⟩
  rw [Derivation.tokens, Derivation.tokens, List.append_nil, htokens, List.cons_append]

theorem more (hkind : t.kind = .operator) (htext : t.text ∈ operators)
    (d : Derivation (.level tighter)) (h : (Symbol.chain operators tighter).Completes front) :
    (Symbol.chain operators tighter).Completes (t :: (d.tokens ++ front)) := by
  obtain ⟨rest, added, htokens, hadded⟩ := h
  refine ⟨.more t hkind htext d rest, added, ?_, hadded⟩
  rw [Derivation.tokens, htokens, List.cons_append, List.append_assoc]

theorem sign (hkind : t.kind = .operator) (htext : t.text = "-" ∨ t.text = "+")
    (h : Symbol.unary.Completes front) : Symbol.unary.Completes (t :: front) := by
  obtain ⟨d, added, htokens, hadded⟩ := h
  exact ⟨.sign t hkind htext d, added, congrArg (t :: ·) htokens, hadded⟩

theorem call (hkind : t.kind = .identifier) (hopening : opening.kind = .opening)
    (h : Symbol.arguments.Completes front) : Symbol.unary.Completes (t :: opening :: front) := by
  obtain ⟨d, added, htokens, hadded⟩ := h
  refine ⟨.primary (.call t opening ⟨.closing, ")", 0⟩ hkind hopening rfl d),
    added ++ [⟨.closing, ")", 0⟩], ?_, List.forall_mem_append.2 ⟨hadded, by decide⟩⟩
  rw [Derivation.tokens, Derivation.tokens, htokens, List.append_assoc]
  rfl

theorem parentheses (hopening : opening.kind = .opening) (h : Symbol.expression.Completes front) :
    Symbol.unary.Completes (opening :: front) := by
  obtain ⟨d, added, htokens, hadded⟩ := h
  refine ⟨.primary (.parentheses opening ⟨.closing, ")", 0⟩ hopening rfl d),
    added ++ [⟨.closing, ")", 0⟩], ?_, List.forall_mem_append.2 ⟨hadded, by decide⟩⟩
  rw [Derivation.tokens, Derivation.tokens, htokens, List.append_assoc]
  rfl

theorem arguments (h : Symbol.argumentList.Completes front) :
    Symbol.arguments.Completes front := by
  obtain ⟨d, added, htokens, hadded⟩ := h
  exact ⟨.arguments d, added, htokens, hadded⟩

theorem lastArgument (h : Symbol.expression.Completes front) :
    Symbol.argumentList.Completes front := by
  obtain ⟨d, added, htokens, hadded⟩ := h
  exact ⟨.lastArgument d, added, htokens, hadded⟩

theorem moreArguments (d : Derivation .expression) (hcomma : comma.kind = .comma)
    (h : Symbol.argumentList.Completes front) :
    Symbol.argumentList.Completes (d.tokens ++ comma :: front) := by
  obtain ⟨rest, added, htokens, hadded⟩ := h
  refine ⟨.moreArguments d comma hcomma rest, added, ?_, hadded⟩
  rw [Derivation.tokens, htokens, List.append_assoc, List.cons_append]

end Symbol.Completes

/-! ## Failing -/

/-- The reading fails at the first of the tokens `rest`, or at the end if there are none. -/
def FailsAt {α : Type} {P : List Token → Prop} (finish : Token)
    (reading : Except Misfit (α × { rest // P rest })) (rest : List Token) : Prop :=
  ∃ m, reading = .error m ∧ m.offset = (current finish rest).offset

section Failing

variable {finish t next : Token} {ts mid rest : List Token} {operators : List String}
  {tighter : List (List String)} {left right f : Formula}

theorem failsAt_levels (h : FailsAt finish (readLevels finish tighter ts) rest) :
    FailsAt finish (readLevels finish (operators :: tighter) ts) rest := by
  obtain ⟨m, hread, hoffset⟩ := h
  exact ⟨m, by rw [readLevels, hread], hoffset⟩

theorem FailsAt.levels (h : FailsAt finish (readUnary finish ts) rest)
    (levels : List (List String)) : FailsAt finish (readLevels finish levels ts) rest := by
  induction levels with
  | nil =>
    rw [readLevels]
    exact h
  | cons operators tighter ih => exact failsAt_levels ih

theorem failsAt_operands (hleft : Reads (readLevels finish tighter ts) left mid)
    (h : FailsAt finish (readChain finish operators tighter left mid) rest) :
    FailsAt finish (readLevels finish (operators :: tighter) ts) rest := by
  obtain ⟨hmid, hleft⟩ := hleft
  obtain ⟨m, hread, hoffset⟩ := h
  refine ⟨m, ?_, hoffset⟩
  rw [readLevels, hleft]
  dsimp only
  rw [hread]

theorem failsAt_nextOperand (hkind : t.kind = .operator) (htext : t.text ∈ operators)
    (h : FailsAt finish (readLevels finish tighter ts) rest) :
    FailsAt finish (readChain finish operators tighter left (t :: ts)) rest := by
  obtain ⟨m, hread, hoffset⟩ := h
  exact ⟨m, by rw [readChain, if_pos (isOperator_of_mem hkind htext), hread], hoffset⟩

theorem failsAt_chain (hkind : t.kind = .operator) (htext : t.text ∈ operators)
    (hright : Reads (readLevels finish tighter ts) right mid)
    (h : FailsAt finish (readChain finish operators tighter (.binary t.text left right) mid) rest) :
    FailsAt finish (readChain finish operators tighter left (t :: ts)) rest := by
  obtain ⟨hmid, hright⟩ := hright
  obtain ⟨m, hread, hoffset⟩ := h
  refine ⟨m, ?_, hoffset⟩
  rw [readChain, if_pos (isOperator_of_mem hkind htext), hright]
  dsimp only
  rw [hread]

theorem failsAt_sign (hsign : isOperator t "-" = true ∨ isOperator t "+" = true)
    (h : FailsAt finish (readUnary finish ts) rest) :
    FailsAt finish (readUnary finish (t :: ts)) rest := by
  obtain ⟨m, hread, hoffset⟩ := h
  refine ⟨m, ?_, hoffset⟩
  rw [readUnary]
  by_cases hminus : isOperator t "-" = true
  · rw [if_pos hminus, hread]
  · rw [if_neg hminus, if_pos (hsign.resolve_left hminus), hread]

/-- What is no sign starts a primary. -/
theorem readUnary_primary (hsign : ¬(isOperator t "-" = true ∨ isOperator t "+" = true)) :
    readUnary finish (t :: ts) = readPrimary finish t ts := by
  obtain ⟨hminus, hplus⟩ := not_or.1 hsign
  rw [readUnary, if_neg hminus, if_neg hplus]

theorem not_sign (hkind : t.kind ≠ .operator) :
    ¬(isOperator t "-" = true ∨ isOperator t "+" = true) :=
  not_or.2 ⟨not_isOperator hkind "-", not_isOperator hkind "+"⟩

theorem failsAt_unexpected (hsign : ¬(isOperator t "-" = true ∨ isOperator t "+" = true))
    (hkind : t.kind.isLeaf = false ∧ t.kind ≠ .identifier ∧ t.kind ≠ .opening) :
    FailsAt finish (readUnary finish (t :: ts)) (t :: ts) := by
  refine ⟨{ fault := .unexpected t, offset := t.offset }, ?_, rfl⟩
  obtain ⟨hleaf, hname, hopening⟩ := hkind
  rw [readUnary_primary hsign, readPrimary.eq_def]
  unfold leaf?
  cases h : t.kind <;> simp_all [TokenKind.isLeaf]

theorem failsAt_call (hkind : t.kind = .identifier) (hopening : next.kind = .opening)
    (h : FailsAt finish (readArguments finish ts) rest) :
    FailsAt finish (readUnary finish (t :: next :: ts)) rest := by
  have hleaf : leaf? t = none := leaf?_eq_none (.inl hkind)
  obtain ⟨m, hread, hoffset⟩ := h
  refine ⟨m, ?_, hoffset⟩
  rw [readUnary_primary (not_sign (by simp [hkind])), readPrimary.eq_def, hleaf]
  dsimp only
  rw [hkind]
  dsimp only
  rw [if_pos hopening, hread]

theorem failsAt_parentheses (hopening : t.kind = .opening)
    (h : FailsAt finish (readLevels finish Operator.levels ts) rest) :
    FailsAt finish (readUnary finish (t :: ts)) rest := by
  have hleaf : leaf? t = none := leaf?_eq_none (.inr (.inl hopening))
  obtain ⟨m, hread, hoffset⟩ := h
  refine ⟨m, ?_, hoffset⟩
  rw [readUnary_primary (not_sign (by simp [hopening])), readPrimary.eq_def, hleaf]
  dsimp only
  rw [hopening]
  dsimp only
  rw [hread]

/-- An expression in parentheses that nothing closes. -/
theorem failsAt_unclosed (hopening : t.kind = .opening)
    (hread : Reads (readLevels finish Operator.levels ts) f rest)
    (hrest : ∀ n ∈ rest.head?, n.kind ≠ .closing) :
    FailsAt finish (readUnary finish (t :: ts)) rest := by
  have hleaf : leaf? t = none := leaf?_eq_none (.inr (.inl hopening))
  obtain ⟨hlength, hread⟩ := hread
  refine ⟨expected finish "`)`" rest, ?_, rfl⟩
  rw [readUnary_primary (not_sign (by simp [hopening])), readPrimary.eq_def, hleaf]
  dsimp only
  rw [hopening]
  dsimp only
  rw [hread]
  cases rest with
  | nil => rfl
  | cons n rest =>
    dsimp only
    rw [if_neg (hrest n rfl)]

theorem failsAt_arguments (hhead : ts.head? = some t) (hkind : t.kind ≠ .closing)
    (h : FailsAt finish (readArgumentList finish ts) rest) :
    FailsAt finish (readArguments finish ts) rest := by
  obtain ⟨tail, rfl⟩ := List.head?_eq_some_iff.1 hhead
  obtain ⟨m, hread, hoffset⟩ := h
  exact ⟨m, by rw [readArguments, if_neg hkind, hread], hoffset⟩

theorem failsAt_firstArgument (h : FailsAt finish (readLevels finish Operator.levels ts) rest) :
    FailsAt finish (readArgumentList finish ts) rest := by
  obtain ⟨m, hread, hoffset⟩ := h
  exact ⟨m, by rw [readArgumentList, hread], hoffset⟩

theorem failsAt_moreArguments (hcomma : next.kind = .comma)
    (hread : Reads (readLevels finish Operator.levels ts) f (next :: mid))
    (h : FailsAt finish (readArgumentList finish mid) rest) :
    FailsAt finish (readArgumentList finish ts) rest := by
  obtain ⟨hmid, hread⟩ := hread
  obtain ⟨m, hmore, hoffset⟩ := h
  refine ⟨m, ?_, hoffset⟩
  rw [readArgumentList, hread]
  dsimp only
  rw [if_pos hcomma, hmore]

/-- An argument with neither a comma nor a parenthesis behind it. -/
theorem failsAt_unseparated (hread : Reads (readLevels finish Operator.levels ts) f rest)
    (hrest : ∀ n ∈ rest.head?, n.kind ≠ .comma ∧ n.kind ≠ .closing) :
    FailsAt finish (readArgumentList finish ts) rest := by
  obtain ⟨hlength, hread⟩ := hread
  refine ⟨expected finish "`,` or `)` in argument list" rest, ?_, rfl⟩
  rw [readArgumentList, hread]
  cases rest with
  | nil => rfl
  | cons n rest =>
    obtain ⟨hcomma, hclosing⟩ := hrest n rfl
    dsimp only
    rw [if_neg hcomma, if_neg hclosing]

end Failing

/-! ## What the readers look at -/

/-- The tokens fall into those that the reader takes and the rest, of which it sees the first only.
It reads the same, or fails at the same place, on all the rows that agree so far, and fails only
where what it has taken could be completed. -/
inductive Steady {α : Type} {P : List Token → List Token → Prop} (finish : Token) (s : Symbol)
    (reader : (ts : List Token) → Except Misfit (α × { rest // P ts rest })) (ts : List Token) :
    Prop
  | reads (a : α) (front rest : List Token) (hts : ts = front ++ rest)
      (hread : ∀ rest' : List Token, rest'.head? = rest.head? →
        Reads (reader (front ++ rest')) a rest')
  | fails (front rest : List Token) (hts : ts = front ++ rest) (hcompletes : s.Completes front)
      (hfails : ∀ rest' : List Token, rest'.head? = rest.head? →
        FailsAt finish (reader (front ++ rest')) rest')

/-- All the readers are steady on the tokens. -/
structure SteadyReaders (finish : Token) (ts : List Token) : Prop where
  levels (levels : List (List String)) :
    Steady finish (.level levels) (readLevels finish levels) ts
  chain (operators : List String) (tighter : List (List String)) (left : Formula) :
    Steady finish (.chain operators tighter) (readChain finish operators tighter left) ts
  unary : Steady finish .unary (readUnary finish) ts
  arguments : Steady finish .arguments (readArguments finish) ts
  argumentList : Steady finish .argumentList (readArgumentList finish) ts

/-- The readers are steady on what is left of the tokens when some have been taken. -/
def SteadyBehind (finish : Token) (ts : List Token) : Prop :=
  ∀ mid, mid <:+ ts → mid.length < ts.length → SteadyReaders finish mid

section Steps

variable {finish : Token} {ts rest rest' : List Token}

theorem head?_append_congr (front : List Token) (h : rest'.head? = rest.head?) :
    (front ++ rest').head? = (front ++ rest).head? := by
  rw [List.head?_append, List.head?_append, h]

theorem exists_tokens_eq {levels : List (List String)} {front : List Token} {f : Formula}
    (hread : Reads (readLevels finish levels (front ++ rest)) f rest) :
    ∃ d : Derivation (.level levels), d.tokens = front := by
  obtain ⟨hlength, hread⟩ := hread
  obtain ⟨d, htokens, -, -⟩ := derives_readLevels finish levels (front ++ rest) hread
  exact ⟨d, List.append_cancel_right htokens⟩

theorem steady_chain {operators : List String} {tighter : List (List String)}
    (hbehind : SteadyBehind finish ts) (left : Formula) :
    Steady finish (.chain operators tighter) (readChain finish operators tighter left) ts := by
  by_cases hmore : ∃ t ∈ ts.head?, t.kind = .operator ∧ t.text ∈ operators
  case neg =>
    refine .reads left [] ts rfl fun rest' hrest => reads_chain_stop tighter left ?_
    intro t ht hkind htext
    rw [List.nil_append, hrest] at ht
    exact hmore ⟨t, ht, hkind, htext⟩
  obtain ⟨t, ht, hkind, htext⟩ := hmore
  obtain ⟨tail, rfl⟩ := List.head?_eq_some_iff.1 ht
  cases (hbehind tail (List.suffix_cons t tail) (by simp)).levels tighter with
  | fails front rest hts hcompletes hfails =>
    subst hts
    exact .fails (t :: front) rest rfl (hcompletes.nextOperand hkind htext)
      fun rest' hrest => failsAt_nextOperand hkind htext (hfails rest' hrest)
  | reads right front mid hts hright =>
    subst hts
    -- where the chain goes on with other tokens it still goes on with the same one first, so that
    -- the operand is read alike
    obtain ⟨d, rfl⟩ := exists_tokens_eq (hright mid rfl)
    have hmid : mid <:+ t :: (d.tokens ++ mid) :=
      (List.suffix_append _ _).trans (List.suffix_cons _ _)
    have hlength : mid.length < (t :: (d.tokens ++ mid)).length := by
      rw [List.length_cons, List.length_append]
      omega
    cases (hbehind mid hmid hlength).chain operators tighter (.binary t.text left right) with
    | fails front rest hts hcompletes hfails =>
      subst hts
      refine .fails (t :: (d.tokens ++ front)) rest (by simp) (hcompletes.more hkind htext d)
        fun rest' hrest => ?_
      rw [List.cons_append, List.append_assoc]
      exact failsAt_chain hkind htext (hright _ (head?_append_congr front hrest))
        (hfails rest' hrest)
    | reads f front rest hts hread =>
      subst hts
      refine .reads f (t :: (d.tokens ++ front)) rest (by simp) fun rest' hrest => ?_
      rw [List.cons_append, List.append_assoc]
      exact reads_chain_step hkind htext (hright _ (head?_append_congr front hrest))
        (hread rest' hrest)

theorem steady_levels (hunary : Steady finish .unary (readUnary finish) ts)
    (hbehind : SteadyBehind finish ts) (levels : List (List String)) :
    Steady finish (.level levels) (readLevels finish levels) ts := by
  induction levels with
  | nil =>
    cases hunary with
    | fails front rest hts hcompletes hfails =>
      refine .fails front rest hts hcompletes.unary fun rest' hrest => ?_
      rw [readLevels]
      exact hfails rest' hrest
    | reads f front rest hts hread =>
      refine .reads f front rest hts fun rest' hrest => ?_
      rw [readLevels]
      exact hread rest' hrest
  | cons operators tighter ih =>
    cases ih with
    | fails front rest hts hcompletes hfails =>
      exact .fails front rest hts hcompletes.firstOperand
        fun rest' hrest => failsAt_levels (hfails rest' hrest)
    | reads left front mid hts hleft =>
      subst hts
      have hlength := (hleft mid rfl).1
      obtain ⟨d, rfl⟩ := exists_tokens_eq (hleft mid rfl)
      cases (hbehind mid (List.suffix_append _ _) hlength).chain operators tighter left with
      | fails front rest hts hcompletes hfails =>
        subst hts
        refine .fails (d.tokens ++ front) rest (by simp) (hcompletes.operands d)
          fun rest' hrest => ?_
        rw [List.append_assoc]
        exact failsAt_operands (hleft _ (head?_append_congr front hrest)) (hfails rest' hrest)
      | reads f front rest hts hread =>
        subst hts
        refine .reads f (d.tokens ++ front) rest (by simp) fun rest' hrest => ?_
        rw [List.append_assoc]
        exact reads_levels (hleft _ (head?_append_congr front hrest)) (hread rest' hrest)

theorem steady_sign {t : Token} (hkind : t.kind = .operator)
    (htext : t.text = "-" ∨ t.text = "+") (h : Steady finish .unary (readUnary finish) ts) :
    Steady finish .unary (readUnary finish) (t :: ts) := by
  cases h with
  | fails front rest hts hcompletes hfails =>
    subst hts
    have hsign : isOperator t "-" = true ∨ isOperator t "+" = true := by
      unfold isOperator
      rcases htext with htext | htext
      all_goals simp [hkind, htext]
    exact .fails (t :: front) rest rfl (hcompletes.sign hkind htext)
      fun rest' hrest => failsAt_sign hsign (hfails rest' hrest)
  | reads f front rest hts hread =>
    subst hts
    rcases htext with hminus | hplus
    · exact .reads (negate f) (t :: front) rest rfl
        fun rest' hrest => reads_minus hkind hminus (hread rest' hrest)
    · exact .reads f (t :: front) rest rfl
        fun rest' hrest => reads_plus hkind hplus (hread rest' hrest)

theorem steady_identifier {t : Token} (hkind : t.kind = .identifier)
    (harguments : ∀ mid, mid <:+ ts → Steady finish .arguments (readArguments finish) mid) :
    Steady finish .unary (readUnary finish) (t :: ts) := by
  have hoperator : t.kind ≠ .operator := by simp [hkind]
  by_cases hcall : ∃ next ∈ ts.head?, next.kind = .opening
  case neg =>
    refine .reads (.reference t.text) [t] ts rfl
      fun rest' hrest => reads_primary hoperator (reads_name hkind ?_)
    intro next hnext hopening
    exact hcall ⟨next, hrest ▸ hnext, hopening⟩
  obtain ⟨opening, hhead, hopening⟩ := hcall
  obtain ⟨tail, rfl⟩ := List.head?_eq_some_iff.1 hhead
  cases harguments tail (List.suffix_cons _ _) with
  | fails front rest hts hcompletes hfails =>
    subst hts
    exact .fails (t :: opening :: front) rest rfl (hcompletes.call hkind hopening)
      fun rest' hrest => failsAt_call hkind hopening (hfails rest' hrest)
  | reads given front rest hts hread =>
    subst hts
    exact .reads (.namedCall t.text given) (t :: opening :: front) rest rfl
      fun rest' hrest => reads_primary hoperator (reads_call hkind hopening (hread rest' hrest))

theorem steady_parentheses {t : Token} (hopening : t.kind = .opening)
    (h : Steady finish .expression (readLevels finish Operator.levels) ts) :
    Steady finish .unary (readUnary finish) (t :: ts) := by
  have hoperator : t.kind ≠ .operator := by simp [hopening]
  cases h with
  | fails front rest hts hcompletes hfails =>
    subst hts
    exact .fails (t :: front) rest rfl (hcompletes.parentheses hopening)
      fun rest' hrest => failsAt_parentheses hopening (hfails rest' hrest)
  | reads f front mid hts hread =>
    subst hts
    by_cases hclosed : ∃ next ∈ mid.head?, next.kind = .closing
    case neg =>
      obtain ⟨d, rfl⟩ := exists_tokens_eq (hread mid rfl)
      refine .fails (t :: d.tokens) mid rfl ((Symbol.Completes.derived d).parentheses hopening)
        fun rest' hrest => failsAt_unclosed hopening (hread rest' hrest) ?_
      intro next hnext hclosing
      exact hclosed ⟨next, hrest ▸ hnext, hclosing⟩
    -- the parenthesis is taken too, so that nothing behind it is looked at
    obtain ⟨closing, hhead, hclosing⟩ := hclosed
    obtain ⟨rest, rfl⟩ := List.head?_eq_some_iff.1 hhead
    refine .reads f (t :: (front ++ [closing])) rest (by simp) fun rest' _ => ?_
    rw [List.cons_append, List.append_assoc]
    exact reads_primary hoperator (reads_parentheses hopening hclosing (hread _ rfl))

theorem steady_unary (hconverts : ∀ t ∈ ts, t.Converts)
    (hbehind : SteadyBehind finish ts) :
    Steady finish .unary (readUnary finish) ts := by
  cases ts with
  | nil =>
    refine .fails [] [] rfl .nil fun rest' hrest => ?_
    rw [List.head?_eq_none_iff.1 hrest]
    exact ⟨_, by rw [List.nil_append, readUnary], rfl⟩
  | cons t ts =>
    have hts := hbehind ts (List.suffix_cons _ _) (by simp)
    by_cases hleaf : t.kind.isLeaf = true
    · obtain ⟨f, hf⟩ := exists_leaf_iff.2 ⟨hleaf, hconverts t List.mem_cons_self⟩
      have hoperator : t.kind ≠ .operator := fun h => by simp [h, TokenKind.isLeaf] at hleaf
      exact .reads f [t] ts rfl fun rest' _ => reads_primary hoperator (reads_leaf hf)
    by_cases hname : t.kind = .identifier
    · refine steady_identifier hname fun mid hmid => ?_
      exact (hbehind mid (hmid.trans (List.suffix_cons _ _))
        (Nat.lt_succ_of_le hmid.length_le)).arguments
    by_cases hopening : t.kind = .opening
    · exact steady_parentheses hopening (hts.levels Operator.levels)
    by_cases hsign : t.kind = .operator ∧ (t.text = "-" ∨ t.text = "+")
    · exact steady_sign hsign.1 hsign.2 hts.unary
    -- no expression starts so
    refine .fails [] (t :: ts) rfl .nil fun rest' hrest => ?_
    obtain ⟨tail, rfl⟩ := List.head?_eq_some_iff.1 hrest
    refine failsAt_unexpected ?_ ⟨Bool.eq_false_iff.2 hleaf, hname, hopening⟩
    simpa [isOperator, ← and_or_left] using hsign

theorem steady_argumentList
    (hargument : Steady finish .expression (readLevels finish Operator.levels) ts)
    (hbehind : SteadyBehind finish ts) :
    Steady finish .argumentList (readArgumentList finish) ts := by
  cases hargument with
  | fails front rest hts hcompletes hfails =>
    exact .fails front rest hts hcompletes.lastArgument
      fun rest' hrest => failsAt_firstArgument (hfails rest' hrest)
  | reads f front mid hts hread =>
    subst hts
    obtain ⟨d, rfl⟩ := exists_tokens_eq (hread mid rfl)
    by_cases hnext : ∃ next ∈ mid.head?, next.kind = .comma ∨ next.kind = .closing
    case neg =>
      refine .fails d.tokens mid rfl (Symbol.Completes.derived d).lastArgument
        fun rest' hrest => failsAt_unseparated (hread rest' hrest) ?_
      intro next hhead
      exact not_or.1 fun hkind => hnext ⟨next, hrest ▸ hhead, hkind⟩
    obtain ⟨next, hhead, hkind⟩ := hnext
    obtain ⟨tail, rfl⟩ := List.head?_eq_some_iff.1 hhead
    rcases hkind with hcomma | hclosing
    · have htail : tail <:+ d.tokens ++ next :: tail :=
        (List.suffix_cons _ _).trans (List.suffix_append _ _)
      have hlength : tail.length < (d.tokens ++ next :: tail).length := by
        rw [List.length_append, List.length_cons]
        omega
      cases (hbehind tail htail hlength).argumentList with
      | fails front rest hts hcompletes hfails =>
        subst hts
        refine .fails (d.tokens ++ next :: front) rest (by simp)
          (hcompletes.moreArguments d hcomma) fun rest' hrest => ?_
        rw [List.append_assoc, List.cons_append]
        exact failsAt_moreArguments hcomma (hread _ rfl) (hfails rest' hrest)
      | reads given front rest hts hgiven =>
        subst hts
        refine .reads (f :: given) (d.tokens ++ next :: front) rest (by simp)
          fun rest' hrest => ?_
        rw [List.append_assoc, List.cons_append]
        exact reads_more_arguments hcomma (hread _ rfl) (hgiven rest' hrest)
    · refine .reads [f] (d.tokens ++ [next]) tail (by simp) fun rest' _ => ?_
      rw [List.append_assoc]
      exact reads_last_argument hclosing (hread _ rfl)

theorem steady_arguments
    (hlist : Steady finish .argumentList (readArgumentList finish) ts) :
    Steady finish .arguments (readArguments finish) ts := by
  cases ts with
  | nil =>
    refine .fails [] [] rfl ⟨.noArguments, [], rfl, List.forall_mem_nil _⟩ fun rest' hrest => ?_
    rw [List.head?_eq_none_iff.1 hrest]
    exact ⟨_, by rw [List.nil_append, readArguments], rfl⟩
  | cons t ts =>
    by_cases hclosing : t.kind = .closing
    · exact .reads [] [t] ts rfl fun rest' _ => reads_no_arguments hclosing
    cases hlist with
    | fails front rest hts hcompletes hfails =>
      refine .fails front rest hts hcompletes.arguments
        fun rest' hrest => failsAt_arguments ?_ hclosing (hfails rest' hrest)
      rw [head?_append_congr front hrest, ← hts, List.head?_cons]
    | reads given front rest hts hread =>
      exact .reads given front rest hts fun rest' hrest => reads_arguments (hread rest' hrest)

end Steps

/-- The readers are steady on every row of tokens whose leaves convert. -/
theorem steadyReaders (finish : Token) (ts : List Token) (hconverts : ∀ t ∈ ts, t.Converts) :
    SteadyReaders finish ts := by
  -- on the number of tokens: a reader hands the same tokens to a reader further down at most, and
  -- to all others fewer
  induction hlength : ts.length using Nat.strongRecOn generalizing ts with
  | ind n ih =>
    have hbehind : SteadyBehind finish ts := fun mid hmid hlt =>
      ih mid.length (hlength ▸ hlt) mid (fun t ht => hconverts t (hmid.mem ht)) rfl
    have hunary := steady_unary hconverts hbehind
    have hlist := steady_argumentList (steady_levels hunary hbehind Operator.levels) hbehind
    exact {
      levels := steady_levels hunary hbehind
      chain := fun _ _ left => steady_chain hbehind left
      unary := hunary
      arguments := steady_arguments hlist
      argumentList := hlist }

end Expression

namespace Formula

open Expression

variable {finish : Token} {ts front rest : List Token}

theorem ofTokens_of_failsAt (hrest : rest <:+ ts)
    (h : FailsAt finish (readLevels finish Operator.levels ts) rest) :
    ∃ m, ofTokens finish ts = .error m ∧ m.offset = (current finish rest).offset := by
  unfold ofTokens
  by_cases hempty : ts.isEmpty = true
  · rw [List.isEmpty_iff.1 hempty, List.suffix_nil] at hrest
    rw [if_pos hempty, hrest]
    exact ⟨_, rfl, rfl⟩
  · obtain ⟨m, hread, hoffset⟩ := h
    rw [if_neg hempty, Expression.read, hread]
    exact ⟨m, rfl, hoffset⟩

theorem ofTokens_of_reads {f : Formula} {t : Token}
    (h : Reads (readLevels finish Operator.levels (front ++ t :: rest)) f (t :: rest)) :
    ofTokens finish (front ++ t :: rest) = .error ⟨.unexpectedAfter t, t.offset⟩ := by
  obtain ⟨hlength, hread⟩ := h
  rw [ofTokens, if_neg (by simp), Expression.read, hread]

/-- Tokens that are no formula have a front that is the front of one, and with the token behind it
no longer is. -/
theorem ofTokens_fails (hconverts : ∀ t ∈ ts, t.Converts)
    (hfails : ∀ f, ofTokens finish ts ≠ .ok f) :
    ∃ front rest, ts = front ++ rest ∧ Symbol.expression.Completes front ∧
      ∀ rest' : List Token, rest'.head? = rest.head? → ∃ m,
        ofTokens finish (front ++ rest') = .error m ∧
          m.offset = (current finish rest').offset := by
  cases (steadyReaders finish ts hconverts).levels Operator.levels with
  | fails front rest hts hcompletes h =>
    refine ⟨front, rest, hts, hcompletes, fun rest' hrest => ?_⟩
    exact ofTokens_of_failsAt (List.suffix_append front rest') (h rest' hrest)
  | reads f front rest hts h =>
    subst hts
    obtain ⟨d, rfl⟩ := exists_tokens_eq (h rest rfl)
    refine ⟨d.tokens, rest, rfl, .derived d, fun rest' hrest => ?_⟩
    cases rest with
    | nil =>
      obtain ⟨hlength, hread⟩ := h [] rfl
      have hsome : ¬(d.tokens ++ []).isEmpty = true := by
        rw [List.isEmpty_iff_length_eq_zero]
        exact Nat.ne_of_gt hlength
      refine absurd ?_ (hfails f)
      rw [ofTokens, if_neg hsome, Expression.read, hread]
    | cons t rest =>
      obtain ⟨tail, rfl⟩ := List.head?_eq_some_iff.1 hrest
      exact ⟨_, ofTokens_of_reads (h _ hrest), rfl⟩

end Formula
end Spreadsheet
