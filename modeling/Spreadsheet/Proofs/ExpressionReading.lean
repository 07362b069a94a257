import Spreadsheet.Formula.Expression

/-!
How expressions are read from tokens, step by step. Each step of the reader has a lemma that says
what it gives when the steps below it succeed; from these, rows of tokens that read as a formula at
a level of operators are put together.
-/
namespace Spreadsheet.Expression

/-- The reading succeeds with `a` and leaves the tokens `rest`. -/
def Reads {α : Type} {P : List Token → Prop} (reading : Except Misfit (α × { rest // P rest }))
    (a : α) (rest : List Token) : Prop :=
  ∃ h, reading = .ok (a, ⟨rest, h⟩)

variable {finish t next : Token} {ts mid rest rest' : List Token}

/-! ## One step of the reader -/

theorem not_isOperator (hkind : t.kind ≠ .operator) (text : String) :
    ¬isOperator t text = true := by
  intro hop
  rw [isOperator, Bool.and_eq_true, beq_iff_eq] at hop
  exact hkind hop.1

theorem isOperator_of_mem {operators : List String} (hkind : t.kind = .operator)
    (htext : t.text ∈ operators) :
    (t.kind == .operator && operators.contains t.text) = true := by
  rw [Bool.and_eq_true, beq_iff_eq, List.contains_iff_mem]
  exact ⟨hkind, htext⟩

theorem leaf?_eq_none
    (hkind : t.kind = .identifier ∨ t.kind = .opening ∨ t.kind = .closing) :
    leaf? t = none := by
  unfold leaf?
  rcases hkind with hkind | hkind | hkind
  all_goals rw [hkind]

theorem reads_levels {operators : List String} {tighter : List (List String)} {left f : Formula}
    (hleft : Reads (readLevels finish tighter ts) left mid)
    (hchain : Reads (readChain finish operators tighter left mid) f rest) :
    Reads (readLevels finish (operators :: tighter) ts) f rest := by
  obtain ⟨hmid, hleft⟩ := hleft
  obtain ⟨hrest, hchain⟩ := hchain
  refine ⟨Nat.lt_of_le_of_lt hrest hmid, ?_⟩
  rw [readLevels, hleft]
  dsimp only
  rw [hchain]

theorem reads_chain_stop {operators : List String} (tighter : List (List String)) (left : Formula)
    (h : ∀ t ∈ ts.head?, t.kind = .operator → t.text ∉ operators) :
    Reads (readChain finish operators tighter left ts) left ts := by
  refine ⟨Nat.le_refl _, ?_⟩
  cases ts with
  | nil => rw [readChain]
  | cons t rest =>
    have hstop : ¬(t.kind == .operator && operators.contains t.text) = true := by
      intro hmore
      rw [Bool.and_eq_true, beq_iff_eq, List.contains_iff_mem] at hmore
      exact h t rfl hmore.1 hmore.2
    rw [readChain, if_neg hstop]

theorem reads_chain_step {operators : List String} {tighter : List (List String)}
    {left right f : Formula} (hkind : t.kind = .operator) (htext : t.text ∈ operators)
    (hright : Reads (readLevels finish tighter ts) right mid)
    (hchain : Reads (readChain finish operators tighter (.binary t.text left right) mid) f rest) :
    Reads (readChain finish operators tighter left (t :: ts)) f rest := by
  obtain ⟨hmid, hright⟩ := hright
  obtain ⟨hrest, hchain⟩ := hchain
  refine ⟨by rw [List.length_cons]; omega, ?_⟩
  rw [readChain, if_pos (isOperator_of_mem hkind htext), hright]
  dsimp only
  rw [hchain]

theorem reads_minus {f : Formula} (hkind : t.kind = .operator) (htext : t.text = "-")
    (hread : Reads (readUnary finish ts) f rest) :
    Reads (readUnary finish (t :: ts)) (negate f) rest := by
  have hminus : isOperator t "-" = true := by
    rw [isOperator, hkind, htext]
    decide
  obtain ⟨hrest, hread⟩ := hread
  refine ⟨by rw [List.length_cons]; omega, ?_⟩
  rw [readUnary, if_pos hminus, hread]

theorem reads_plus {f : Formula} (hkind : t.kind = .operator) (htext : t.text = "+")
    (hread : Reads (readUnary finish ts) f rest) : Reads (readUnary finish (t :: ts)) f rest := by
  have hplus : isOperator t "+" = true := by
    rw [isOperator, hkind, htext]
    decide
  have hminus : ¬isOperator t "-" = true := by
    rw [isOperator, hkind, htext]
    decide
  obtain ⟨hrest, hread⟩ := hread
  refine ⟨by rw [List.length_cons]; omega, ?_⟩
  rw [readUnary, if_neg hminus, if_pos hplus, hread]

theorem reads_primary {f : Formula} (hkind : t.kind ≠ .operator)
    (hread : Reads (readPrimary finish t ts) f rest) :
    Reads (readUnary finish (t :: ts)) f rest := by
  rw [readUnary, if_neg (not_isOperator hkind "-"), if_neg (not_isOperator hkind "+")]
  exact hread

theorem reads_leaf {f : Formula} (hleaf : leaf? t = some (.ok f)) :
    Reads (readPrimary finish t ts) f ts := by
  refine ⟨length_lt_cons t ts, ?_⟩
  rw [readPrimary.eq_def, hleaf]

theorem reads_name (hkind : t.kind = .identifier) (hnext : ∀ n ∈ ts.head?, n.kind ≠ .opening) :
    Reads (readPrimary finish t ts) (.reference t.text) ts := by
  have hleaf : leaf? t = none := leaf?_eq_none (.inl hkind)
  refine ⟨length_lt_cons t ts, ?_⟩
  rw [readPrimary.eq_def, hleaf]
  dsimp only
  rw [hkind]
  cases ts with
  | nil => rfl
  | cons n ts =>
    dsimp only
    rw [if_neg (hnext n rfl)]

theorem reads_call {arguments : List Formula} (hkind : t.kind = .identifier)
    (hopening : next.kind = .opening) (hread : Reads (readArguments finish ts) arguments rest) :
    Reads (readPrimary finish t (next :: ts)) (.namedCall t.text arguments) rest := by
  have hleaf : leaf? t = none := leaf?_eq_none (.inl hkind)
  obtain ⟨hrest, hread⟩ := hread
  refine ⟨by simp only [List.length_cons]; omega, ?_⟩
  rw [readPrimary.eq_def, hleaf]
  dsimp only
  rw [hkind]
  dsimp only
  rw [if_pos hopening, hread]

theorem reads_parentheses {f : Formula} (hopening : t.kind = .opening)
    (hclosing : next.kind = .closing)
    (hread : Reads (readLevels finish Operator.levels ts) f (next :: rest)) :
    Reads (readPrimary finish t ts) f rest := by
  have hleaf : leaf? t = none := leaf?_eq_none (.inr (.inl hopening))
  obtain ⟨hrest, hread⟩ := hread
  refine ⟨by simp only [List.length_cons] at hrest ⊢; omega, ?_⟩
  rw [readPrimary.eq_def, hleaf]
  dsimp only
  rw [hopening]
  dsimp only
  rw [hread]
  dsimp only
  rw [if_pos hclosing]

theorem reads_no_arguments (hclosing : t.kind = .closing) :
    Reads (readArguments finish (t :: ts)) [] ts := by
  refine ⟨length_lt_cons t ts, ?_⟩
  rw [readArguments, if_pos hclosing]

theorem reads_last_argument {f : Formula} (hclosing : next.kind = .closing)
    (hread : Reads (readLevels finish Operator.levels ts) f (next :: rest)) :
    Reads (readArgumentList finish ts) [f] rest := by
  have hcomma : next.kind ≠ .comma := by
    rw [hclosing]
    decide
  obtain ⟨hrest, hread⟩ := hread
  refine ⟨by rw [List.length_cons] at hrest; omega, ?_⟩
  rw [readArgumentList, hread]
  dsimp only
  rw [if_neg hcomma, if_pos hclosing]

theorem reads_more_arguments {f : Formula} {arguments : List Formula} (hcomma : next.kind = .comma)
    (hread : Reads (readLevels finish Operator.levels ts) f (next :: mid))
    (hmore : Reads (readArgumentList finish mid) arguments rest) :
    Reads (readArgumentList finish ts) (f :: arguments) rest := by
  obtain ⟨hmid, hread⟩ := hread
  obtain ⟨hrest, hmore⟩ := hmore
  refine ⟨by rw [List.length_cons] at hmid; omega, ?_⟩
  rw [readArgumentList, hread]
  dsimp only
  rw [if_pos hcomma, hmore]

/-- An expression does not start with a closing parenthesis. -/
theorem readLevels_closing (levels : List (List String)) (hclosing : t.kind = .closing) :
    readLevels finish levels (t :: ts) = .error { fault := .unexpected t, offset := t.offset } := by
  have hleaf : leaf? t = none := leaf?_eq_none (.inr (.inr hclosing))
  have hkind : t.kind ≠ .operator := by
    rw [hclosing]
    decide
  induction levels with
  | nil =>
    rw [readLevels, readUnary, if_neg (not_isOperator hkind "-"),
      if_neg (not_isOperator hkind "+"), readPrimary.eq_def, hleaf]
    dsimp only
    rw [hclosing]
  | cons operators tighter ih => rw [readLevels, ih]

theorem reads_arguments {arguments : List Formula}
    (hread : Reads (readArgumentList finish ts) arguments rest) :
    Reads (readArguments finish ts) arguments rest := by
  obtain ⟨hrest, hread⟩ := hread
  refine ⟨hrest, ?_⟩
  cases ts with
  | nil => exact absurd hrest (Nat.not_lt_zero _)
  | cons t ts =>
    -- a list of arguments is not tried where the parenthesis closes at once
    have hkind : ¬t.kind = .closing := by
      intro hclosing
      rw [readArgumentList, readLevels_closing _ hclosing] at hread
      cases hread
    rw [readArguments, if_neg hkind]
    exact hread

/-! ## Rows of tokens that read as a formula -/

/-- The next token is neither an operator of the levels nor an opening parenthesis. -/
def Ends (levels : List (List String)) (ts : List Token) : Prop :=
  ∀ t ∈ ts.head?, t.kind ≠ .opening ∧
    (t.kind = .operator → ∀ operators ∈ levels, t.text ∉ operators)

theorem Ends.mono {levels levels' : List (List String)} {ts : List Token} (h : Ends levels ts)
    (hlevels : ∀ operators ∈ levels', operators ∈ levels) : Ends levels' ts := by
  intro t ht
  obtain ⟨hopening, hoperator⟩ := h t ht
  exact ⟨hopening, fun hkind operators hmem => hoperator hkind operators (hlevels operators hmem)⟩

theorem ends_cons {levels : List (List String)} {t : Token} (ts : List Token)
    (hopening : t.kind ≠ .opening) (hoperator : t.kind ≠ .operator) : Ends levels (t :: ts) := by
  intro head hhead
  cases hhead
  exact ⟨hopening, fun hkind => absurd hkind hoperator⟩

theorem ends_closing (levels : List (List String)) {t : Token} (ts : List Token)
    (hclosing : t.kind = .closing) : Ends levels (t :: ts) :=
  ends_cons ts (by simp [hclosing]) (by simp [hclosing])

theorem ends_comma (levels : List (List String)) {t : Token} (ts : List Token)
    (hcomma : t.kind = .comma) : Ends levels (t :: ts) :=
  ends_cons ts (by simp [hcomma]) (by simp [hcomma])

/-- Whether no operator from the given level on, and no opening parenthesis, stands next. -/
def Stops (level : Nat) (ts : List Token) : Prop :=
  ∀ t ∈ ts.head?, t.kind ≠ .opening ∧
    (t.kind = .operator → ∀ operators ∈ Operator.levels.drop level, t.text ∉ operators)

/-- Goes on from the operand `left` with further operands of the first of the levels. -/
def Continues (finish : Token) (levels : List (List String)) (left : Formula) (ts : List Token)
    (f : Formula) (rest : List Token) : Prop :=
  match levels with
  | [] => f = left ∧ rest = ts
  | operators :: tighter => Reads (readChain finish operators tighter left ts) f rest

/-- Whether the tokens are an operand `f` for the operators of the given level. What is read may
go on with operators of that level behind them, but of no later one. -/
def Readable (level : Nat) (ts : List Token) (f : Formula) : Prop :=
  ∀ (finish : Token) (after : List Token), Stops (level + 1) after →
    ∀ (g : Formula) (rest : List Token),
      Continues finish (Operator.levels.drop level) f after g rest →
        Reads (readLevels finish (Operator.levels.drop level) (ts ++ after)) g rest

theorem Stops.mono {level level' : Nat} (h : Stops level ts) (hle : level ≤ level') :
    Stops level' ts :=
  Ends.mono h fun _ hmem => (List.drop_sublist_drop_left _ hle).subset hmem

theorem Stops.continues {level : Nat} (h : Stops level ts) (f : Formula) :
    Continues finish (Operator.levels.drop level) f ts f ts := by
  unfold Continues
  split
  next => exact ⟨rfl, rfl⟩
  next operators tighter hlevels =>
    apply reads_chain_stop
    intro t ht hkind
    exact (h t ht).2 hkind operators (hlevels ▸ List.mem_cons_self)

theorem Readable.reads {level : Nat} {f : Formula} {after : List Token}
    (h : Readable level ts f) (hafter : Stops level after) :
    Reads (readLevels finish (Operator.levels.drop level) (ts ++ after)) f after :=
  h finish after (hafter.mono (Nat.le_succ level)) f after (hafter.continues f)

/-- An operand of one level is an operand of the weaker levels too. -/
theorem Readable.weaken {level : Nat} {f : Formula} (h : Readable (level + 1) ts f)
    (hlevel : level < Operator.levels.length) : Readable level ts f := by
  intro finish after hafter g rest hcontinues
  have hread : Reads (readLevels finish (Operator.levels.drop (level + 1)) (ts ++ after)) f after :=
    h.reads hafter
  rw [List.drop_eq_getElem_cons hlevel] at hcontinues ⊢
  exact reads_levels hread hcontinues

theorem Readable.weaken_to {level level' : Nat} {f : Formula} (h : Readable level' ts f)
    (hle : level ≤ level') (hlevel : level' ≤ Operator.levels.length) : Readable level ts f := by
  induction hle with
  | refl => exact h
  | step hle ih => exact ih (h.weaken hlevel) (Nat.le_of_succ_le hlevel)

/-- What signs and primaries are read as is an operand of every level. -/
theorem readable_of_unary {f : Formula}
    (h : ∀ (finish : Token) (after : List Token), Stops Operator.levels.length after →
      Reads (readUnary finish (ts ++ after)) f after) :
    Readable Operator.levels.length ts f := by
  intro finish after hafter g rest hcontinues
  have hstops : Stops Operator.levels.length after := by
    intro t ht
    refine ⟨(hafter t ht).1, fun hkind operators hmem => ?_⟩
    rw [List.drop_length] at hmem
    cases hmem
  rw [List.drop_length] at hcontinues ⊢
  obtain ⟨rfl, rfl⟩ := hcontinues
  rw [readLevels]
  exact h finish rest hstops

theorem Readable.unary {f : Formula} {after : List Token}
    (h : Readable Operator.levels.length ts f) (hafter : Stops Operator.levels.length after) :
    Reads (readUnary finish (ts ++ after)) f after := by
  have hread : Reads (readLevels finish _ (ts ++ after)) f after := h.reads hafter
  rw [List.drop_length, readLevels] at hread
  exact hread

theorem readable_leaf {f : Formula} (hkind : t.kind ≠ .operator)
    (hleaf : leaf? t = some (.ok f)) : Readable Operator.levels.length [t] f := by
  apply readable_of_unary
  intro finish after hafter
  exact reads_primary hkind (reads_leaf hleaf)

theorem readable_name (hkind : t.kind = .identifier) :
    Readable Operator.levels.length [t] (.reference t.text) := by
  apply readable_of_unary
  intro finish after hafter
  apply reads_primary (by rw [hkind]; decide)
  exact reads_name hkind fun n hn => (hafter n hn).1

theorem readable_minus {f : Formula} (hkind : t.kind = .operator) (htext : t.text = "-")
    (h : Readable Operator.levels.length ts f) :
    Readable Operator.levels.length (t :: ts) (negate f) := by
  apply readable_of_unary
  intro finish after hafter
  exact reads_minus hkind htext (h.unary hafter)

theorem readable_parentheses {f : Formula} (hopening : t.kind = .opening)
    (hclosing : next.kind = .closing) (h : Readable 0 ts f) :
    Readable Operator.levels.length (t :: (ts ++ [next])) f := by
  apply readable_of_unary
  intro finish after hafter
  rw [List.cons_append, List.append_assoc, List.singleton_append]
  apply reads_primary (by rw [hopening]; decide)
  exact reads_parentheses hopening hclosing (h.reads (ends_closing _ _ hclosing))

/-- Whether the tokens are arguments with commas between them and the closing parenthesis. -/
def ReadableArguments (ts : List Token) (arguments : List Formula) : Prop :=
  ∀ (finish : Token) (after : List Token),
    Reads (readArguments finish (ts ++ after)) arguments after

/-- At least one argument. -/
def ReadableList (ts : List Token) (arguments : List Formula) : Prop :=
  ∀ (finish : Token) (after : List Token),
    Reads (readArgumentList finish (ts ++ after)) arguments after

theorem readableList_last {f : Formula} (hclosing : next.kind = .closing) (h : Readable 0 ts f) :
    ReadableList (ts ++ [next]) [f] := by
  intro finish after
  apply reads_last_argument hclosing
  rw [List.append_assoc, List.singleton_append]
  exact h.reads (ends_closing _ _ hclosing)

theorem readableList_more {f : Formula} {arguments : List Formula} (hcomma : next.kind = .comma)
    (h : Readable 0 ts f) (hmore : ReadableList mid arguments) :
    ReadableList (ts ++ next :: mid) (f :: arguments) := by
  intro finish after
  rw [List.append_assoc, List.cons_append]
  exact reads_more_arguments hcomma (h.reads (ends_comma _ _ hcomma)) (hmore finish after)

theorem ReadableList.arguments {arguments : List Formula} (h : ReadableList ts arguments) :
    ReadableArguments ts arguments :=
  fun finish after => reads_arguments (h finish after)

theorem readableArguments_none (hclosing : t.kind = .closing) : ReadableArguments [t] [] :=
  fun _ _ => reads_no_arguments hclosing

theorem readable_call {arguments : List Formula} (hkind : t.kind = .identifier)
    (hopening : next.kind = .opening) (h : ReadableArguments ts arguments) :
    Readable Operator.levels.length (t :: next :: ts) (.namedCall t.text arguments) := by
  apply readable_of_unary
  intro finish after hafter
  apply reads_primary (by rw [hkind]; decide)
  exact reads_call hkind hopening (h finish after)

/-- No operator belongs to two levels. -/
theorem levels_disjoint :
    Operator.levels.Pairwise fun weaker tighter => ∀ operator ∈ weaker, operator ∉ tighter := by
  decide

theorem readable_binary {level : Nat} {left right : Formula} {operators : List String}
    (hlevel : Operator.levels[level]? = some operators) (hkind : t.kind = .operator)
    (htext : t.text ∈ operators) (hleft : Readable level ts left)
    (hright : Readable (level + 1) mid right) :
    Readable level (ts ++ t :: mid) (.binary t.text left right) := by
  obtain ⟨hlt, hget⟩ := List.getElem?_eq_some_iff.1 hlevel
  intro finish after hafter g rest hcontinues
  -- the left operand ends at the operator, which is on no tighter level
  have hstops : Stops (level + 1) (t :: (mid ++ after)) := by
    intro d hd
    cases hd
    refine ⟨by rw [hkind]; decide, fun _ operators' hmem htext' => ?_⟩
    obtain ⟨i, hi, rfl⟩ := List.getElem_of_mem hmem
    rw [List.getElem_drop] at htext'
    have hi' : level + 1 + i < Operator.levels.length := by
      rw [List.length_drop] at hi
      omega
    have hdisjoint := List.pairwise_iff_getElem.1 levels_disjoint level (level + 1 + i) hlt hi'
      (by omega)
    exact hdisjoint t.text (hget ▸ htext) htext'
  rw [List.append_assoc, List.cons_append]
  -- the chain that the left operand starts takes the right one in and then goes on
  apply hleft finish _ hstops
  rw [List.drop_eq_getElem_cons hlt, hget] at hcontinues ⊢
  exact reads_chain_step hkind htext (hright.reads hafter) hcontinues

end Spreadsheet.Expression
