import Spreadsheet.Formula.Render
import Spreadsheet.Proofs.DefinitionGrammar

/-!
What formula trees are made of. The trees of texts have literals and names for leaves and calls
above them, and substitution keeps them so; the only other trees are built by hand.
-/
namespace Spreadsheet

namespace Literal

/-- Whether the literal is no cell that is bound to a range of rows. -/
def isUnscoped : Literal → Bool
  | .cell _ rows => rows.isNone
  | _ => true

/-- Whether the literal can be seen from a row: a cell that is bound to a range of rows can be
seen only from those. -/
def isVisibleFrom (row : Nat) : Literal → Bool
  | .cell _ rows => rows.all (·.contains row)
  | _ => true

theorem isVisibleFrom_of_isUnscoped {value : Literal} (row : Nat) (h : value.isUnscoped = true) :
    value.isVisibleFrom row = true := by
  cases value with
  | cell address rows =>
    rw [isUnscoped, Option.isNone_iff_eq_none] at h
    rw [isVisibleFrom, h, Option.all_none]
  | _ => rfl

end Literal

namespace Formula

/-- Trees of calls over names and literals of a class. -/
inductive Over (leaf : Literal → Bool) : Formula → Prop
  | literal {value : Literal} (hleaf : leaf value = true) : Over leaf (.literal value)
  | name (id : String) : Over leaf (.name id)
  | call {form : CallForm} {id : String} {arguments : List Formula}
    (harguments : ∀ f ∈ arguments, Over leaf f) : Over leaf (.call form id arguments)

variable {leaf leaf' : Literal → Bool} {f g : Formula}

theorem over_literal_iff {value : Literal} : Over leaf (.literal value) ↔ leaf value = true := by
  constructor
  · intro h
    cases h with
    | literal hleaf => exact hleaf
  · exact .literal

theorem over_call_iff {form : CallForm} {id : String} {arguments : List Formula} :
    Over leaf (.call form id arguments) ↔ ∀ f ∈ arguments, Over leaf f := by
  constructor
  · intro h
    cases h with
    | call harguments => exact harguments
  · exact .call

theorem mem_nodes_of_argument {form : CallForm} {id : String} {arguments : List Formula}
    (hf : f ∈ arguments) (hg : g ∈ f.nodes) : g ∈ (Formula.call form id arguments).nodes := by
  rw [nodes, nodesAll_eq]
  exact List.mem_cons_of_mem _ (List.mem_flatMap.2 ⟨f, hf, hg⟩)

theorem Over.mono (h : Over leaf f) (hleaf : ∀ value, leaf value = true → leaf' value = true) :
    Over leaf' f := by
  induction h with
  | literal hvalue => exact .literal (hleaf _ hvalue)
  | name id => exact .name id
  | call _ ih => exact .call ih

/-- Every formula in such a tree is such a tree. -/
theorem Over.of_mem_nodes (h : Over leaf f) : ∀ node ∈ f.nodes, Over leaf node := by
  induction h with
  | literal hvalue =>
    intro node hnode
    rw [nodes, List.mem_singleton] at hnode
    · exact hnode ▸ .literal hvalue
    -- the equation of the other leaves asks that the tree is none of the inner nodes
    all_goals
      intros
      contradiction
  | name id =>
    intro node hnode
    rw [nodes, List.mem_singleton] at hnode
    · exact hnode ▸ .name id
    all_goals
      intros
      contradiction
  | call harguments ih =>
    intro node hnode
    rw [nodes, nodesAll_eq] at hnode
    cases List.mem_cons.1 hnode with
    | inl heq => exact heq ▸ .call harguments
    | inr hmem =>
      obtain ⟨argument, hargument, hbelow⟩ := List.mem_flatMap.1 hmem
      exact ih argument hargument node hbelow

theorem Over.substitute {values : String → Option Formula} (h : Over leaf f)
    (hvalues : ∀ id value, values id = some value → Over leaf value) :
    Over leaf (f.substitute values) := by
  induction h with
  | literal hvalue => exact .literal hvalue
  | name id =>
    rw [Formula.substitute]
    cases hid : values id with
    | none => exact .name id
    | some value => exact hvalues id value hid
  | call _ ih =>
    rw [Formula.substitute, substituteAll_eq]
    refine .call fun g hg => ?_
    obtain ⟨argument, hargument, rfl⟩ := List.mem_map.1 hg
    exact ih argument hargument

theorem over_binary_iff {operator : String} :
    Over leaf (.binary operator f g) ↔ Over leaf f ∧ Over leaf g := by
  rw [binary, over_call_iff, List.forall_mem_cons, List.forall_mem_singleton]

theorem over_binary {operator : String} (hf : Over leaf f) (hg : Over leaf g) :
    Over leaf (.binary operator f g) :=
  over_binary_iff.2 ⟨hf, hg⟩

end Formula

/-! ## Trees of texts -/

/-- What holds of the leaves of a text and, if it holds of the operands, of a call in a text. -/
structure Formula.TextClosed (P : Formula → Prop) : Prop where
  literal : ∀ value : Literal, value.isUnscoped = true → P (.literal value)
  reference : ∀ id, P (.reference id)
  namedCall : ∀ id arguments, (∀ f ∈ arguments, P f) → P (.namedCall id arguments)
  operator : ∀ text operands, text ∈ Operator.levels.flatten → (∀ f ∈ operands, P f) →
    P (.call .operator text operands)

namespace Expression

open Formula (TextClosed)

variable {P : Formula → Prop}

/-- What holds of the trees of single tokens and of the trees that the rules build, in texts whose
tokens are all as `T` says. -/
structure TokenClosed (T : Token → Prop) (P : Formula → Prop) : Prop where
  leaf : ∀ t (hkind : t.kind.isLeaf = true), T t → P (Derivation.leaf t hkind).tree
  reference : ∀ t, t.kind = .identifier → T t → P (.reference t.text)
  namedCall : ∀ t arguments, t.kind = .identifier → T t → (∀ f ∈ arguments, P f) →
    P (.namedCall t.text arguments)
  binary : ∀ operator left right, operator ∈ Operator.levels.flatten → P left → P right →
    P (.binary operator left right)
  negate : ∀ f, P f → P (negate f)

theorem leaf?_of_textClosed (hP : TextClosed P) {t : Token} {f : Formula}
    (h : leaf? t = some (.ok f)) : P f := by
  unfold leaf? at h
  dsimp only at h
  split at h
  · cases h
    exact hP.literal _ rfl
  · cases h
    exact hP.literal _ rfl
  · cases h
    exact hP.literal _ rfl
  · split at h <;> cases h
    exact hP.literal _ rfl
  · split at h <;> cases h
    exact hP.literal _ rfl
  · cases h
    exact hP.reference _
  · cases h

theorem negate_of_textClosed (hP : TextClosed P) {f : Formula} (h : P f) : P (negate f) := by
  unfold negate
  split
  · exact hP.literal _ rfl
  · exact hP.operator "-" _ (by decide) (List.forall_mem_singleton.2 h)

theorem tokenClosed_of_textClosed (hP : TextClosed P) : TokenClosed (fun _ => True) P where
  leaf := by
    intro t hkind _
    show P (((leaf? t).bind Except.toOption).getD default)
    cases hleaf : leaf? t with
    | none => exact hP.literal _ rfl
    | some result =>
      cases result with
      | error misfit => exact hP.literal _ rfl
      | ok f => exact leaf?_of_textClosed hP hleaf
  reference := fun t _ _ => hP.reference t.text
  namedCall := fun t arguments _ _ harguments => hP.namedCall t.text arguments harguments
  binary := fun operator left right hoperator hleft hright => hP.operator operator _ hoperator
    (List.forall_mem_cons.2 ⟨hleft, List.forall_mem_singleton.2 hright⟩)
  negate := fun _ => negate_of_textClosed hP

/-- `P` holds of all trees in the value of a symbol; its operators are those of formulas. -/
def Symbol.Holds (P : Formula → Prop) : (s : Symbol) → s.Value → Prop
  | .chain _ _, operands =>
    ∀ operand ∈ operands, operand.1 ∈ Operator.levels.flatten ∧ P operand.2
  | .arguments, given | .argumentList, given => ∀ f ∈ given, P f
  | .level _, f | .unary, f | .primary, f => P f

variable {T : Token → Prop}

theorem foldLeft_of_tokenClosed (hP : TokenClosed T P) {first : Formula}
    {operands : List (String × Formula)} (hfirst : P first)
    (hoperands : ∀ operand ∈ operands, operand.1 ∈ Operator.levels.flatten ∧ P operand.2) :
    P (Derivation.foldLeft first operands) := by
  refine List.foldlRecOn operands _ hfirst fun left hleft operand hoperand => ?_
  obtain ⟨hoperator, hright⟩ := hoperands operand hoperand
  exact hP.binary _ _ _ hoperator hleft hright

theorem Derivation.holds (hP : TokenClosed T P) {s : Symbol} (d : Derivation s)
    (htokens : ∀ t ∈ d.tokens, T t) (hlevels : ∀ level ∈ s.levels, level ∈ Operator.levels) :
    s.Holds P d.tree := by
  induction d with
  | unary operand ih => exact ih htokens hlevels
  | operands first rest ihFirst ihRest =>
    obtain ⟨hfirst, hrest⟩ := List.forall_mem_append.1 htokens
    have htighter := (List.forall_mem_cons.1 hlevels).2
    exact foldLeft_of_tokenClosed hP (ihFirst hfirst htighter) (ihRest hrest hlevels)
  | noMore => exact List.forall_mem_nil _
  | more t hkind htext operand rest ihOperand ihRest =>
    obtain ⟨hoperand, hrest⟩ := List.forall_mem_append.1 (List.forall_mem_cons.1 htokens).2
    obtain ⟨hlevel, htighter⟩ := List.forall_mem_cons.1 hlevels
    exact List.forall_mem_cons.2
      ⟨⟨List.mem_flatten.2 ⟨_, hlevel, htext⟩, ihOperand hoperand htighter⟩,
        ihRest hrest hlevels⟩
  | sign t hkind htext operand ih =>
    have hoperand := ih (List.forall_mem_cons.1 htokens).2 hlevels
    show P (if t.text = "-" then Expression.negate operand.tree else operand.tree)
    split
    · exact hP.negate _ hoperand
    · exact hoperand
  | primary operand ih => exact ih htokens hlevels
  | leaf t hkind => exact hP.leaf t hkind (List.forall_mem_singleton.1 htokens)
  | name t hkind => exact hP.reference t hkind (List.forall_mem_singleton.1 htokens)
  | call t opening closing hkind hopening hclosing given ih =>
    obtain ⟨ht, hrest⟩ := List.forall_mem_cons.1 htokens
    have hgiven := (List.forall_mem_append.1 (List.forall_mem_cons.1 hrest).2).1
    exact hP.namedCall t _ hkind ht (ih hgiven hlevels)
  -- an expression starts over with all levels
  | parentheses opening closing hopening hclosing inner ih =>
    have hinner := (List.forall_mem_append.1 (List.forall_mem_cons.1 htokens).2).1
    exact ih hinner fun _ hlevel => hlevel
  | noArguments => exact List.forall_mem_nil _
  | arguments list ih => exact ih htokens hlevels
  | lastArgument argument ih =>
    exact List.forall_mem_singleton.2 (ih htokens fun _ hlevel => hlevel)
  | moreArguments argument comma hcomma rest ihArgument ihRest =>
    obtain ⟨hargument, hrest⟩ := List.forall_mem_append.1 htokens
    exact List.forall_mem_cons.2 ⟨ihArgument hargument fun _ hlevel => hlevel,
      ihRest (List.forall_mem_cons.1 hrest).2 hlevels⟩

theorem Derivation.holds_of_textClosed (hP : TextClosed P) (d : Derivation .expression) :
    P d.tree :=
  d.holds (tokenClosed_of_textClosed hP) (fun _ _ => trivial) fun _ hlevel => hlevel

end Expression

/-! ## Formulas and definitions that were read -/

namespace Formula

/-- A formula that is read has tokens that derive it. -/
theorem derives_parseBody {body : List Char} {f : Formula} (h : Formula.parseBody body = .ok f) :
    ∃ ts, Grammar.formula.tokens body = .ok ts ∧ Expression.Derives .expression ts f [] := by
  unfold Formula.parseBody at h
  split at h
  next => cases h
  next ts hbody =>
    split at h
    next => cases h
    next htokens =>
      cases h
      exact ⟨ts, hbody, (Formula.ofTokens_eq_ok_iff _ ts _).1 htokens⟩

theorem derives_parse {input : String} {f : Formula} (h : Formula.parse input = .ok f) :
    ∃ body ts, Grammar.formula.tokens body = .ok ts ∧ Expression.Derives .expression ts f [] := by
  unfold Formula.parse at h
  split at h
  next body _ => exact ⟨body, derives_parseBody h⟩
  next => cases h

theorem parse_of_textClosed {P : Formula → Prop} (hP : TextClosed P) {input : String}
    {f : Formula} (h : Formula.parse input = .ok f) : P f := by
  obtain ⟨_, _, _, d, _, rfl, _⟩ := derives_parse h
  exact d.holds_of_textClosed hP

end Formula

namespace Definitions

theorem derivesSection_parse {input : String} {d : Definitions}
    (h : Definitions.parse input = .ok d) : ∃ ts, DerivesSection ts d := by
  unfold Definitions.parse at h
  dsimp only at h
  split at h
  next => cases h
  next ts _ =>
    split at h
    next => cases h
    next htokens =>
      cases h
      exact ⟨ts, derivesSection_ofTokens htokens⟩

theorem parse_of_textClosed {P : Formula → Prop} (hP : Formula.TextClosed P) {input : String}
    {d : Definitions} (h : Definitions.parse input = .ok d) :
    (∀ entry ∈ d.values, P entry.2) ∧ ∀ f ∈ d.functions, P f.body := by
  obtain ⟨_, ds, _, _, _, rfl⟩ := derivesSection_parse h
  constructor
  · intro entry hentry
    obtain ⟨definition, _, hvalue⟩ := List.mem_filterMap.1 hentry
    cases definition with
    | assignment t assign hkind hassign value =>
      cases hvalue
      exact value.holds_of_textClosed hP
    | function => cases hvalue
  · intro f hf
    obtain ⟨definition, _, hfunction⟩ := List.mem_filterMap.1 hf
    cases definition with
    | assignment => cases hfunction
    | function define t opening closing hdefine hkind hopening hclosing formals body =>
      cases hfunction
      exact body.holds_of_textClosed hP

end Definitions

/-! ## Trees without bound cells -/

/-- Trees without bound cells, as texts have them. -/
abbrev Formula.Written (f : Formula) : Prop :=
  f.Over Literal.isUnscoped

theorem Formula.textClosed_written : TextClosed Written where
  literal := fun _ hvalue => .literal hvalue
  reference := fun _ => .name _
  namedCall := fun _ _ harguments => .call harguments
  operator := fun _ _ _ hoperands => .call hoperands

theorem Formula.written_parse {input : String} {f : Formula} (h : Formula.parse input = .ok f) :
    f.Written :=
  parse_of_textClosed textClosed_written h

namespace Definitions

/-- Definitions whose values and bodies are trees of texts. -/
structure Written (d : Definitions) : Prop where
  values : ∀ entry ∈ d.values, entry.2.Written
  functions : ∀ f ∈ d.functions, f.body.Written

theorem written_parse {input : String} {d : Definitions} (h : Definitions.parse input = .ok d) :
    d.Written := by
  obtain ⟨hvalues, hfunctions⟩ := parse_of_textClosed Formula.textClosed_written h
  exact ⟨hvalues, hfunctions⟩

end Definitions
end Spreadsheet
