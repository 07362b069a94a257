import Spreadsheet.Proofs.DerivedExpressions

/-!
The grammar of definition sections. Definitions stand next to each other without anything between
them; since none starts with an operator or an opening parenthesis, each ends where the next one
starts. The readers of formulas and of sections accept exactly what the grammar derives.
-/
namespace Spreadsheet.Definitions

open Expression

/-- Formals with commas between them. -/
inductive FormalList where
  | last (t : Token) (hkind : t.kind = .identifier)
  | more (t comma : Token) (hkind : t.kind = .identifier) (hcomma : comma.kind = .comma)
    (rest : FormalList)

namespace FormalList

def tokens : FormalList → List Token
  | .last t _ => [t]
  | .more t comma _ _ rest => t :: comma :: rest.tokens

/-- The formals, in lower case. -/
def names : FormalList → List String
  | .last t _ => [Text.lower t.text]
  | .more t _ _ _ rest => Text.lower t.text :: rest.names

end FormalList

/-- The rules for definitions. -/
inductive Definition where
  | assignment (t assign : Token) (hkind : t.kind = .identifier) (hassign : assign.kind = .assign)
    (value : Derivation .expression)
  | function (define t opening closing : Token) (hdefine : define.kind = .define)
    (hkind : t.kind = .identifier) (hopening : opening.kind = .opening)
    (hclosing : closing.kind = .closing) (formals : Option FormalList)
    (body : Derivation .expression)

namespace Definition

def tokens : Definition → List Token
  | .assignment t assign _ _ value => t :: assign :: value.tokens
  | .function define t opening closing _ _ _ _ formals body =>
    define :: t :: opening :: (formals.elim [] FormalList.tokens ++ closing :: body.tokens)

/-- The formals of a function, in lower case. -/
def formals : Definition → List String
  | .assignment .. => []
  | .function _ _ _ _ _ _ _ _ formals _ => formals.elim [] FormalList.names

/-- The variable that is defined, with its value. -/
def value? : Definition → Option (String × Formula)
  | .assignment t _ _ _ value => some (Text.lower t.text, value.tree)
  | .function .. => none

/-- The function that is defined. -/
def function? : Definition → Option Function
  | .assignment .. => none
  | .function _ t _ _ _ _ _ _ formals body =>
    some (.define t.text (formals.elim [] FormalList.names) body.tree)

end Definition

/-- The variables and the functions of a row of definitions, each in its order. -/
def ofDefinitions (ds : List Definition) : Definitions :=
  { values := ds.filterMap Definition.value?, functions := ds.filterMap Definition.function? }

/-- Puts a definition in front of others. -/
def add (definitions : Definitions) (d : Definition) : Definitions :=
  { values := d.value?.toList ++ definitions.values,
    functions := d.function?.toList ++ definitions.functions }

theorem ofDefinitions_cons (d : Definition) (ds : List Definition) :
    ofDefinitions (d :: ds) = (ofDefinitions ds).add d := by
  cases d with
  | assignment t assign hkind hassign value => rfl
  | function define t opening closing hdefine hkind hopening hclosing formals body => rfl

/-! ## Derivations are unique -/

theorem FormalList.unique (l l' : FormalList) {after after' : List Token}
    (hafter : ∀ t ∈ after.head?, t.kind ≠ .comma) (hafter' : ∀ t ∈ after'.head?, t.kind ≠ .comma)
    (htokens : l.tokens ++ after = l'.tokens ++ after') : l = l' ∧ after = after' := by
  induction l generalizing l' with
  | last t hkind =>
    cases l' with
    | last t' hkind' =>
      simp only [tokens, List.cons_append, List.nil_append, List.cons.injEq] at htokens
      obtain ⟨rfl, rfl⟩ := htokens
      exact ⟨rfl, rfl⟩
    | more t' comma hkind' hcomma rest =>
      simp only [tokens, List.cons_append, List.nil_append, List.cons.injEq] at htokens
      exact absurd hcomma (hafter comma (by rw [htokens.2]; rfl))
  | more t comma hkind hcomma rest ih =>
    cases l' with
    | last t' hkind' =>
      simp only [tokens, List.cons_append, List.nil_append, List.cons.injEq] at htokens
      exact absurd hcomma (hafter' comma (by rw [← htokens.2]; rfl))
    | more t' comma' hkind' hcomma' rest' =>
      simp only [tokens, List.cons_append, List.cons.injEq] at htokens
      obtain ⟨rfl, rfl, htokens⟩ := htokens
      obtain ⟨rfl, rfl⟩ := ih rest' htokens
      exact ⟨rfl, rfl⟩

theorem FormalList.exists_tokens (l : FormalList) :
    ∃ t rest, l.tokens = t :: rest ∧ t.kind = .identifier := by
  cases l with
  | last t hkind => exact ⟨t, [], rfl, hkind⟩
  | more t comma hkind hcomma rest => exact ⟨t, _, rfl, hkind⟩

/-- Formals, if there are any, end at the closing parenthesis. -/
theorem formals_unique (o o' : Option FormalList) {closing closing' : Token}
    {after after' : List Token} (hclosing : closing.kind = .closing)
    (hclosing' : closing'.kind = .closing)
    (htokens : o.elim [] FormalList.tokens ++ closing :: after =
      o'.elim [] FormalList.tokens ++ closing' :: after') :
    o = o' ∧ closing = closing' ∧ after = after' := by
  cases o with
  | none =>
    cases o' with
    | none =>
      simp only [Option.elim_none, List.nil_append, List.cons.injEq] at htokens
      exact ⟨rfl, htokens⟩
    | some l' =>
      obtain ⟨t, rest, hl', hkind⟩ := l'.exists_tokens
      simp only [Option.elim_none, Option.elim_some, hl', List.nil_append, List.cons_append,
        List.cons.injEq] at htokens
      simp [← htokens.1, hclosing] at hkind
  | some l =>
    cases o' with
    | none =>
      obtain ⟨t, rest, hl, hkind⟩ := l.exists_tokens
      simp only [Option.elim_none, Option.elim_some, hl, List.nil_append, List.cons_append,
        List.cons.injEq] at htokens
      simp [htokens.1, hclosing'] at hkind
    | some l' =>
      obtain ⟨rfl, hrest⟩ := l.unique l' (by simp [hclosing]) (by simp [hclosing']) htokens
      rw [List.cons.injEq] at hrest
      exact ⟨rfl, hrest⟩

theorem Definition.unique (d d' : Definition) {after after' : List Token}
    (hafter : Ends Operator.levels after) (hafter' : Ends Operator.levels after')
    (htokens : d.tokens ++ after = d'.tokens ++ after') : d = d' ∧ after = after' := by
  cases d with
  | assignment t assign hkind hassign value =>
    cases d' with
    | assignment t' assign' _ _ value' =>
      simp only [tokens, List.cons_append, List.cons.injEq] at htokens
      obtain ⟨rfl, rfl, htokens⟩ := htokens
      obtain ⟨rfl, rfl⟩ := value.unique value' levels_disjoint hafter hafter' htokens
      exact ⟨rfl, rfl⟩
    | function define' t' opening' closing' hdefine' hkind' hopening' hclosing' formals' body' =>
      simp only [tokens, List.cons_append, List.cons.injEq] at htokens
      simp [← htokens.1, hkind] at hdefine'
  | function define t opening closing hdefine hkind hopening hclosing formals body =>
    cases d' with
    | assignment t' assign' hkind' hassign' value' =>
      simp only [tokens, List.cons_append, List.cons.injEq] at htokens
      simp [← htokens.1, hdefine] at hkind'
    | function define' t' opening' closing' hdefine' hkind' hopening' hclosing' formals' body' =>
      simp only [tokens, List.cons_append, List.append_assoc, List.cons.injEq] at htokens
      obtain ⟨rfl, rfl, rfl, htokens⟩ := htokens
      obtain ⟨rfl, rfl, hbody⟩ := formals_unique formals formals' hclosing hclosing' htokens
      obtain ⟨rfl, rfl⟩ := body.unique body' levels_disjoint hafter hafter' hbody
      exact ⟨rfl, rfl⟩

theorem Definition.exists_tokens (d : Definition) :
    ∃ t rest, d.tokens = t :: rest ∧ (t.kind = .identifier ∨ t.kind = .define) := by
  cases d with
  | assignment t assign hkind hassign value => exact ⟨t, _, rfl, .inl hkind⟩
  | function define t opening closing hdefine hkind hopening hclosing formals body =>
    exact ⟨define, _, rfl, .inr hdefine⟩

/-- An expression ends where the next definition starts, or where the section ends. -/
theorem ends_definitions (ds : List Definition) :
    Ends Operator.levels (ds.flatMap Definition.tokens) := by
  cases ds with
  | nil => exact ends_nil _
  | cons d ds =>
    obtain ⟨t, rest, htokens, hkind⟩ := d.exists_tokens
    rw [List.flatMap_cons, htokens, List.cons_append]
    rcases hkind with hkind | hkind
    · exact ends_cons _ (by simp [hkind]) (by simp [hkind])
    · exact ends_cons _ (by simp [hkind]) (by simp [hkind])

theorem definitions_unique (ds ds' : List Definition)
    (htokens : ds.flatMap Definition.tokens = ds'.flatMap Definition.tokens) : ds = ds' := by
  induction ds generalizing ds' with
  | nil =>
    cases ds' with
    | nil => rfl
    | cons d' ds' =>
      obtain ⟨t, rest, hd', _⟩ := d'.exists_tokens
      simp [hd'] at htokens
  | cons d ds ih =>
    cases ds' with
    | nil =>
      obtain ⟨t, rest, hd, _⟩ := d.exists_tokens
      simp [hd] at htokens
    | cons d' ds' =>
      rw [List.flatMap_cons, List.flatMap_cons] at htokens
      obtain ⟨rfl, hrest⟩ := d.unique d' (ends_definitions ds) (ends_definitions ds') htokens
      rw [ih ds' hrest]

/-! ## Definitions are read -/

variable {finish t next : Token} {ts mid rest after : List Token} {seen names : List String}
  {function : String}

theorem readToken_cons {kind : TokenKind} (what : String) (hkind : t.kind = kind) :
    readToken finish kind what (t :: ts) = .ok (t, ⟨ts, length_lt_cons t ts⟩) := by
  rw [readToken, if_pos hkind]

theorem reads_lastFormal (hkind : t.kind = .identifier) (hseen : Text.lower t.text ∉ seen)
    (hnext : ∀ n ∈ ts.head?, n.kind ≠ .comma) :
    Reads (readFormals finish function seen (t :: ts)) [Text.lower t.text] ts := by
  refine ⟨length_lt_cons t ts, ?_⟩
  rw [readFormals, readToken_cons _ hkind]
  dsimp only
  rw [if_neg (by simpa using hseen)]
  cases ts with
  | nil => rfl
  | cons n ts =>
    dsimp only
    rw [if_neg (hnext n rfl)]

theorem reads_moreFormals (hkind : t.kind = .identifier) (hseen : Text.lower t.text ∉ seen)
    (hcomma : next.kind = .comma)
    (hmore : Reads (readFormals finish function (seen ++ [Text.lower t.text]) ts) names rest) :
    Reads (readFormals finish function seen (t :: next :: ts)) (Text.lower t.text :: names)
      rest := by
  obtain ⟨hrest, hmore⟩ := hmore
  refine ⟨by simp only [List.length_cons]; omega, ?_⟩
  rw [readFormals, readToken_cons _ hkind]
  dsimp only
  rw [if_neg (by simpa using hseen), if_pos hcomma, hmore]

theorem FormalList.reads (l : FormalList) (hnodup : l.names.Nodup)
    (hseen : ∀ name ∈ l.names, name ∉ seen) (hafter : ∀ n ∈ after.head?, n.kind ≠ .comma) :
    Reads (readFormals finish function seen (l.tokens ++ after)) l.names after := by
  induction l generalizing seen with
  | last t hkind => exact reads_lastFormal hkind (hseen _ (by simp [FormalList.names])) hafter
  | more t comma hkind hcomma rest ih =>
    obtain ⟨hnew, hnodup⟩ := List.nodup_cons.1 hnodup
    obtain ⟨hfirst, hrest⟩ := List.forall_mem_cons.1 hseen
    refine reads_moreFormals hkind hfirst hcomma (ih hnodup fun name hname hmem => ?_)
    rcases List.mem_append.1 hmem with hold | hlast
    · exact hrest name hname hold
    · exact hnew (List.mem_singleton.1 hlast ▸ hname)

theorem reads_formalsOrNone (o : Option FormalList) {closing : Token}
    (hclosing : closing.kind = .closing) (hnodup : (o.elim [] FormalList.names).Nodup) :
    Reads (readFormalsOrNone finish function (o.elim [] FormalList.tokens ++ closing :: after))
      (o.elim [] FormalList.names) (closing :: after) := by
  cases o with
  | none => exact ⟨Nat.le_refl _, by simp [readFormalsOrNone, current, hclosing]⟩
  | some l =>
    have hformals : Reads (readFormals finish function [] (l.tokens ++ closing :: after)) l.names
        (closing :: after) :=
      l.reads hnodup (fun _ _ => List.not_mem_nil) (by simp [hclosing])
    obtain ⟨hlength, hread⟩ := hformals
    obtain ⟨t, tail, htokens, hkind⟩ := l.exists_tokens
    have hcurrent : ¬(current finish (l.tokens ++ closing :: after)).kind = .closing := by
      simp [htokens, current, hkind]
    refine ⟨Nat.le_of_lt hlength, ?_⟩
    show readFormalsOrNone finish function (l.tokens ++ closing :: after) = _
    rw [readFormalsOrNone, if_neg hcurrent, hread]
    rfl

theorem reads_function {opening closing : Token} (hkind : t.kind = .identifier)
    (hopening : opening.kind = .opening) (hclosing : closing.kind = .closing)
    (o : Option FormalList) (hnodup : (o.elim [] FormalList.names).Nodup) {body : Formula}
    (hbody : Reads (Expression.read finish ts) body after) :
    Reads (readFunction finish (t :: opening :: (o.elim [] FormalList.tokens ++ closing :: ts)))
      (.define t.text (o.elim [] FormalList.names) body) after := by
  obtain ⟨hformals, hread⟩ := reads_formalsOrNone o hclosing hnodup
  obtain ⟨hafter, hbody⟩ := hbody
  have hlength : after.length <
      (t :: opening :: (o.elim [] FormalList.tokens ++ closing :: ts)).length := by
    simp only [List.length_cons, List.length_append]
    omega
  refine ⟨hlength, ?_⟩
  rw [readFunction, readToken_cons _ hkind]
  dsimp only
  rw [readToken_cons _ hopening]
  dsimp only
  rw [hread]
  dsimp only
  rw [readToken_cons _ hclosing]
  dsimp only
  rw [hbody]

theorem reads_assignment {value : Formula} (hkind : t.kind = .identifier)
    (hassign : next.kind = .assign) (hvalue : Reads (Expression.read finish ts) value after) :
    Reads (readVariable finish (t :: next :: ts)) (Text.lower t.text, value) after := by
  obtain ⟨hafter, hvalue⟩ := hvalue
  refine ⟨length_lt_cons_cons hafter t next, ?_⟩
  rw [readVariable, if_pos ⟨hkind, hassign⟩, hvalue]

/-- Reading goes on behind a definition. -/
theorem ofTokens_definition (d : Definition) {definitions : Definitions}
    (hafter : Ends Operator.levels after) (hconverts : ∀ t ∈ d.tokens, t.Converts)
    (hnodup : d.formals.Nodup) (hrest : ofTokens finish after = .ok definitions) :
    ofTokens finish (d.tokens ++ after) = .ok (definitions.add d) := by
  cases d with
  | assignment t assign hkind hassign value =>
    have hread := Derives.reads ⟨value, rfl, rfl, fun t ht =>
      hconverts t (by simp [Definition.tokens, ht])⟩ hafter finish
    obtain ⟨_, hvariable⟩ := reads_assignment hkind hassign hread
    show ofTokens finish (t :: assign :: (value.tokens ++ after)) = _
    rw [ofTokens, if_neg (by simp [hkind]), hvariable]
    dsimp only
    rw [hrest]
    rfl
  | function define t opening closing hdefine hkind hopening hclosing formals body =>
    have hread := Derives.reads ⟨body, rfl, rfl, fun t ht =>
      hconverts t (by simp [Definition.tokens, ht])⟩ hafter finish
    obtain ⟨_, hfunction⟩ := reads_function hkind hopening hclosing formals hnodup hread
    show ofTokens finish (define :: t :: opening ::
      (formals.elim [] FormalList.tokens ++ closing :: body.tokens ++ after)) = _
    rw [List.append_assoc, List.cons_append, ofTokens, if_pos hdefine, hfunction]
    dsimp only
    rw [hrest]
    rfl

theorem ofTokens_definitions (ds : List Definition)
    (hconverts : ∀ t ∈ ds.flatMap Definition.tokens, t.Converts)
    (hnodup : ∀ d ∈ ds, d.formals.Nodup) :
    ofTokens finish (ds.flatMap Definition.tokens) = .ok (ofDefinitions ds) := by
  induction ds with
  | nil => rw [List.flatMap_nil, ofTokens, ofDefinitions, List.filterMap_nil, List.filterMap_nil]
  | cons d ds ih =>
    rw [List.flatMap_cons] at hconverts ⊢
    obtain ⟨hfirst, hrest⟩ := List.forall_mem_append.1 hconverts
    obtain ⟨hformals, hmore⟩ := List.forall_mem_cons.1 hnodup
    rw [ofTokens_definition d (ends_definitions ds) hfirst hformals (ih hrest hmore),
      ofDefinitions_cons]

/-! ## What is read has definitions -/

theorem readToken_eq_ok {kind : TokenKind} {what : String} {hlength : rest.length < ts.length}
    (h : readToken finish kind what ts = .ok (t, ⟨rest, hlength⟩)) :
    t.kind = kind ∧ ts = t :: rest := by
  unfold readToken at h
  split at h
  next => cases h
  next =>
    split at h
    next hkind =>
      cases h
      exact ⟨hkind, rfl⟩
    next => cases h

/-- The tokens are formals with different names, none of them seen before, and `rest`. -/
def DerivesFormals (seen : List String) (ts : List Token) (names : List String)
    (rest : List Token) : Prop :=
  ∃ l : FormalList, ts = l.tokens ++ rest ∧ l.names = names ∧ names.Nodup ∧
    ∀ name ∈ names, name ∉ seen

theorem derivesFormals_last (hkind : t.kind = .identifier) (hseen : Text.lower t.text ∉ seen) :
    DerivesFormals seen (t :: rest) [Text.lower t.text] rest :=
  ⟨.last t hkind, rfl, rfl, by simp, List.forall_mem_singleton.2 hseen⟩

theorem DerivesFormals.more (hkind : t.kind = .identifier) (hseen : Text.lower t.text ∉ seen)
    (hcomma : next.kind = .comma)
    (h : DerivesFormals (seen ++ [Text.lower t.text]) ts names rest) :
    DerivesFormals seen (t :: next :: ts) (Text.lower t.text :: names) rest := by
  obtain ⟨l, rfl, rfl, hnodup, hnames⟩ := h
  refine ⟨.more t next hkind hcomma l, rfl, rfl, List.nodup_cons.2 ⟨fun hmem => ?_, hnodup⟩,
    List.forall_mem_cons.2 ⟨hseen, fun name hname hmem => ?_⟩⟩
  · exact hnames _ hmem (by simp)
  · exact hnames name hname (List.mem_append_left _ hmem)

theorem derivesFormals_readFormals {tail : { tail : List Token // tail.length < ts.length }}
    (h : readFormals finish function seen ts = .ok (names, tail)) :
    DerivesFormals seen ts names tail.val := by
  fun_induction readFormals finish function seen ts generalizing names with
  | case1 => cases h
  | case2 => cases h
  | case3 seen ts t formal hseen =>
    rename_i hread
    cases h
    obtain ⟨hkind, rfl⟩ := readToken_eq_ok hread
    exact derivesFormals_last hkind (by simpa using hseen)
  | case4 => cases h
  | case5 seen ts t formal hseen next rest _ hcomma formals =>
    rename_i hmore _ hread ih
    cases h
    obtain ⟨hkind, rfl⟩ := readToken_eq_ok hread
    exact (ih hmore).more hkind (by simpa using hseen) hcomma
  | case6 seen ts t formal hseen =>
    rename_i hread
    cases h
    obtain ⟨hkind, rfl⟩ := readToken_eq_ok hread
    exact derivesFormals_last hkind (by simpa using hseen)

theorem exists_of_readFormalsOrNone {tail : { tail : List Token // tail.length ≤ ts.length }}
    (h : readFormalsOrNone finish function ts = .ok (names, tail)) :
    ∃ o : Option FormalList, ts = o.elim [] FormalList.tokens ++ tail.val ∧
      o.elim [] FormalList.names = names ∧ names.Nodup := by
  unfold readFormalsOrNone at h
  split at h
  next =>
    cases h
    exact ⟨none, rfl, rfl, List.nodup_nil⟩
  next =>
    split at h
    next => cases h
    next hread =>
      cases h
      obtain ⟨l, htokens, hnames, hnodup, _⟩ := derivesFormals_readFormals hread
      exact ⟨some l, htokens, hnames, hnodup⟩

/-- The tokens are those of a definition that can be read, with `rest` behind them. -/
def DerivesDefinition (ts : List Token) (d : Definition) (rest : List Token) : Prop :=
  ts = d.tokens ++ rest ∧ (∀ t ∈ d.tokens, t.Converts) ∧ d.formals.Nodup

theorem converts_of_formals (o : Option FormalList) :
    ∀ t ∈ o.elim [] FormalList.tokens, t.Converts := by
  cases o with
  | none => exact List.forall_mem_nil _
  | some l =>
    show ∀ t ∈ l.tokens, t.Converts
    induction l with
    | last t hkind =>
      exact List.forall_mem_singleton.2 (converts_of_kind hkind rfl)
    | more t comma hkind hcomma rest ih =>
      exact List.forall_mem_cons.2 ⟨converts_of_kind hkind rfl,
        List.forall_mem_cons.2 ⟨converts_of_kind hcomma rfl, ih⟩⟩

theorem exists_of_readVariable {entry : String × Formula}
    {tail : { tail : List Token // tail.length < ts.length }}
    (h : readVariable finish ts = .ok (entry, tail)) :
    ∃ d, DerivesDefinition ts d tail.val ∧
      ∀ definitions : Definitions, definitions.add d = definitions.addVariable entry.1 entry.2 := by
  unfold readVariable at h
  split at h
  next t next tail' =>
    split at h
    next hkinds =>
      split at h
      next => cases h
      next hread =>
        cases h
        obtain ⟨value, htokens, htree, hconverts⟩ := derives_readLevels finish _ _ hread
        subst htree
        refine ⟨.assignment t next hkinds.1 hkinds.2 value, ⟨?_, ?_, List.nodup_nil⟩, fun _ => rfl⟩
        · rw [Definition.tokens, List.cons_append, List.cons_append, htokens]
        · exact List.forall_mem_cons.2 ⟨converts_of_kind hkinds.1 rfl,
            List.forall_mem_cons.2 ⟨converts_of_kind hkinds.2 rfl, hconverts⟩⟩
    next => cases h
  next => cases h

theorem exists_of_readFunction {define : Token} {f : Function}
    {tail : { tail : List Token // tail.length < ts.length }} (hdefine : define.kind = .define)
    (h : readFunction finish ts = .ok (f, tail)) :
    ∃ d, DerivesDefinition (define :: ts) d tail.val ∧
      ∀ definitions : Definitions, definitions.add d = definitions.addFunction f := by
  unfold readFunction at h
  split at h
  next => cases h
  next t _ _ hname =>
    split at h
    next => cases h
    next opening _ _ hopen =>
      split at h
      next => cases h
      next hformals =>
        split at h
        next => cases h
        next closing _ _ hclose =>
          split at h
          next => cases h
          next hbody =>
            cases h
            obtain ⟨hkind, rfl⟩ := readToken_eq_ok hname
            obtain ⟨hopening, rfl⟩ := readToken_eq_ok hopen
            obtain ⟨formals, hinner, rfl, hnodup⟩ := exists_of_readFormalsOrNone hformals
            obtain ⟨hclosing, rfl⟩ := readToken_eq_ok hclose
            obtain ⟨body, htokens, rfl, hconverts⟩ := derives_readLevels finish _ _ hbody
            refine ⟨.function define t opening closing hdefine hkind hopening hclosing formals body,
              ⟨?_, ?_, hnodup⟩, fun _ => rfl⟩
            · simp only [Definition.tokens, List.cons_append, List.append_assoc, htokens, hinner]
            · refine List.forall_mem_cons.2 ⟨converts_of_kind hdefine rfl, ?_⟩
              refine List.forall_mem_cons.2 ⟨converts_of_kind hkind rfl, ?_⟩
              refine List.forall_mem_cons.2 ⟨converts_of_kind hopening rfl, ?_⟩
              refine List.forall_mem_append.2 ⟨converts_of_formals formals, ?_⟩
              exact List.forall_mem_cons.2
                ⟨converts_of_kind hclosing rfl, hconverts⟩

/-- The tokens are those of definitions that can be read, which define `d`. -/
def DerivesSection (ts : List Token) (d : Definitions) : Prop :=
  ∃ ds : List Definition, ds.flatMap Definition.tokens = ts ∧ (∀ t ∈ ts, t.Converts) ∧
    (∀ d ∈ ds, d.formals.Nodup) ∧ ofDefinitions ds = d

theorem DerivesSection.cons {first : Definition} {d : Definitions}
    (hfirst : DerivesDefinition ts first rest) (h : DerivesSection rest d) :
    DerivesSection ts (d.add first) := by
  obtain ⟨rfl, hconverts, hnodup⟩ := hfirst
  obtain ⟨ds, rfl, hmore, hformals, rfl⟩ := h
  exact ⟨first :: ds, List.flatMap_cons, List.forall_mem_append.2 ⟨hconverts, hmore⟩,
    List.forall_mem_cons.2 ⟨hnodup, hformals⟩, ofDefinitions_cons first ds⟩

theorem derivesSection_ofTokens {d : Definitions} (h : ofTokens finish ts = .ok d) :
    DerivesSection ts d := by
  fun_induction ofTokens finish ts generalizing d with
  | case1 =>
    cases h
    exact ⟨[], rfl, List.forall_mem_nil _, List.forall_mem_nil _, rfl⟩
  | case2 => cases h
  | case3 => cases h
  | case4 define rest hdefine f tail _ hfunction definitions hrest ih =>
    cases h
    obtain ⟨first, hfirst, hadd⟩ := exists_of_readFunction hdefine hfunction
    rw [← hadd definitions]
    exact (ih hrest).cons hfirst
  | case5 => cases h
  | case6 => cases h
  | case7 t rest hdefine id value tail _ hvariable definitions hrest ih =>
    cases h
    obtain ⟨first, hfirst, hadd⟩ := exists_of_readVariable hvariable
    rw [← hadd definitions]
    exact (ih hrest).cons hfirst

theorem formula_ofTokens_iff (finish : Token) (ts : List Token) (f : Formula) :
    Formula.ofTokens finish ts = .ok f ↔
      ∃ d : Derivation .expression, d.tokens = ts ∧ (∀ t ∈ ts, t.Converts) ∧ d.tree = f := by
  rw [Formula.ofTokens_eq_ok_iff]
  constructor
  · rintro ⟨d, htokens, htree, hconverts⟩
    rw [List.append_nil] at htokens
    exact ⟨d, htokens, htokens ▸ hconverts, htree⟩
  · rintro ⟨d, rfl, hconverts, htree⟩
    exact ⟨d, List.append_nil _, htree, hconverts⟩

theorem ofTokens_iff (finish : Token) (ts : List Token) (definitions : Definitions) :
    ofTokens finish ts = .ok definitions ↔ DerivesSection ts definitions := by
  refine ⟨derivesSection_ofTokens, ?_⟩
  rintro ⟨ds, rfl, hconverts, hnodup, rfl⟩
  exact ofTokens_definitions ds hconverts hnodup

/-- The readers of formulas and of definition sections accept exactly what the grammar derives,
and give the tree of the derivation, which is the only one; on everything else they end with a
misfit. -/
theorem ofTokens_grammar (finish : Token) (ts : List Token) :
    (∀ f, Formula.ofTokens finish ts = .ok f ↔
      ∃ d : Derivation .expression, d.tokens = ts ∧ (∀ t ∈ ts, t.Converts) ∧ d.tree = f) ∧
    (∀ definitions, ofTokens finish ts = .ok definitions ↔
      ∃ ds : List Definition, ds.flatMap Definition.tokens = ts ∧ (∀ t ∈ ts, t.Converts) ∧
        (∀ d ∈ ds, d.formals.Nodup) ∧ ofDefinitions ds = definitions) ∧
    (∀ d d' : Derivation .expression, d.tokens = ts → d'.tokens = ts → d = d') ∧
    (∀ ds ds' : List Definition, ds.flatMap Definition.tokens = ts →
      ds'.flatMap Definition.tokens = ts → ds = ds') ∧
    ((¬∃ d : Derivation .expression, d.tokens = ts ∧ ∀ t ∈ ts, t.Converts) →
      ∃ misfit, Formula.ofTokens finish ts = .error misfit) ∧
    ((¬∃ ds : List Definition, ds.flatMap Definition.tokens = ts ∧ (∀ t ∈ ts, t.Converts) ∧
        ∀ d ∈ ds, d.formals.Nodup) → ∃ misfit, ofTokens finish ts = .error misfit) := by
  refine ⟨formula_ofTokens_iff finish ts, ofTokens_iff finish ts, ?_, ?_, fun hnone => ?_,
    fun hnone => ?_⟩
  · intro d d' htokens htokens'
    refine (d.unique d' levels_disjoint (ends_nil _) (ends_nil _) ?_).1
    rw [htokens, htokens']
  · intro ds ds' htokens htokens'
    exact definitions_unique ds ds' (htokens.trans htokens'.symm)
  · cases hread : Formula.ofTokens finish ts with
    | error misfit => exact ⟨misfit, rfl⟩
    | ok f =>
      obtain ⟨d, htokens, hconverts, _⟩ := (formula_ofTokens_iff finish ts f).1 hread
      exact absurd ⟨d, htokens, hconverts⟩ hnone
  · cases hread : ofTokens finish ts with
    | error misfit => exact ⟨misfit, rfl⟩
    | ok definitions =>
      obtain ⟨ds, htokens, hconverts, hnodup, _⟩ := (ofTokens_iff finish ts definitions).1 hread
      exact absurd ⟨ds, htokens, hconverts, hnodup⟩ hnone

end Spreadsheet.Definitions
