import Mathlib.Data.List.Chain
import Spreadsheet.Proofs.FormulaTrees
import Spreadsheet.Proofs.NameTokens

/-!
Operands side by side. Between two operands of a formula there is always something else, so that a
text is no formula if its tokens have two of them next to each other. Main statement: a sheet that
stands without quotes although its name has a dot in it has no tokens, or such ones.
-/
namespace Spreadsheet

open Text

/-- The kinds of token that are an operand or the name of one. -/
def TokenKind.isOperand (kind : TokenKind) : Bool :=
  kind.isLeaf || kind == .identifier

/-- Not both of the tokens are operands. -/
def Token.Apart (a b : Token) : Prop :=
  a.kind.isOperand = false ∨ b.kind.isOperand = false

namespace Expression

variable {t : Token} {ts more : List Token}

theorem isChain_cons_apart (ht : t.kind.isOperand = false) (h : ts.IsChain Token.Apart) :
    (t :: ts).IsChain Token.Apart :=
  List.isChain_cons.2 ⟨fun _ _ => .inl ht, h⟩

theorem isChain_append_apart (h : ts.IsChain Token.Apart) (hmore : more.IsChain Token.Apart)
    (hhead : ∀ t ∈ more.head?, t.kind.isOperand = false) : (ts ++ more).IsChain Token.Apart :=
  List.isChain_append.2 ⟨h, hmore, fun _ _ t ht => .inr (hhead t ht)⟩

theorem isChain_append_closing (h : ts.IsChain Token.Apart) (ht : t.kind = .closing) :
    (ts ++ [t]).IsChain Token.Apart := by
  apply isChain_append_apart h (List.isChain_singleton t)
  intro head hhead
  cases hhead
  rw [ht]
  rfl

/-- The operands of a formula are apart. -/
theorem Derivation.isChain_tokens {s : Symbol} (d : Derivation s) :
    d.tokens.IsChain Token.Apart := by
  -- what follows an operand in a chain starts with an operator
  have hchain {operators : List String} {tighter : List (List String)}
      (rest : Derivation (.chain operators tighter)) :
      ∀ t ∈ rest.tokens.head?, t.kind.isOperand = false := by
    intro t ht
    rw [(rest.starts t ht).1]
    rfl
  induction d with
  | unary operand ih => exact ih
  | operands first rest ihFirst ihRest =>
    exact isChain_append_apart ihFirst ihRest (hchain rest)
  | noMore => exact .nil
  | more t hkind htext operand rest ihOperand ihRest =>
    apply isChain_cons_apart (by rw [hkind]; rfl)
    exact isChain_append_apart ihOperand ihRest (hchain rest)
  | sign t hkind htext operand ih => exact isChain_cons_apart (by rw [hkind]; rfl) ih
  | primary operand ih => exact ih
  | leaf t hkind => exact List.isChain_singleton t
  | name t hkind => exact List.isChain_singleton t
  | call t opening closing hkind hopening hclosing given ih =>
    have hopening : opening.kind.isOperand = false := by rw [hopening]; rfl
    exact List.isChain_cons_cons.2
      ⟨.inr hopening, isChain_cons_apart hopening (isChain_append_closing ih hclosing)⟩
  | parentheses opening closing hopening hclosing inner ih =>
    exact isChain_cons_apart (by rw [hopening]; rfl) (isChain_append_closing ih hclosing)
  | noArguments => exact .nil
  | arguments list ih => exact ih
  | lastArgument argument ih => exact ih
  | moreArguments argument comma hcomma rest ihArgument ihRest =>
    have hcomma : comma.kind.isOperand = false := by rw [hcomma]; rfl
    apply isChain_append_apart ihArgument (isChain_cons_apart hcomma ihRest)
    intro head hhead
    cases hhead
    exact hcomma

end Expression

/-! ## Texts that are no formulas -/

/-- In front of a break the text has no tokens, or two operands side by side. -/
def Clashes (text : List Char) : Prop :=
  ∀ (offset : Nat) (rest : List Char), AtBreak rest → ∀ ts,
    Grammar.formula.tokensFrom offset 0 (text ++ rest) = .ok ts → ¬ts.IsChain Token.Apart

namespace Clashes

variable {a b text : List Char}

theorem parseBody_ne (h : Clashes text) (f : Formula) : Formula.parseBody text ≠ .ok f := by
  intro hparse
  obtain ⟨ts, htokens, d, hd, -, -⟩ := Formula.derives_parseBody hparse
  apply h 0 [] atBreak_nil ts
  · rw [List.append_nil]
    exact htokens
  · rw [← hd, List.append_nil]
    exact d.isChain_tokens

theorem append (h : Clashes a) (hbreak : ∀ rest, AtBreak rest → AtBreak (b ++ rest)) :
    Clashes (a ++ b) := by
  intro offset rest hrest ts hts
  rw [List.append_assoc] at hts
  exact h offset (b ++ rest) (hbreak rest hrest) ts hts

theorem behind {before : List Char → Prop} {tokens : Nat → List Token}
    (ha : Grammar.LexesBefore before a tokens) (hb : Clashes b)
    (hbefore : ∀ rest, AtBreak rest → before (b ++ rest)) : Clashes (a ++ b) := by
  intro offset rest hrest ts hts
  rw [List.append_assoc, ha offset (b ++ rest) (hbefore rest hrest)] at hts
  cases hmore : Grammar.formula.tokensFrom (offset + byteLength a) 0 (b ++ rest) with
  | error misfit =>
    rw [hmore] at hts
    cases hts
  | ok more =>
    rw [hmore] at hts
    cases hts
    intro hchain
    exact hb _ rest hrest more hmore hchain.right_of_append

theorem cons {c : Char} {tokens : Nat → List Token} (hc : Grammar.LexesAlways [c] tokens)
    (h : Clashes b) : Clashes (c :: b) :=
  behind hc h fun _ _ => trivial

end Clashes

/-! ## Sheets that need quotes -/

namespace TokenRule

open Scan

/-- Without a `!`. -/
def Markless (w : List Char) : Prop :=
  ∀ c ∈ w, c ≠ '!'

theorem takes_markless_andThen {first second : Scan} (hfirst : Takes Markless first)
    (hsecond : Takes Markless second) : Takes Markless (andThen first second) := by
  refine (Takes.andThen hfirst hsecond).mono ?_
  rintro w ⟨u, v, hu, hv, rfl⟩
  exact List.forall_mem_append.2 ⟨hu, hv⟩

theorem takes_markless_done : Takes Markless fun _ => some 0 := by
  refine takes_done.mono ?_
  rintro w rfl
  exact List.forall_mem_nil _

theorem takes_markless_number : Takes Markless number := by
  have hdigits : Takes Markless digits := by
    refine (takes_atLeastOne Char.isDigit).mono ?_
    rintro w ⟨-, hw⟩ c hc rfl
    exact absurd (hw '!' hc) (by decide)
  have hpoint : Takes Markless (char '.') := by
    refine (takes_char '.').mono ?_
    rintro w rfl c hc rfl
    exact absurd hc (by decide)
  have hfraction : Takes Markless (sequence [char '.', digits]) :=
    takes_markless_andThen hpoint (takes_markless_andThen hdigits takes_markless_done)
  have hoptional : Takes Markless (optional (sequence [char '.', digits])) := by
    refine hfraction.optional.mono ?_
    rintro w (hw | rfl)
    · exact hw
    · exact List.forall_mem_nil _
  have hwhole := takes_markless_andThen hoptional takes_markless_done
  exact (takes_markless_andThen hdigits hwhole).orElse (hfraction.orElse takes_never)

theorem takes_markless_boolean : Takes Markless boolean := by
  have hkeyword {w : List Char} (hw : w.any (isCaseOf · '!') = false) :
      Takes Markless (anyCase w) := by
    rw [List.any_eq_false] at hw
    intro s n h c hc
    have hne := anyCase_take (p := fun c => c != '!') (fun target ht c hcase => by
      rw [bne_iff_ne]
      rintro rfl
      exact hw target ht hcase) h c hc
    exact bne_iff_ne.1 hne
  have hend : Takes Markless wordEnd := by
    intro s n h
    unfold wordEnd at h
    split at h
    · cases h
      exact List.forall_mem_nil _
    · cases h
  exact takes_markless_andThen
    ((hkeyword (by decide)).orElse ((hkeyword (by decide)).orElse takes_never))
    (takes_markless_andThen hend takes_markless_done)

/-- A token that starts like a sheet without quotes is an operand, and unless it is an address it
has no `!` in it. -/
theorem takes_plain {rule : TokenRule} (hrule : rule ∈ Grammar.formula.rules) :
    Takes (fun w => Starts (fun c => Address.isPlainSheetChar c = false) w ∨
      (∃ kind, rule.kind = some kind ∧ kind.isOperand = true ∧
        (kind = .address ∨ Markless w))) rule.scan := by
  simp only [Grammar.rules, shared, List.cons_append, List.nil_append, List.mem_cons,
    List.not_mem_nil, or_false] at hrule
  rcases hrule with rfl | rfl | rfl | rfl | rfl | rfl | rfl | rfl | rfl | rfl
  · exact fun _ _ _ => .inr ⟨_, rfl, rfl, .inl rfl⟩
  · exact takes_markless_number.mono fun w hw => .inr ⟨_, rfl, rfl, .inr hw⟩
  · exact (takes_starts_quoted (by decide)).mono fun w hw => .inl hw
  · exact takes_markless_boolean.mono fun w hw => .inr ⟨_, rfl, rfl, .inr hw⟩
  · exact (takes_starts_andThen _ (takes_starts_word (by decide))).mono fun w hw => .inl hw
  · refine takes_identifier.mono fun w hw => .inr ⟨_, rfl, rfl, .inr ?_⟩
    rintro c hc rfl
    exact absurd (isNamePart_of_mem hw '!' hc) (by decide)
  · exact (takes_starts_char (by decide)).mono fun w hw => .inl hw
  · exact (takes_starts_char (by decide)).mono fun w hw => .inl hw
  · exact (takes_starts_char (by decide)).mono fun w hw => .inl hw
  · have hoperator : ("-+*/&^=<>".toList.all fun c => !Address.isPlainSheetChar c) = true := by
      decide
    refine (takes_starts_operator fun c hc => ?_).mono fun w hw => .inl hw
    have hc := List.all_eq_true.1 hoperator c (List.contains_iff_mem.1 hc)
    rwa [Bool.not_eq_true'] at hc

/-- What has no `!` in it ends in front of the first one. -/
theorem exists_of_markless {u w rest z : List Char} (h : u ++ rest = w ++ '!' :: z)
    (hu : Markless u) : ∃ v, w = u ++ v ∧ rest = v ++ '!' :: z := by
  rcases List.append_eq_append_iff.1 h with ⟨v, hw, hrest⟩ | ⟨v, huv, hrest⟩
  · exact ⟨v, hw, hrest⟩
  · cases v with
    | nil => exact ⟨[], by rw [huv, List.append_nil, List.append_nil], hrest.symm⟩
    | cons d v =>
      cases hrest
      exact absurd rfl (hu '!' (huv ▸ List.mem_append_right w List.mem_cons_self))

end TokenRule

theorem AddressText.exists_mark {t : AddressText} (hmarked : t.IsMarked)
    (hsheet : t.sheet.sheet = none) :
    ∃ c ∈ t.first.chars ++ t.lastChars, Address.isPlainSheetChar c = false := by
  have hmarked := hmarked.resolve_left (by rw [hsheet]; decide)
  rcases hmarked with hlast | ⟨-, -, hfixed⟩
  · obtain ⟨last, hlast⟩ := Option.isSome_iff_exists.1 hlast
    refine ⟨':', List.mem_append_right _ ?_, by decide⟩
    rw [lastChars, hlast]
    exact List.mem_cons_self
  · refine ⟨'$', List.mem_append_left _ ?_, by decide⟩
    rw [CornerText.chars]
    rcases hfixed with hfixed | hfixed
    · simp [hfixed, Corner.marker]
    · simp [hfixed, Corner.marker]

section Unspelled

open TokenRule

variable {w : List Char}

theorem markless_of_plain (hplain : ∀ c ∈ w, Address.isPlainSheetChar c = true) : Markless w := by
  rintro c hc rfl
  exact absurd (hplain '!' hc) (by decide)

/-- A name with a dot in it is not found as a sheet. -/
theorem TokenRule.address_of_dot (hplain : ∀ c ∈ w, Address.isPlainSheetChar c = true)
    (hdot : '.' ∈ w) (z : List Char) : address (w ++ '!' :: z) = none := by
  cases hn : address (w ++ '!' :: z) with
  | none => rfl
  | some n =>
    obtain ⟨t, hmarked, hspelled, htake⟩ := takes_address _ n hn
    have hall : t.chars ++ (w ++ '!' :: z).drop n = w ++ '!' :: z := by
      rw [← htake, List.take_append_drop]
    exfalso
    rw [AddressText.chars] at hall
    cases hsheet : t.sheet with
    | here =>
      -- a marker or a `:` would stand in the name
      rw [hsheet, SheetText.chars, List.nil_append] at hall
      have hmarkless : Markless (t.first.chars ++ t.lastChars) := by
        rintro c hc rfl
        exact t.mark_not_mem_corners hc
      obtain ⟨v, hw, -⟩ := exists_of_markless hall hmarkless
      obtain ⟨c, hc, hmark⟩ := AddressText.exists_mark hmarked (by rw [hsheet]; rfl)
      rw [hplain c (hw ▸ List.mem_append_left v hc)] at hmark
      cases hmark
    | plain name hne hname =>
      -- the two names are the same, up to the `!`
      rw [hsheet, SheetText.chars, List.append_assoc, List.append_assoc,
        List.singleton_append] at hall
      obtain ⟨v, hw, hrest⟩ := exists_of_markless hall (markless_of_plain hname)
      cases v with
      | nil =>
        rw [hsheet] at hspelled
        rw [hw, List.append_nil] at hdot
        exact absurd (hspelled '.' hdot) (by decide)
      | cons d v =>
        obtain ⟨hd, -⟩ := List.cons.inj hrest
        have hmem : '!' ∈ w := hw ▸ List.mem_append_right name (hd ▸ List.mem_cons_self)
        exact absurd (hplain '!' hmem) (by decide)
    | quoted name hne =>
      obtain ⟨c, w, rfl⟩ := List.exists_cons_of_ne_nil (List.ne_nil_of_mem hdot)
      rw [hsheet] at hall
      obtain ⟨hc, -⟩ := List.cons.inj hall
      exact absurd (hplain '\'' (hc ▸ List.mem_cons_self)) (by decide)

/-- The first token of what starts like a sheet without quotes, and the tokens behind it. -/
theorem Grammar.exists_operand_of_plain {offset : Nat} {c : Char} {s : List Char} {ts : List Token}
    (hc : Address.isPlainSheetChar c = true) (h : formula.tokensFrom offset 0 (c :: s) = .ok ts) :
    ∃ t n offset' ts', ts = t :: ts' ∧ t.kind.isOperand = true ∧
      (address (c :: s) = none → Markless ((c :: s).take n)) ∧
      formula.tokensFrom offset' 0 ((c :: s).drop n) = .ok ts' := by
  have hblank : isBlank c = false := Address.isBlank_of_isPlainSheetChar hc
  have hoperand {kind : Option TokenKind} {n : Nat}
      (hmatch : formula.firstMatch? (c :: s) = some (kind, n + 1)) :
      ∃ found, kind = some found ∧ found.isOperand = true ∧
        (found = .address ∨ Markless ((c :: s).take (n + 1))) := by
    obtain ⟨rule, hrule, rfl, hscan⟩ := rule_of_firstMatch? hmatch
    rcases takes_plain hrule _ _ hscan with ⟨d, rest, htake, hd⟩ | hfound
    · -- the match starts with `c`
      cases htake
      rw [hc] at hd
      cases hd
    · exact hfound
  rw [tokensFrom, if_neg (by rw [hblank]; decide)] at h
  split at h
  next n hmatch =>
    obtain ⟨found, hnone, -⟩ := hoperand hmatch
    cases hnone
  next kind n hmatch =>
    obtain ⟨found, hfound, hkind, hmark⟩ := hoperand hmatch
    cases hfound
    split at h
    next tokens htokens =>
      cases h
      obtain ⟨offset', hbehind⟩ := tokensFrom_drop htokens
      refine ⟨_, n + 1, offset', tokens, rfl, hkind, fun hnone => ?_, hbehind⟩
      apply hmark.resolve_left
      rintro rfl
      have hscan : address (c :: s) = some (n + 1) := scan_of_firstMatch? hmatch
      rw [hnone] at hscan
      cases hscan
    next => cases h
  next => cases h

/-- The first token ends inside the name, and what is left of the name starts another operand. -/
theorem clashes_of_dot (hplain : ∀ c ∈ w, Address.isPlainSheetChar c = true) (hdot : '.' ∈ w)
    (z : List Char) : Clashes (w ++ '!' :: z) := by
  intro offset rest _ ts hts hchain
  rw [List.append_assoc, List.cons_append] at hts
  have haddress := address_of_dot hplain hdot (z ++ rest)
  obtain ⟨c, name, hcons⟩ := List.exists_cons_of_ne_nil (List.ne_nil_of_mem hdot)
  have hsplit : w ++ '!' :: (z ++ rest) = c :: (name ++ '!' :: (z ++ rest)) := by
    rw [hcons, List.cons_append]
  rw [hsplit] at hts haddress
  obtain ⟨t, n, offset', ts, rfl, ht, hmarkless, hbehind⟩ :=
    Grammar.exists_operand_of_plain (hplain c (hcons ▸ List.mem_cons_self)) hts
  rw [← hsplit] at hmarkless haddress hbehind
  obtain ⟨v, hw, hdrop⟩ := exists_of_markless (List.take_append_drop n _) (hmarkless haddress)
  rw [hdrop] at hbehind
  cases v with
  | nil =>
    -- no token starts with the `!`
    have hnone (s : List Char) : Grammar.formula.firstMatch? ('!' :: s) = none := rfl
    rw [List.nil_append, Grammar.tokensFrom, if_neg (by decide), hnone] at hbehind
    cases hbehind
  | cons d v =>
    have hd : d ∈ w := hw ▸ List.mem_append_right _ List.mem_cons_self
    obtain ⟨t', _, _, ts, rfl, ht', -⟩ := Grammar.exists_operand_of_plain (hplain d hd) hbehind
    rcases (List.isChain_cons_cons.1 hchain).1 with hapart | hapart
    · rw [ht] at hapart
      cases hapart
    · rw [ht'] at hapart
      cases hapart

end Unspelled
end Spreadsheet
