import Spreadsheet.Proofs.ReprintedFormulas

/-!
Formulas from texts in their written form. Main statement: the written form of a formula that was
read is read again unless the name of a sheet in it has a dot and needs no quotes otherwise, and it
is written the same way then unless a number in it is too large to be finite.
-/
namespace Spreadsheet

open Text

namespace Formula

variable {p : Position}

/-! ## Names -/

theorem normalizes_reference {name : List Char} (hname : TokenRule.isName name = true)
    (hboolean : TokenRule.boolean name = none) :
    Normalizes p (.reference (String.ofList name)) := by
  have hascii := TokenRule.ascii_of_isName hname
  have hlower : (lower (String.ofList name)).toList = name.map Char.toLower := by
    rw [toList_lower (by rwa [String.toList_ofList]), String.toList_ofList]
  apply normalizes_name
  · rw [hlower]
    exact TokenRule.isName_toLower hname
  · exact lower_lower _
  · rw [hlower, TokenRule.boolean_toLower hascii]
    exact hboolean

/-- A name without dots that a keyword is found in is the keyword, but for its case. -/
theorem toLower_of_boolean {name : List Char} {n : Nat}
    (hname : ∀ c ∈ name, TokenRule.isNameChar c = true) (h : TokenRule.boolean name = some n) :
    name.map Char.toLower ∈ TokenRule.keywords := by
  have hascii : ∀ c ∈ name, c.toNat < 128 := by
    intro c hc
    apply TokenRule.ascii_of_isNamePart
    rw [TokenRule.isNamePart, hname c hc, Bool.true_or]
  obtain ⟨w, hw, hcase, hend⟩ := TokenRule.boolean_eq_some_iff.1 h
  obtain ⟨hle, htake⟩ := TokenRule.toLower_of_anyCase hascii hcase
  -- a word does not end in front of a name character
  have hdrop : name.drop n = [] := by
    cases hdrop : name.drop n with
    | nil => rfl
    | cons c rest =>
      have hc : c ∈ name := List.mem_of_mem_drop (hdrop ▸ List.mem_cons_self)
      have hword : isWordChar c = true := by
        rw [isWordChar, if_pos (hascii c hc)]
        exact hname c hc
      rw [hdrop, atWordEnd, hword] at hend
      cases hend
  have hall : name.take n = name := by
    have happend := List.take_append_drop n name
    rwa [hdrop, List.append_nil] at happend
  rw [hall] at htake
  exact htake ▸ hw

/-- A name behind `$$`, which may be a keyword. -/
theorem normalizes_dollarName {name : List Char} (hname : TokenRule.isName name = true)
    (hchars : ∀ c ∈ name, TokenRule.isNameChar c = true) :
    Normalizes p (.reference (String.ofList name)) := by
  cases hboolean : TokenRule.boolean name with
  | none => exact normalizes_reference hname hboolean
  | some n =>
    have hascii : ∀ c ∈ (String.ofList name).toList, c.toNat < 128 := by
      rw [String.toList_ofList]
      exact TokenRule.ascii_of_isName hname
    have hkeyword : (lower (String.ofList name)).toList ∈ TokenRule.keywords := by
      rw [toList_lower hascii, String.toList_ofList]
      exact toLower_of_boolean hchars hboolean
    rw [TokenRule.keywords, List.mem_cons, List.mem_singleton, String.toList_inj,
      String.toList_inj] at hkeyword
    rw [reference]
    rcases hkeyword with htrue | hfalse
    · rw [htrue]
      exact normalizes_keyword p true
    · rw [hfalse]
      exact normalizes_keyword p false

/-! ## Tokens -/

section Tokens

variable {s : List Char} {ts : List Token} {t : Token}

theorem kind_ne_date (hts : Grammar.formula.tokens s = .ok ts) (ht : t ∈ ts) : t.kind ≠ .date := by
  obtain ⟨w, n, -, -, hmatch, -⟩ := Grammar.exists_of_mem_tokensFrom hts t ht
  obtain ⟨rule, hrule, hkind, -⟩ := Grammar.rule_of_firstMatch? hmatch
  have hall : ∀ rule ∈ Grammar.formula.rules, rule.kind ≠ some .date := by
    decide
  intro hdate
  exact hall rule hrule (by rw [hkind, hdate])

theorem normalizes_leafToken (hts : Grammar.formula.tokens s = .ok ts) (ht : t ∈ ts) {f : Formula}
    (hleaf : Expression.leaf? t = some (.ok f)) : Normalizes p f := by
  unfold Expression.leaf? at hleaf
  dsimp only at hleaf
  split at hleaf
  next => cases hleaf; exact normalizes_number p _
  next => cases hleaf; exact normalizes_text p _
  next => cases hleaf; exact normalizes_boolean p _
  next hkind => exact absurd hkind (kind_ne_date hts ht)
  next hkind =>
    obtain ⟨w, hmarked, -, hchars⟩ := Grammar.text_of_mem_tokensFrom hts ht
      (by rw [hkind]; exact TokenRule.takes_address)
    split at hleaf
    next a hread =>
      cases hleaf
      rw [hchars] at hread
      obtain ⟨hsheet, hfirst, hlast, -⟩ := w.readChars_eq_some_iff.1 hread
      exact normalizes_cell (Address.wellFormed_of_readChars hread)
        ((w.isMarked_iff hsheet hfirst hlast).1 hmarked)
    next => cases hleaf
  next hkind =>
    obtain ⟨name, hname, hnameChars, htext⟩ := Grammar.text_of_mem_tokensFrom hts ht
      (by rw [hkind]; exact TokenRule.takes_dollarName)
    cases hleaf
    rw [htext]
    exact normalizes_dollarName hname hnameChars
  next => cases hleaf

/-- The formulas of a text are built from its tokens. -/
theorem tokenClosed_normalizes (hts : Grammar.formula.tokens s = .ok ts) :
    Expression.TokenClosed (fun t => t ∈ ts ∧ t.Converts) (Normalizes p) where
  leaf := by
    intro t hkind ht
    obtain ⟨f, hleaf⟩ := Expression.exists_leaf_iff.2 ⟨hkind, ht.2⟩
    rw [Expression.Derivation.tree_leaf hkind hleaf]
    exact normalizes_leafToken hts ht.1 hleaf
  reference := by
    intro t hkind ht
    obtain ⟨hname, hboolean⟩ := Grammar.name_of_identifier hts ht.1 hkind
    have hnormal := normalizes_reference (p := p) hname hboolean
    rwa [String.ofList_toList] at hnormal
  namedCall := by
    intro t arguments hkind ht harguments
    obtain ⟨hname, hboolean⟩ := Grammar.name_of_identifier hts ht.1 hkind
    have hascii := TokenRule.ascii_of_isName hname
    apply normalizes_namedCall
    · rw [toList_lower hascii]
      exact TokenRule.ascii_of_isName (TokenRule.isName_toLower hname)
    · rw [upper_lower hascii]
      apply Grammar.readsWhole_name (TokenRule.isName_toUpper hname)
      rw [TokenRule.boolean_toUpper hascii]
      exact hboolean
    · exact harguments
  binary := fun _ _ _ => normalizes_binary
  negate := fun _ => normalizes_negate

end Tokens

theorem normalizes_parse {input : String} {f : Formula} (h : Formula.parse input = .ok f) :
    Normalizes p f := by
  obtain ⟨body, ts, hts, d, hd, rfl, hconverts⟩ := derives_parse h
  rw [List.append_nil] at hd
  refine d.holds (tokenClosed_normalizes hts) (fun t ht => ⟨hd ▸ ht, hconverts t ht⟩)
    fun _ hlevel => hlevel

/-- A formula that was read is read again from its text exactly if every sheet in it is found, and
its text is the same again exactly if every number in it is finite. -/
theorem parse_render_again {input : String} {f : Formula} (h : Formula.parse input = .ok f)
    (p : Position) :
    ((∃ g, Formula.parse ("=" ++ f.render p) = .ok g) ↔ f.Over Literal.hasSpelledSheet) ∧
      ∀ g, Formula.parse ("=" ++ f.render p) = .ok g →
        (g.render p = f.render p ↔ f.Over Literal.isFinite) := by
  have hnormal : Normalizes p f := normalizes_parse h
  have hread {g : Formula} (hg : Reprints p f g) : Formula.parseBody (f.renderChars p) = .ok g :=
    parseBody_of_spells (hg.spells.weaken_to (Nat.zero_le _) f.level_le)
  rw [render, parse_equals]
  by_cases hsheet : f.Over Literal.hasSpelledSheet
  · obtain ⟨g, hg⟩ := hnormal.reprints hsheet
    refine ⟨iff_of_true ⟨g, hread hg⟩ hsheet, fun g' hg' => ?_⟩
    rw [hread hg] at hg'
    cases hg'
    rw [render, String.ofList_inj]
    exact hg.text_iff
  · have hne := (hnormal.clashes hsheet).parseBody_ne
    refine ⟨iff_of_false ?_ hsheet, fun g hg => absurd hg (hne g)⟩
    rintro ⟨g, hg⟩
    exact hne g hg

/-- A range on a sheet with a quote in its name. -/
def quotedRange : Address :=
  { sheet := some "it's"
    first := { column := some 1, row := some 1, columnFixed := true, rowFixed := true }
    last := { column := some 2 } }

/-- A call with a keyword for a name in it, raised to the power of a negated range. -/
def powerOfRange : Formula :=
  .binary "^" (.namedCall "Sum" [.reference "True", .number (.ofDecimalText "2.50".toList)])
    (.unary "-" (.cell quotedRange))

theorem over_powerOfRange {leaf : Literal → Bool}
    (hnumber : leaf (.number (.ofDecimalText "2.50".toList)) = true)
    (hcell : leaf (.cell quotedRange none) = true) : powerOfRange.Over leaf := by
  refine over_binary (.call ?_) (.call (List.forall_mem_singleton.2 (.literal hcell)))
  exact List.forall_mem_cons.2 ⟨.name _, List.forall_mem_singleton.2 (.literal hnumber)⟩

theorem parse_powerOfRange :
    Formula.parse "=Sum($$True, 2.50) ^ -'it''s'!$b$2:c" = .ok powerOfRange := by
  have hdecimal : Number.Decimal ['2'] ['5', '0'] "2.50".toList :=
    .point (by decide) (by decide) (List.all_eq_true.1 (by decide))
  have hdollar : Grammar.formula.ReadsWhole .dollarName "$$True".toList :=
    Grammar.readsWhole_of_firstMatch? (by decide +kernel) (by decide +kernel)
  have hname : Spells Operator.levels.length "$$True".toList (.reference "True") := by
    apply spells_leaf hdollar (by decide) (by decide)
    intro offset
    have hdrop : ("$$True".toList).drop 2 = "True".toList := by decide
    simp only [Expression.leaf?, String.ofList_toList, hdrop]
  have haddress : Grammar.formula.ReadsWhole .address "'it''s'!$b$2:c".toList :=
    Grammar.readsWhole_of_firstMatch? (by decide +kernel) (by decide +kernel)
  have hcell : Spells Operator.levels.length "'it''s'!$b$2:c".toList (.cell quotedRange) :=
    spells_cell haddress (by decide +kernel)
  have hparts : ∀ part ∈ [("$$True".toList, Formula.reference "True"),
      ("2.50".toList, .number (.ofDecimalText "2.50".toList))], Spells 0 part.1 part.2 := by
    refine List.forall_mem_cons.2 ⟨?_, List.forall_mem_singleton.2 ?_⟩
    · exact hname.weaken_to (Nat.zero_le _) (Nat.le_refl _)
    · exact (spells_decimal hdecimal).weaken_to (Nat.zero_le _) (Nat.le_refl _)
  have hcall := spells_call (Grammar.readsWhole_name (by decide) (by decide) :
    Grammar.formula.ReadsWhole .identifier "Sum".toList)
    (spellsArguments Prod.fst Prod.snd _ hparts)
  have hlevel : Operator.levels[4]? = some ["^"] := rfl
  have hpower := spells_binary hlevel List.mem_cons_self
    (hcall.weaken_to (by decide) (Nat.le_refl _)) (spells_minus hcell)
  have htext : "=Sum($$True, 2.50) ^ -'it''s'!$b$2:c" = "=" ++
      String.ofList "Sum($$True, 2.50) ^ -'it''s'!$b$2:c".toList := by
    decide
  rw [htext, parse_equals]
  exact parseBody_of_spells (hpower.weaken_to (Nat.zero_le _) (by decide))

theorem parse_render_again_powerOfRange :
    Formula.parse "=Sum($$True, 2.50) ^ -'it''s'!$b$2:c" = .ok powerOfRange ∧
      powerOfRange.render {} = "SUM(TRUE, 2.5) ^ -'it''s'!$B$2:C" ∧
      ∃ g, Formula.parse ("=" ++ powerOfRange.render {}) = .ok g ∧
        g.render {} = powerOfRange.render {} := by
  obtain ⟨haccepted, htext⟩ := parse_render_again parse_powerOfRange {}
  obtain ⟨g, hg⟩ := haccepted.2 (over_powerOfRange rfl (by decide))
  exact ⟨parse_powerOfRange, by decide +kernel, g, hg,
    (htext g hg).2 (over_powerOfRange (by decide +kernel) rfl)⟩

/-- The first cell of a sheet with a dot in its name. -/
def dottedCell : Address :=
  { Address.cell 0 0 with sheet := some "a.b" }

theorem parse_tenTo309 :
    Formula.parse ("=" ++ String.ofList ('1' :: List.replicate 309 '0')) =
      .ok (.number ⟨false, ⟨Number.infinity, by decide⟩⟩) := by
  have hdigits : ∀ c ∈ '1' :: List.replicate 309 '0', c.isDigit = true := by
    intro c hc
    rcases List.mem_cons.1 hc with rfl | hzero
    · decide
    · rw [List.eq_of_mem_replicate hzero]
      decide
  have hspells := spells_decimal (.whole (List.cons_ne_nil _ _) hdigits)
  have hvalue : Number.ofDecimalText ('1' :: List.replicate 309 '0') =
      ⟨false, ⟨Number.infinity, by decide⟩⟩ := by
    decide +kernel
  rw [parse_equals, ← hvalue]
  exact parseBody_of_spells (hspells.weaken_to (Nat.zero_le _) (Nat.le_refl _))

/-- The text of a cell on a sheet with a dot in its name is no formula, and the text of a number
that is too large is another one when it is written again. -/
theorem parse_render_unstable :
    (∃ f, Formula.parse "='a.b'!A1" = .ok f ∧ f.render {} = "a.b!A1" ∧
      ∀ g, Formula.parse ("=" ++ f.render {}) ≠ .ok g) ∧
    ∃ f g, Formula.parse ("=" ++ String.ofList ('1' :: List.replicate 309 '0')) = .ok f ∧
      f.render {} = "inf" ∧ Formula.parse ("=" ++ f.render {}) = .ok g ∧ g.render {} = "INF" := by
  constructor
  · have htoken : Grammar.formula.ReadsWhole .address "'a.b'!A1".toList :=
      Grammar.readsWhole_of_firstMatch? (by decide +kernel) (by decide +kernel)
    have hcell : Spells Operator.levels.length "'a.b'!A1".toList (.cell dottedCell) :=
      spells_cell htoken (by decide +kernel)
    have hparse : Formula.parse ("=" ++ String.ofList "'a.b'!A1".toList) =
        .ok (.cell dottedCell) := by
      rw [parse_equals]
      exact parseBody_of_spells (hcell.weaken_to (Nat.zero_le _) (Nat.le_refl _))
    have htext : renderChars {} (.cell dottedCell) = "a.b".toList ++ '!' :: "A1".toList := by
      decide +kernel
    refine ⟨_, hparse, by rw [render, htext]; rfl, fun g => ?_⟩
    rw [render, parse_equals, htext]
    exact (clashes_of_dot (List.all_eq_true.1 (by decide)) (by decide) _).parseBody_ne g
  · have htext : renderChars {} (.number ⟨false, ⟨Number.infinity, by decide⟩⟩) =
        "inf".toList := by
      decide +kernel
    have hname : Spells Operator.levels.length "inf".toList (.reference "inf") :=
      spells_name (Grammar.readsWhole_name (by decide) (by decide))
    refine ⟨_, .reference "inf", parse_tenTo309, by rw [render, htext]; rfl, ?_, by decide +kernel⟩
    rw [render, parse_equals, htext]
    exact parseBody_of_spells (hname.weaken_to (Nat.zero_le _) (Nat.le_refl _))

end Formula
end Spreadsheet
