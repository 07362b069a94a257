import Spreadsheet.Proofs.ReaderLookahead
import Spreadsheet.Proofs.SpacedTokens
import Spreadsheet.Proofs.TokenMeanings

/-!
Where the errors of formulas point. Main statement: a formula whose tokens are not read fails at
the first token that no formula has there, so that the tokens in front of it are still the start of
one; a text that is not cut into tokens fails at the first place where no rule matches.
-/
namespace Spreadsheet

open Text Expression

/-- The kinds and texts of the tokens of a formula that is read, with the token that ends them. -/
def Formula.Accepts (words : List (TokenKind × String)) : Prop :=
  ∃ (input : String) (f : Formula) (ts : List Token), Formula.parse input = .ok f ∧
    Grammar.formula.tokens (Formula.body input) = .ok ts ∧
      words = (ts ++ [Grammar.finish (Formula.body input)]).map Token.word

/-- Where tokens stand makes no difference. -/
theorem SameMeanings.of_words {ts ts' : List Token} (h : ts'.map Token.word = ts.map Token.word) :
    SameMeanings ts ts' := by
  have hmeaning : Token.meaning = (fun w => (Token.mk w.1 w.2 0).meaning) ∘ Token.word :=
    funext fun t => Token.meaning_congr (t := ⟨t.kind, t.text, 0⟩) rfl rfl
  unfold SameMeanings
  rw [hmeaning, ← List.map_map, ← List.map_map, h]

theorem current_append (finish : Token) (rest : List Token) :
    ∃ after, rest ++ [finish] = current finish rest :: after := by
  cases rest with
  | nil => exact ⟨[], rfl⟩
  | cons t rest => exact ⟨rest ++ [finish], rfl⟩

theorem converts_fillers : ∀ t ∈ fillers, t.Converts := by
  simp [fillers, Token.Converts]

theorem stands_fillers (g : Grammar) :
    ∀ t ∈ fillers, g.Stands t.word.1 t.word.2.toList := by
  have hone : g.Stands .number ['1'] :=
    Grammar.stands_number (by decide : TokenRule.number (['1'] ++ []) = some 1)
  have hclosing : g.Stands .closing [')'] := Grammar.stands_symbol (by decide)
  exact List.forall_mem_cons.2 ⟨hone, List.forall_mem_singleton.2 hclosing⟩

namespace Formula

theorem map_word_finish (ts : List Token) (body : List Char) :
    (ts ++ [Grammar.finish body]).map Token.word = ts.map Token.word ++ [(.finish, "")] :=
  List.map_append

theorem accepts_body {body : List Char} {ts : List Token} {f : Formula}
    (htokens : Grammar.formula.tokens body = .ok ts)
    (hread : ofTokens (Grammar.finish body) ts = .ok f) :
    Accepts (ts.map Token.word ++ [(.finish, "")]) := by
  have htrim : trimStart (String.ofList ('=' :: body)).toList = '=' :: body := by
    rw [String.toList_ofList, trimStart, List.dropWhile_cons_of_neg (by decide)]
  have hbody : Formula.body (String.ofList ('=' :: body)) = body := by
    rw [Formula.body, htrim, List.tail_cons]
  refine ⟨String.ofList ('=' :: body), f, ts, ?_, hbody.symm ▸ htokens,
    (map_word_finish _ _).symm⟩
  rw [parse_eq_ok_iff, hbody]
  exact ⟨htrim, parseBody_eq_ok_iff.2 ⟨ts, htokens, hread⟩⟩

/-- Tokens that stand by themselves and derive an expression are those of some text. -/
theorem accepts_tokens (d : Derivation .expression) (hconverts : ∀ t ∈ d.tokens, t.Converts)
    (hstands : ∀ word ∈ d.tokens.map Token.word, Grammar.formula.Stands word.1 word.2.toList) :
    Accepts (d.tokens.map Token.word ++ [(.finish, "")]) := by
  obtain ⟨body, hbody⟩ : ∃ body : List Char,
      body = [' '].intercalate ((d.tokens.map Token.word).map (·.2.toList)) ++ [] := ⟨_, rfl⟩
  obtain ⟨all, htokenize, hwords⟩ :=
    Grammar.tokenize_intercalate hstands [] (by simp) ((String.toList_ofList).trans hbody)
  obtain ⟨ts, hcuts, rfl⟩ := Grammar.exists_of_tokenize htokenize
  rw [String.toList_ofList] at hcuts
  rw [map_word_finish] at hwords
  have hsame : SameMeanings d.tokens ts := .of_words (List.append_cancel_right hwords)
  have hread := (Definitions.formula_ofTokens_iff (Grammar.finish body) _ _).2
    ⟨d, rfl, hconverts, rfl⟩
  rw [← hwords]
  exact accepts_body (Grammar.tokens_eq_ok_iff.2 hcuts) (ofTokens_sameMeanings hsame hread _)

theorem exists_accepts_of_completes {front : List Token} (h : Symbol.expression.Completes front)
    (hconverts : ∀ t ∈ front, t.Converts)
    (hstands : ∀ word ∈ front.map Token.word, Grammar.formula.Stands word.1 word.2.toList) :
    ∃ words, Accepts words ∧ front.map Token.word <+: words := by
  obtain ⟨d, added, htokens, hadded⟩ := h
  refine ⟨_, accepts_tokens d ?_ ?_, ?_⟩
  · rw [htokens]
    exact List.forall_mem_append.2 ⟨hconverts, fun t ht => converts_fillers t (hadded t ht)⟩
  · rw [htokens, List.map_append]
    refine List.forall_mem_append.2 ⟨hstands, List.forall_mem_map.2 fun t ht => ?_⟩
    exact stands_fillers _ t (hadded t ht)
  · rw [htokens, List.map_append, List.append_assoc]
    exact List.prefix_append _ _

/-- What is read of a text is read of other tokens with the same kinds and texts. -/
theorem Accepts.exists_ofTokens {words : List (TokenKind × String)} (h : Accepts words)
    (finish : Token) : ∃ given, words = given ++ [(.finish, "")] ∧
      (∀ word ∈ given, word.1 ≠ .finish) ∧
      ∀ ts : List Token, ts.map Token.word = given → ∃ f, ofTokens finish ts = .ok f := by
  obtain ⟨input, f, found, hparse, htokens, rfl⟩ := h
  obtain ⟨-, hbody⟩ := parse_eq_ok_iff.1 hparse
  obtain ⟨found', htokens', hread⟩ := parseBody_eq_ok_iff.1 hbody
  cases htokens.symm.trans htokens'
  refine ⟨found.map Token.word, map_word_finish _ _, List.forall_mem_map.2 ?_, fun ts hts => ?_⟩
  · exact (Grammar.tokens_eq_ok_iff.1 htokens).lossless.kinds
  · exact ⟨f, ofTokens_sameMeanings (.of_words hts) hread finish⟩

theorem not_accepts {finish : Token} {front rest : List Token} (hfinish : finish.word = (.finish, ""))
    (hkinds : ∀ t ∈ rest, t.kind ≠ .finish)
    (hfails : ∀ rest' : List Token, rest'.head? = rest.head? → ∀ f,
      ofTokens finish (front ++ rest') ≠ .ok f)
    {words : List (TokenKind × String)} (hwords : Accepts words) :
    ¬(front ++ [current finish rest]).map Token.word <+: words := by
  intro hstart
  obtain ⟨given, rfl, hgiven, hread⟩ := hwords.exists_ofTokens finish
  rw [List.prefix_concat_iff, List.map_append] at hstart
  cases rest with
  | nil =>
    -- the given tokens do not hold the one that ends them, so that they are the front itself
    have hfront : front.map Token.word = given := by
      change _ ++ [finish.word] = _ ∨ _ ++ [finish.word] <+: _ at hstart
      rw [hfinish] at hstart
      rcases hstart with heq | hstart
      · exact List.append_cancel_right heq
      · exact absurd rfl (hgiven _ (hstart.subset List.mem_concat_self))
    obtain ⟨f, hf⟩ := hread (front ++ []) (by rw [List.append_nil, hfront])
    exact hfails [] rfl f hf
  | cons t rest =>
    rcases hstart with heq | ⟨more, hmore⟩
    · obtain ⟨-, hlast⟩ := List.append_inj' heq rfl
      exact hkinds t List.mem_cons_self (congrArg Prod.fst (List.cons.inj hlast).1)
    · -- the other formula with these tokens in place of its first ones would be read
      let behind := more.map fun word => Token.mk word.1 word.2 0
      have hbehind : behind.map Token.word = more := by
        rw [List.map_map]
        exact List.map_id _
      obtain ⟨f, hf⟩ := hread (front ++ t :: behind) (by
        rw [List.map_append, List.map_cons, hbehind, ← hmore, List.append_assoc]
        rfl)
      exact hfails (t :: behind) rfl f hf

theorem converts_of_cuts {body : List Char} {ts : List Token}
    (hcuts : Grammar.formula.Cuts [] 0 body ts)
    (haddress : ∀ t ∈ ts, t.kind = .address → (Address.readChars t.text.toList).isSome = true) :
    ∀ t ∈ ts, t.Converts := by
  intro t ht
  refine ⟨fun hkind => ?_, haddress t ht⟩
  obtain ⟨_, _, -, -, hmatch⟩ := hcuts.laidOut.exists_of_mem t ht
  cases Grammar.definitions_of_firstMatch? hmatch (by rw [hkind]; exact List.mem_cons_self)

/-- What an error of a formula points at: the first token that no formula has behind those in front
of it, or, where the text has no tokens, the first place where no rule matches. -/
structure PointsAt (body : List Char) (offset : Nat) : Prop where
  token (ts : List Token) (htokens : Grammar.formula.tokens body = .ok ts) :
    ∃ before t after, ts ++ [Grammar.finish body] = before ++ t :: after ∧ offset = t.offset ∧
      (∃ words, Accepts words ∧ before.map Token.word <+: words) ∧
      ∀ words, Accepts words → ¬(before ++ [t]).map Token.word <+: words
  place (m : Misfit) (htokens : Grammar.formula.tokens body = .error m) :
    ∃ before c after ts, body = before ++ c :: after ∧ offset = byteLength before ∧
      Grammar.formula.Cuts (c :: after) 0 before ts ∧ isBlank c = false ∧
      ∀ rule ∈ Grammar.formula.rules, rule.scan (c :: after) = none

theorem exists_first_misfit {body : List Char} {ts : List Token} {m : Misfit}
    (hcuts : Grammar.formula.Cuts [] 0 body ts)
    (haddress : ∀ t ∈ ts, t.kind = .address → (Address.readChars t.text.toList).isSome = true)
    (hread : ofTokens (Grammar.finish body) ts = .error m) :
    ∃ before t after, ts ++ [Grammar.finish body] = before ++ t :: after ∧ m.offset = t.offset ∧
      (∃ words, Accepts words ∧ before.map Token.word <+: words) ∧
      ∀ words, Accepts words → ¬(before ++ [t]).map Token.word <+: words := by
  have hconverts := converts_of_cuts hcuts haddress
  obtain ⟨front, rest, rfl, hcompletes, hfails⟩ := ofTokens_fails hconverts
    (fun f hf => by cases hread.symm.trans hf)
  obtain ⟨m', hm', hoffset⟩ := hfails rest rfl
  cases hread.symm.trans hm'
  obtain ⟨after, hafter⟩ := current_append (Grammar.finish body) rest
  refine ⟨front, current (Grammar.finish body) rest, after, ?_, hoffset, ?_, ?_⟩
  · rw [List.append_assoc, hafter]
  · refine exists_accepts_of_completes hcompletes
      (fun t ht => hconverts t (List.mem_append_left _ ht)) fun word hword => hcuts.stands word ?_
    rw [List.map_append]
    exact List.mem_append_left _ hword
  · intro words hwords
    refine not_accepts rfl (fun t ht => hcuts.lossless.kinds t (List.mem_append_right _ ht))
      (fun rest' hrest f hf => ?_) hwords
    obtain ⟨m', hm', -⟩ := hfails rest' hrest
    cases hm'.symm.trans hf

theorem parse_eq_error_iff {input : String} {body : List Char} {e : SyntaxError}
    (hinput : trimStart input.toList = '=' :: body) :
    parse input = .error e ↔ ∃ m : Misfit, e = m.locate body ∧
      (Grammar.formula.tokens body = .error m ∨ ∃ ts, Grammar.formula.tokens body = .ok ts ∧
        ofTokens (Grammar.finish body) ts = .error m) := by
  have hbody : parse input = parseBody body := by
    unfold parse
    rw [hinput]
    rfl
  rw [hbody, parseBody]
  cases Grammar.formula.tokens body with
  | error misfit => simp [eq_comm]
  | ok ts =>
    dsimp only
    cases hread : ofTokens (Grammar.finish body) ts <;> simp [hread, eq_comm]

/-- A formula fails as early as it can: behind the tokens in front of the error a formula can go on,
but not with the token at the error. -/
theorem parse_pointsAt {input : String} {body : List Char} {e : SyntaxError}
    (hinput : trimStart input.toList = '=' :: body) (hparse : parse input = .error e)
    (haddress : ∀ ts, Grammar.formula.tokens body = .ok ts → ∀ t ∈ ts, t.kind = .address →
      (Address.readChars t.text.toList).isSome = true) :
    e.remaining = String.ofList (dropBytes e.offset body) ∧ PointsAt body e.offset := by
  obtain ⟨m, rfl, hm⟩ := (parse_eq_error_iff hinput).1 hparse
  refine ⟨rfl, fun ts htokens => ?_, fun m' htokens => ?_⟩
  · obtain ⟨ts', htokens', hread⟩ := hm.resolve_left (by rw [htokens]; intro h; cases h)
    cases htokens.symm.trans htokens'
    exact exists_first_misfit (Grammar.tokens_eq_ok_iff.1 htokens) (haddress ts htokens) hread
  · have hended := Grammar.formula.ended_tokens body
    rw [htokens] at hended
    obtain ⟨before, c, after, ts, hbody, hcuts, hblank, hnone, rfl⟩ := hended
    have hoffset : m.offset = 0 + byteLength before := by
      rcases hm with htokens' | ⟨ts', htokens', -⟩
      · cases htokens.symm.trans htokens'
        rfl
      · cases htokens.symm.trans htokens'
    exact ⟨before, c, after, ts, hbody, hoffset.trans (Nat.zero_add _), hcuts, hblank,
      Grammar.firstMatch?_eq_none_iff.1 hnone⟩

/-- A parenthesis is missing. -/
theorem parse_pointsAt_unclosed : ∃ e, parse "=($A1 2)" = .error e ∧ e.remaining = "2)" ∧
    PointsAt "($A1 2)".toList e.offset := by
  have htokens : Grammar.formula.tokens "($A1 2)".toList =
      .ok [⟨.opening, "(", 0⟩, ⟨.address, "$A1", 1⟩, ⟨.number, "2", 5⟩, ⟨.closing, ")", 6⟩] := by
    decide +kernel
  have hinput : trimStart "=($A1 2)".toList = '=' :: "($A1 2)".toList := by
    decide +kernel
  have haddress : (Address.readChars "$A1".toList).isSome = true := by
    decide +kernel
  have hconverts : (Token.mk .address "$A1" 1).Converts :=
    ⟨fun h => (by cases h), fun _ => haddress⟩
  obtain ⟨cell, hcell⟩ := exists_leaf_iff.2 ⟨rfl, hconverts⟩
  have hread : Reads (readLevels (Grammar.finish "($A1 2)".toList) Operator.levels
      [⟨.address, "$A1", 1⟩, ⟨.number, "2", 5⟩, ⟨.closing, ")", 6⟩]) cell
      [⟨.number, "2", 5⟩, ⟨.closing, ")", 6⟩] :=
    ((derives_leaf hcell).primary.levels Operator.levels).reads
      (ends_cons _ (by decide) (by decide)) _
  have hfails := failsAt_unclosed (rfl : (Token.mk .opening "(" 0).kind = .opening) hread
    fun n hn => by cases hn; decide
  obtain ⟨m, hmisfit, hoffset⟩ := ofTokens_of_failsAt (List.suffix_append [_, _] _)
    (hfails.levels Operator.levels)
  have hparse := (parse_eq_error_iff hinput).2 ⟨m, rfl, .inr ⟨_, htokens, hmisfit⟩⟩
  obtain ⟨hremaining, hpoints⟩ := parse_pointsAt hinput hparse fun ts hts t ht hkind => by
    cases htokens.symm.trans hts
    have hall : ∀ t ∈ [Token.mk .opening "(" 0, ⟨.address, "$A1", 1⟩, ⟨.number, "2", 5⟩,
        ⟨.closing, ")", 6⟩], t.kind = .address → t.text = "$A1" := by
      decide
    rw [hall t ht hkind]
    exact haddress
  have hrest : String.ofList (dropBytes 5 "($A1 2)".toList) = "2)" := by
    decide +kernel
  have hplace : m.offset = 5 := hoffset
  rw [← hplace] at hrest
  exact ⟨_, hparse, hremaining.trans hrest, hpoints⟩

end Formula
end Spreadsheet
