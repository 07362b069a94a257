import Spreadsheet.Proofs.FormulaWords

/-!
The tokens of a text made of words. What a text is read as in front of a break is said by a
function from the byte at which the text starts to its tokens.
-/
namespace Spreadsheet

open Text

namespace Text

theorem byteLength_cons (c : Char) (s : List Char) :
    byteLength (c :: s) = c.utf8Size + byteLength s := by
  have hstart (n : Nat) : s.foldl (fun size c => size + c.utf8Size) n = n + byteLength s := by
    unfold byteLength
    induction s generalizing n with
    | nil => rfl
    | cons d s ih =>
      rw [List.foldl_cons, List.foldl_cons, ih (n + d.utf8Size), ih (0 + d.utf8Size)]
      omega
  rw [byteLength, List.foldl_cons, hstart, Nat.zero_add]

theorem byteLength_append (a b : List Char) :
    byteLength (a ++ b) = byteLength a + byteLength b := by
  induction a with
  | nil => exact (Nat.zero_add _).symm
  | cons c a ih =>
    rw [List.cons_append, byteLength_cons, byteLength_cons, ih]
    omega

end Text

namespace Grammar

/-! ## Words -/

theorem tokensFrom_blank (g : Grammar) (offset : Nat) {c : Char} (s : List Char)
    (hc : isBlank c = true) :
    g.tokensFrom offset 0 (c :: s) = g.tokensFrom (offset + c.utf8Size) 0 s := by
  rw [tokensFrom, if_pos hc]

theorem tokensFrom_passed (g : Grammar) (offset : Nat) (s rest : List Char) :
    g.tokensFrom offset s.length (s ++ rest) = g.tokensFrom (offset + byteLength s) 0 rest := by
  induction s generalizing offset with
  | nil => rfl
  | cons c s ih =>
    rw [List.cons_append, List.length_cons, tokensFrom]
    rw [ih, byteLength_cons, Nat.add_assoc]

/-- A word makes the first token, and what follows it makes the others. -/
theorem tokensFrom_word (g : Grammar) (offset : Nat) {s rest : List Char} {kind : TokenKind}
    (hfirst : s.head?.map isBlank = some false)
    (hmatch : g.firstMatch? (s ++ rest) = some (some kind, s.length)) :
    g.tokensFrom offset 0 (s ++ rest) =
      (g.tokensFrom (offset + byteLength s) 0 rest).map
        ({ kind := kind, text := String.ofList s, offset := offset } :: ·) := by
  cases s with
  | nil => cases hfirst
  | cons c s =>
    have hc : ¬isBlank c = true := by rw [Option.some.inj hfirst]; decide
    have hpassed := tokensFrom_passed g (offset + c.utf8Size) s rest
    rw [List.cons_append, tokensFrom, if_neg hc, ← List.cons_append, hmatch, List.length_cons]
    dsimp only
    rw [hpassed, byteLength_cons, ← Nat.add_assoc, List.take_left]
    cases g.tokensFrom (offset + c.utf8Size + byteLength s) 0 rest <;> rfl

theorem le_offset {g : Grammar} {offset passed : Nat} {s : List Char} {ts : List Token}
    (h : g.tokensFrom offset passed s = .ok ts) : ∀ t ∈ ts, offset ≤ t.offset := by
  fun_induction tokensFrom g offset passed s generalizing ts with
  | case1 =>
    cases h
    intro t ht
    cases ht
  | case2 =>
    rename_i ih
    intro t ht
    exact Nat.le_trans (Nat.le_add_right _ _) (ih h t ht)
  | case3 =>
    rename_i ih
    intro t ht
    exact Nat.le_trans (Nat.le_add_right _ _) (ih h t ht)
  | case4 =>
    rename_i ih
    intro t ht
    exact Nat.le_trans (Nat.le_add_right _ _) (ih h t ht)
  | case5 =>
    rename_i htokens ih
    cases h
    intro t ht
    cases List.mem_cons.1 ht with
    | inl heq => exact Nat.le_of_eq (heq ▸ rfl)
    | inr hmem => exact Nat.le_trans (Nat.le_add_right _ _) (ih htokens t hmem)
  | case6 => cases h
  | case7 => cases h

/-- The text as a whole makes one token of the given kind. -/
def ReadsWhole (g : Grammar) (kind : TokenKind) (s : List Char) : Prop :=
  g.tokens s = .ok [{ kind := kind, text := String.ofList s, offset := 0 }]

theorem readsWhole_of_firstMatch? {g : Grammar} {kind : TokenKind} {s : List Char}
    (hfirst : s.head?.map isBlank = some false)
    (hmatch : g.firstMatch? s = some (some kind, s.length)) : g.ReadsWhole kind s := by
  have hmatch' : g.firstMatch? (s ++ []) = some (some kind, s.length) := by
    rw [List.append_nil, hmatch]
  have htokens := tokensFrom_word g 0 hfirst hmatch'
  rw [List.append_nil] at htokens
  exact htokens

theorem firstMatch?_of_readsWhole {kind : TokenKind} {s : List Char}
    (h : formula.ReadsWhole kind s) :
    s.head?.map isBlank = some false ∧
      formula.firstMatch? s = some (some kind, s.length) := by
  cases s with
  | nil => cases h
  | cons c s =>
    -- a token behind the first character would not stand at the start of the text
    have hlate {passed : Nat} (hrest : formula.tokensFrom (0 + c.utf8Size) passed s =
        .ok [{ kind := kind, text := String.ofList (c :: s), offset := 0 }]) : False := by
      have hle := le_offset hrest _ List.mem_cons_self
      have hpos := Char.utf8Size_pos c
      dsimp only at hle
      omega
    unfold ReadsWhole tokens at h
    rw [tokensFrom] at h
    split at h
    next => exact (hlate h).elim
    next hblank =>
      split at h
      next => exact (hlate h).elim
      next kind' n hmatch =>
        cases htokens : formula.tokensFrom (0 + c.utf8Size) n s with
        | error misfit =>
          rw [htokens] at h
          cases h
        | ok ts =>
          rw [htokens] at h
          simp only [Except.ok.injEq, List.cons.injEq, Token.mk.injEq, String.ofList_inj,
            true_and, and_true] at h
          obtain ⟨⟨rfl, htake⟩, -⟩ := h
          obtain ⟨rule, hrule, -, hscan⟩ := rule_of_firstMatch? hmatch
          have hle := TokenRule.bounded_formula hrule _ _ hscan
          have hge := congrArg List.length htake
          rw [List.length_take] at hge
          have hn : n + 1 = (c :: s).length := by
            rw [List.length_cons] at hle ⊢
            omega
          exact ⟨congrArg some (eq_false_of_ne_true hblank), by rw [hmatch, ← hn]⟩
      next => cases h

/-! ## Texts of several words -/

/-- What a text is read as, wherever what follows it is as `follows` says. -/
def LexesBefore (follows : List Char → Prop) (text : List Char) (tokens : Nat → List Token) :
    Prop :=
  ∀ (offset : Nat) (rest : List Char), follows rest →
    formula.tokensFrom offset 0 (text ++ rest) =
      (formula.tokensFrom (offset + byteLength text) 0 rest).map (tokens offset ++ ·)

/-- What a text is read as in front of a break. -/
abbrev Lexes (text : List Char) (tokens : Nat → List Token) : Prop :=
  LexesBefore AtBreak text tokens

/-- What a text is read as in front of anything. -/
abbrev LexesAlways (text : List Char) (tokens : Nat → List Token) : Prop :=
  LexesBefore (fun _ => True) text tokens

theorem LexesBefore.append {before follows : List Char → Prop} {a b : List Char}
    {tokensA tokensB : Nat → List Token} (ha : LexesBefore before a tokensA)
    (hb : LexesBefore follows b tokensB) (hbefore : ∀ rest, follows rest → before (b ++ rest)) :
    LexesBefore follows (a ++ b)
      fun offset => tokensA offset ++ tokensB (offset + byteLength a) := by
  intro offset rest hrest
  rw [List.append_assoc, ha offset (b ++ rest) (hbefore rest hrest), hb _ rest hrest,
    byteLength_append, Nat.add_assoc]
  cases formula.tokensFrom (offset + (byteLength a + byteLength b)) 0 rest with
  | error misfit => rfl
  | ok ts => exact congrArg Except.ok (List.append_assoc _ _ _).symm

theorem LexesBefore.cons {follows : List Char → Prop} {c : Char} {b : List Char}
    {tokensA tokensB : Nat → List Token} (ha : LexesAlways [c] tokensA)
    (hb : LexesBefore follows b tokensB) :
    LexesBefore follows (c :: b) fun offset => tokensA offset ++ tokensB (offset + byteLength [c]) :=
  ha.append hb fun _ _ => trivial

theorem lexesAlways_blank : LexesAlways [' '] fun _ => [] := by
  intro offset rest _
  rw [List.singleton_append, tokensFrom_blank _ _ _ (by decide)]
  change _ = (formula.tokensFrom (offset + ' '.utf8Size) 0 rest).map id
  cases formula.tokensFrom (offset + ' '.utf8Size) 0 rest <;> rfl

theorem lexesAlways_symbol {c : Char} {kind : TokenKind} (hblank : isBlank c = false)
    (hmatch : ∀ rest, formula.firstMatch? (c :: rest) = some (some kind, 1)) :
    LexesAlways [c]
      fun offset => [{ kind := kind, text := String.ofList [c], offset := offset }] := by
  intro offset rest _
  exact tokensFrom_word _ _ (congrArg some hblank) (hmatch rest)

theorem lexesAlways_opening : LexesAlways ['(']
    fun offset => [{ kind := .opening, text := "(", offset := offset }] :=
  lexesAlways_symbol (by decide) fun _ => rfl

theorem lexesAlways_closing : LexesAlways [')']
    fun offset => [{ kind := .closing, text := ")", offset := offset }] :=
  lexesAlways_symbol (by decide) fun _ => rfl

theorem lexes_word {kind : TokenKind} {s : List Char} (h : formula.ReadsWhole kind s)
    (hkind : kind ≠ .text) :
    Lexes s fun offset => [{ kind := kind, text := String.ofList s, offset := offset }] := by
  obtain ⟨hfirst, hmatch⟩ := firstMatch?_of_readsWhole h
  have hs : s ≠ [] := by
    rintro rfl
    cases hfirst
  intro offset rest hrest
  exact tokensFrom_word _ _ hfirst (firstMatch?_word hkind hmatch hs hrest)

theorem lexes_text (s : List Char) :
    Lexes (enclose '"' s) fun offset =>
      [{ kind := .text, text := String.ofList (enclose '"' s), offset := offset }] := by
  intro offset rest hrest
  exact tokensFrom_word _ _ rfl (firstMatch?_text s hrest)

end Grammar
end Spreadsheet
