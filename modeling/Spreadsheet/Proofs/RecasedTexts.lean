import Mathlib.Data.List.DropRight
import Spreadsheet.Proofs.LetterCase
import Spreadsheet.Proofs.NormalizedFormulas
import Spreadsheet.Proofs.TokenMeanings

/-!
Texts in which letters have another case. Where quoted texts, the names of sheets and `def` stay as
they are, the rules find the same tokens at the same places, and these mean the same. Only a name
that would be `def` in lower case is in the way: in another case it may be found as the keyword.
Main statement: formulas and definition sections are read alike in any case.
-/
namespace Spreadsheet

open Text

/-- What of a token's text must keep its case. -/
def TokenKind.kept (kind : TokenKind) (w : List Char) : List Char :=
  match kind with
  | .text | .define => w
  | .address => w.rdropWhile (· != '!')
  | _ => []

namespace Token

/-- What of the token must keep its case: all of a quoted text or a `def`, and the name of a
sheet. -/
def kept (t : Token) : List Char :=
  t.kind.kept t.text.toList

/-- Whether what the token keeps stands at its place in the text. -/
def IsKeptIn (t : Token) (s : List Char) : Prop :=
  takeBytes (byteLength t.kept) (dropBytes t.offset s) = t.kept

/-- An identifier that is, or starts like, the keyword in another case. -/
def LooksLikeDefine (t : Token) : Prop :=
  t.kind = .identifier ∧
    (lower t.text = "def" ∨ "def.".toList <+: (lower t.text).toList)

instance (t : Token) (s : List Char) : Decidable (t.IsKeptIn s) :=
  inferInstanceAs (Decidable (_ = _))

instance (t : Token) : Decidable t.LooksLikeDefine :=
  inferInstanceAs (Decidable (_ ∧ _))

end Token

theorem TokenKind.exists_kept (kind : TokenKind) (w : List Char) :
    ∃ more, w = kind.kept w ++ more := by
  cases kind with
  | text => exact ⟨[], (List.append_nil w).symm⟩
  | define => exact ⟨[], (List.append_nil w).symm⟩
  | address =>
    obtain ⟨more, hmore⟩ := List.rdropWhile_prefix (· != '!') (l := w)
    exact ⟨more, hmore.symm⟩
  | _ => exact ⟨w, rfl⟩

/-- The name of the sheet is what stands in front of the last `!`. -/
theorem SheetText.rdropWhile_chars (t : SheetText) {corners : List Char} (h : '!' ∉ corners) :
    (t.chars ++ corners).rdropWhile (· != '!') = t.chars := by
  have hcorners : ∀ c ∈ corners.reverse, (c != '!') = true := by
    intro c hc
    rw [bne_iff_ne]
    rintro rfl
    exact h (List.mem_reverse.1 hc)
  have hsheet : t.chars.reverse.dropWhile (· != '!') = t.chars.reverse := by
    cases t with
    | here => rfl
    | plain name hne hplain =>
      rw [chars, List.reverse_append]
      rfl
    | quoted name hne =>
      rw [chars, List.reverse_append]
      rfl
  rw [List.rdropWhile, List.reverse_append, List.dropWhile_append_of_pos hcorners, hsheet,
    List.reverse_reverse]

/-- An address in another case, with the name of the sheet kept, is cut into the same parts. -/
theorem AddressText.split_alike {t t' : AddressText} (halike : Alike t.chars t'.chars)
    (hkept : TokenKind.address.kept t.chars <+: t'.chars) :
    t'.sheet.chars = t.sheet.chars ∧
      Alike (t.first.chars ++ t.lastChars) (t'.first.chars ++ t'.lastChars) := by
  obtain ⟨corners, hcorners⟩ := hkept
  rw [TokenKind.kept, chars, t.sheet.rdropWhile_chars t.mark_not_mem_corners] at hcorners
  have hbehind : Alike (t.first.chars ++ t.lastChars) corners := by
    rw [← hcorners, chars] at halike
    unfold Alike at halike
    rw [List.map_append, List.map_append] at halike
    exact List.append_cancel_left halike
  have hmark : '!' ∉ corners := by
    intro hmem
    obtain ⟨c, hc, heq⟩ := List.mem_map.1 (hbehind ▸ List.mem_map_of_mem (f := Char.toLower) hmem)
    have hmark : c = '!' := (toLower_eq_iff (by decide)).1 heq
    rw [hmark] at hc
    exact t.mark_not_mem_corners hc
  have hsheet : t'.sheet.chars = t.sheet.chars := by
    rw [← t'.sheet.rdropWhile_chars t'.mark_not_mem_corners, ← t.sheet.rdropWhile_chars hmark,
      hcorners]
    rfl
  refine ⟨hsheet, ?_⟩
  rw [chars, hsheet] at hcorners
  rw [← List.append_cancel_left hcorners]
  exact hbehind

namespace TokenRule

open Scan

/-! ## The keyword -/

theorem atWordEnd_alike {s s' : List Char} (h : Alike s s') : atWordEnd s' = atWordEnd s := by
  cases s with
  | nil => rw [List.map_eq_nil_iff.1 h]
  | cons c s =>
    obtain ⟨c', rest, rfl, hc, -⟩ := h.exists_cons
    rw [atWordEnd, atWordEnd, ← ignoresCase_isWordChar c', hc, ignoresCase_isWordChar c]

/-- Behind a word, a name goes on with a dot or not at all. -/
theorem takeWhile_isNamePart {s : List Char} (hend : atWordEnd s = true) :
    s.takeWhile isNamePart = [] ∨ ∃ rest, s.takeWhile isNamePart = '.' :: rest := by
  cases s with
  | nil => exact .inl rfl
  | cons c s =>
    by_cases hc : isNamePart c = true
    · refine .inr ⟨s.takeWhile isNamePart, ?_⟩
      have hdot : c = '.' := by
        have hname : isNameChar c = true ∨ c = '.' := by simpa [isNamePart] using hc
        refine hname.resolve_left fun hname => ?_
        unfold isNameChar at hname
        rw [atWordEnd, isWordChar, if_pos (ascii_of_isNamePart hc), hname] at hend
        cases hend
      rw [List.takeWhile_cons_of_pos hc, hdot]
    · exact .inl (List.takeWhile_cons_of_neg hc)

/-- A name that is found where another case would make it `def`. -/
theorem looksLikeDefine {s more : List Char} {n : Nat} (offset : Nat)
    (halike : Alike s ("def".toList ++ more)) (hend : atWordEnd more = true)
    (hscan : identifier s = some n) :
    Token.LooksLikeDefine ⟨.identifier, String.ofList (s.take n), offset⟩ := by
  have hn : n = ("def".toList ++ more.takeWhile isNamePart).length := by
    have hkeyword : ['e', 'f'].all isNamePart = true := by decide
    have hfound : identifier ('d' :: (['e', 'f'] ++ more)) = some n :=
      (ignoresCase_identifier.eq halike).trans hscan
    rw [identifier_cons _ (by decide), List.takeWhile_append_of_pos (List.all_eq_true.1 hkeyword),
      Option.some.injEq] at hfound
    exact hfound.symm
  have htake : ("def".toList ++ more).take n = "def".toList ++ more.takeWhile isNamePart := by
    rw [hn, List.length_append, List.take_length_add_append, take_takeWhile]
  have hlower : (lower (String.ofList (s.take n))).toList =
      "def".toList ++ (more.takeWhile isNamePart).map Char.toLower := by
    have hascii := ascii_of_isName (takes_identifier s n hscan)
    rw [toList_lower (by rwa [String.toList_ofList]), String.toList_ofList, List.map_take,
      ← halike, ← List.map_take, htake, List.map_append]
    rfl
  refine ⟨rfl, ?_⟩
  rcases takeWhile_isNamePart hend with hnone | ⟨rest, hdot⟩
  · rw [hnone] at hlower
    exact .inl (String.toList_inj.1 hlower)
  · rw [hdot] at hlower
    exact .inr ⟨rest.map Char.toLower, hlower.symm⟩

end TokenRule

namespace Grammar

open TokenRule Scan

/-! ## First matches -/

theorem findSome?_scan_congr (rules : List TokenRule) {s s' : List Char}
    (h : ∀ rule ∈ rules, rule.scan s' = rule.scan s) :
    (rules.findSome? fun rule => (rule.scan s').map fun n => (rule.kind, n)) =
      rules.findSome? fun rule => (rule.scan s).map fun n => (rule.kind, n) := by
  induction rules with
  | nil => rfl
  | cons rule rules ih =>
    obtain ⟨hrule, hrules⟩ := List.forall_mem_cons.1 h
    rw [List.findSome?_cons, List.findSome?_cons, hrule, ih hrules]

/-- Where the rules before it find nothing, the keyword is found in both texts or in none. -/
theorem define_alike {s s' : List Char} {kind : Option TokenKind} {n : Nat} (offset : Nat)
    (halike : Alike s s') (hmatch : definitions.firstMatch? s = some (kind, n))
    (hbefore : ∀ rule ∈ leading .definitions ++ literals, rule.scan s = none)
    (hkeyword : kind = some .define → "def".toList <+: s')
    (hname : ¬Token.LooksLikeDefine ⟨kind.getD .finish, String.ofList (s.take n), offset⟩) :
    define s' = define s := by
  cases hdefine : define s with
  | some m =>
    obtain ⟨more, rfl, hend, rfl⟩ := define_eq_some_iff.1 hdefine
    have hfound := firstMatch?_of_first (g := definitions) ⟨_, rfl⟩ hbefore hdefine
    rw [hmatch, Option.some.injEq, Prod.mk.injEq] at hfound
    obtain ⟨more', rfl⟩ := hkeyword hfound.1
    obtain ⟨front, back, hsplit, hfront, hback⟩ := halike.exists_append
    obtain ⟨-, rfl⟩ := List.append_inj hsplit hfront.length.symm
    exact define_eq_some_iff.2 ⟨more', rfl, (atWordEnd_alike hback).trans hend, rfl⟩
  | none =>
    cases hdefine' : define s' with
    | none => rfl
    | some m =>
      -- the text in front of `s` is a name that looks like the keyword
      obtain ⟨more, rfl, hend, -⟩ := define_eq_some_iff.1 hdefine'
      obtain ⟨c, rest, rfl, hc, hrest⟩ := Alike.exists_cons (s := ['e', 'f'] ++ more) halike.symm
      have hstart : isNameStart c = true := by
        rw [← ignoresCase_isNameStart c, hc]
        rfl
      have hscan := identifier_cons rest hstart
      have hothers : ∀ rule ∈ leading .definitions ++ literals ++
          [⟨some .define, define⟩, ⟨some .assign, assign⟩, ⟨some .dollarName, dollarName⟩],
          rule.scan (c :: rest) = none :=
        List.forall_mem_append.2 ⟨hbefore, List.forall_mem_cons.2 ⟨hdefine,
          List.forall_mem_cons.2 ⟨assign_eq_none rest (ne_of_isNameStart hstart (by decide)),
            List.forall_mem_singleton.2 (dollarName_name rest hstart)⟩⟩⟩
      have hfound := firstMatch?_of_first (g := definitions) ⟨_, rfl⟩ hothers hscan
      rw [hmatch, Option.some.injEq, Prod.mk.injEq] at hfound
      obtain ⟨rfl, rfl⟩ := hfound
      exact absurd (looksLikeDefine offset halike hend hscan) hname

/-- In another case the same is found. -/
theorem firstMatch?_alike {g : Grammar} {s s' : List Char} {kind : Option TokenKind} {n : Nat}
    (offset : Nat) (halike : Alike s s') (hmatch : g.firstMatch? s = some (kind, n))
    (hkeyword : kind = some .define → "def".toList <+: s')
    (hname : g = .definitions →
      ¬Token.LooksLikeDefine ⟨kind.getD .finish, String.ofList (s.take n), offset⟩) :
    g.firstMatch? s' = some (kind, n) := by
  have hother : ∀ rule ∈ g.rules, rule.kind ≠ some .define → rule.scan s' = rule.scan s :=
    fun rule hrule hkind => (ignoresCase_rule hrule hkind).eq halike
  cases g with
  | formula =>
    have hkinds : ∀ rule ∈ formula.rules, rule.kind ≠ some .define := by decide
    rw [← hmatch]
    exact findSome?_scan_congr _ fun rule hrule => hother rule hrule (hkinds rule hrule)
  | definitions =>
    have hsplit : definitions.rules = (leading .definitions ++ literals) ++
        (⟨some .define, define⟩ :: ⟨some .assign, assign⟩ :: shared) := rfl
    have hkinds : (∀ rule ∈ leading .definitions ++ literals, rule.kind ≠ some .define) ∧
        ∀ rule ∈ (⟨some .assign, assign⟩ :: shared : List TokenRule), rule.kind ≠ some .define := by
      decide
    have hbefore := findSome?_scan_congr (leading .definitions ++ literals)
      fun rule hrule => hother rule (hsplit ▸ List.mem_append_left _ hrule) (hkinds.1 rule hrule)
    cases hfound : (leading .definitions ++ literals).findSome?
        fun rule => (rule.scan s).map fun n => (rule.kind, n) with
    | some found =>
      rw [firstMatch?, hsplit, List.findSome?_append, hfound, Option.some_or] at hmatch
      rw [firstMatch?, hsplit, List.findSome?_append, hbefore, hfound, Option.some_or, hmatch]
    | none =>
      -- the rule of the keyword is the only one that looks at the case, and here it is reached
      have hnone : ∀ rule ∈ leading .definitions ++ literals, rule.scan s = none :=
        fun rule hrule => Option.map_eq_none_iff.1 (List.findSome?_eq_none_iff.1 hfound rule hrule)
      have hdefine := define_alike offset halike hmatch hnone hkeyword (hname rfl)
      rw [← hmatch]
      refine findSome?_scan_congr _ fun rule hrule => ?_
      by_cases hkind : rule.kind = some .define
      · rw [hsplit] at hrule
        rcases List.mem_append.1 hrule with hrule | hrule
        · exact absurd hkind (hkinds.1 rule hrule)
        · rcases List.mem_cons.1 hrule with rfl | hrule
          · exact hdefine
          · exact absurd hkind (hkinds.2 rule hrule)
      · exact hother rule hrule hkind

/-! ## Tokens -/

/-- The texts of numbers, dates and operators have no letters. -/
theorem isAlpha_of_scan {kind : TokenKind} {w after : List Char}
    (hkind : kind ∈ [.number, .date, .operator]) (hscan : kind.scan (w ++ after) = some w.length) :
    ∀ c ∈ w, c.isAlpha = false := by
  have hdigit {c : Char} (hc : c.isDigit = true) : c.isAlpha = false := by
    apply eq_false_of_ne_true
    intro halpha
    rw [isDigit_of_isAlpha halpha] at hc
    cases hc
  simp only [List.mem_cons, List.not_mem_nil, or_false] at hkind
  rcases hkind with rfl | rfl | rfl
  · intro c hc
    rcases takes_number.left hscan with ⟨whole, fraction, hdecimal⟩ | ⟨fraction, -, hdigits, rfl⟩
    · rcases (decimal_chars hdecimal).2 c hc with hc | rfl
      · exact hdigit hc
      · rfl
    · rcases List.mem_cons.1 hc with rfl | hc
      · rfl
      · exact hdigit (hdigits c hc)
  · obtain ⟨year, month, day, ⟨-, hyear⟩, ⟨-, hmonth⟩, ⟨-, hday⟩, rfl⟩ := takes_date.left hscan
    simp only [List.append_nil, List.forall_mem_append, List.forall_mem_singleton]
    exact ⟨fun c hc => hdigit (hyear c hc), rfl, fun c hc => hdigit (hmonth c hc), rfl,
      fun c hc => hdigit (hday c hc)⟩
  · have hall : (operators.all fun c => !c.isAlpha) = true := by decide
    rcases takes_operator.left hscan with hmem | ⟨c, hc, rfl⟩
    · have hwords : (["<=".toList, ">=".toList, "<>".toList].all
          fun w => w.all fun c => !c.isAlpha) = true := by decide
      intro c hc
      simpa using List.all_eq_true.1 (List.all_eq_true.1 hwords w hmem) c hc
    · refine List.forall_mem_singleton.2 ?_
      simpa using List.all_eq_true.1 hall c hc

/-- Tokens that differ in the case of letters that they need not keep mean the same. -/
theorem meaning_alike {kind : TokenKind} {w w' after after' : List Char} (offset : Nat)
    (hscan : kind.scan (w ++ after) = some w.length)
    (hscan' : kind.scan (w' ++ after') = some w'.length) (halike : Alike w w')
    (hkept : kind.kept w <+: w') :
    Token.meaning ⟨kind, String.ofList w', offset⟩ = Token.meaning ⟨kind, String.ofList w, offset⟩ := by
  have hsame (heq : w' = w) : Token.meaning ⟨kind, String.ofList w', offset⟩ =
      Token.meaning ⟨kind, String.ofList w, offset⟩ := by rw [heq]
  cases kind with
  | number => exact hsame (halike.eq (isAlpha_of_scan (by decide) hscan))
  | date => exact hsame (halike.eq (isAlpha_of_scan (by decide) hscan))
  | operator => exact hsame (halike.eq (isAlpha_of_scan (by decide) hscan))
  | text => exact hsame (hkept.eq_of_length halike.length.symm).symm
  | boolean =>
    have hlower : lowerAscii w' = lowerAscii w := halike
    simp only [Token.meaning, Token.name, Token.value?, Expression.leaf?, String.toList_ofList,
      hlower]
  | address =>
    -- the sheet is kept and the corners are read in any case
    obtain ⟨t, -, -, rfl⟩ := takes_address.left hscan
    obtain ⟨t', -, -, rfl⟩ := takes_address.left hscan'
    obtain ⟨hsheet, hcorners⟩ := AddressText.split_alike halike hkept
    have hread := AddressText.readChars_alike hsheet hcorners
    rw [Token.meaning, Token.meaning, Token.value?_address rfl, Token.value?_address rfl,
      String.toList_ofList, String.toList_ofList, hread]
    rfl
  | dollarName =>
    obtain ⟨name, hname, -, rfl⟩ := takes_dollarName.left hscan
    obtain ⟨name', hname', -, rfl⟩ := takes_dollarName.left hscan'
    have hnames : Alike name name' := by simpa [Alike] using halike
    have hlower := hnames.lower_eq (ascii_of_isName hname) (ascii_of_isName hname')
    simp only [Token.meaning, Token.name, Token.value?, Expression.leaf?, String.toList_ofList,
      List.drop_succ_cons, List.drop_zero, Formula.reference, hlower]
  | identifier =>
    have hlower := halike.lower_eq (ascii_of_isName (takes_identifier.left hscan))
      (ascii_of_isName (takes_identifier.left hscan'))
    simp only [Token.meaning, Token.name, Token.value?, Expression.leaf?, hlower]
  | finish => cases hscan
  | _ => rfl

/-! ## Texts -/

theorem ignoresCase_isBlank : Text.IgnoresCase isBlank :=
  ignoresCase_of_ascii (by decide)

theorem isBlank_alike {c c' : Char} (h : c'.toLower = c.toLower) : isBlank c' = isBlank c := by
  rw [← ignoresCase_isBlank c', h, ignoresCase_isBlank c]

theorem head?_alike {w w' : List Char} (halike : Alike w w')
    (hfirst : w.head?.map isBlank = some false) : w'.head?.map isBlank = some false := by
  cases w with
  | nil => cases hfirst
  | cons c w =>
    obtain ⟨c', rest, rfl, hc, -⟩ := halike.exists_cons
    rw [List.head?_cons, Option.map_some, isBlank_alike hc]
    exact hfirst

/-- What the token in front of a text keeps stands in front of the other text. -/
theorem kept_of_isKeptIn {kind : TokenKind} {w w' passed rest : List Char} (halike : Alike w w')
    (hkept : Token.IsKeptIn ⟨kind, String.ofList w, byteLength passed⟩ (passed ++ (w' ++ rest))) :
    kind.kept w <+: w' := by
  obtain ⟨more, hmore⟩ := kind.exists_kept w
  obtain ⟨front, back, rfl, hfront, -⟩ : ∃ front back, w' = front ++ back ∧
      Alike (kind.kept w) front ∧ Alike more back := by
    rw [hmore] at halike
    exact halike.exists_append
  rw [Token.IsKeptIn, Token.kept, String.toList_ofList, dropBytes_append, ← hfront.byteLength,
    List.append_assoc, takeBytes_append] at hkept
  exact ⟨back, by rw [hkept]⟩

section Steps

variable {g : Grammar} {w w' s s' : List Char}

/-- What is dropped is dropped in another case. -/
theorem firstMatch?_dropped_alike (hw : Alike w w') (halike : Alike (w ++ s) (w' ++ s'))
    (hmatch : g.firstMatch? (w ++ s) = some (none, w.length)) :
    g.firstMatch? (w' ++ s') = some (none, w'.length) := by
  rw [hw.length]
  refine firstMatch?_alike 0 halike hmatch ?_ ?_
  · intro h
    cases h
  · rintro - ⟨h, -⟩
    cases h

/-- A token is found in another case, and means the same. -/
theorem firstMatch?_token_alike {kind : TokenKind} (offset : Nat) (hw : Alike w w')
    (halike : Alike (w ++ s) (w' ++ s')) (hkept : kind.kept w <+: w')
    (hname : g = .definitions → ¬Token.LooksLikeDefine ⟨kind, String.ofList w, offset⟩)
    (hmatch : g.firstMatch? (w ++ s) = some (some kind, w.length)) :
    g.firstMatch? (w' ++ s') = some (some kind, w'.length) ∧
      Token.meaning ⟨kind, String.ofList w', offset⟩ =
        Token.meaning ⟨kind, String.ofList w, offset⟩ := by
  have hkeyword : some kind = some .define → "def".toList <+: w' ++ s' := by
    rintro ⟨⟩
    have hdefine : w = "def".toList := takes_define.left (scan_of_firstMatch? hmatch)
    rw [← hdefine]
    exact hkept.trans (List.prefix_append w' s')
  have hfound := firstMatch?_alike offset halike hmatch hkeyword (by rwa [List.take_left])
  rw [← hw.length] at hfound
  exact ⟨hfound, meaning_alike offset (scan_of_firstMatch? hmatch) (scan_of_firstMatch? hfound) hw
    hkept⟩

end Steps

/-- A text in another case has tokens that mean the same, if it keeps what they must keep. -/
theorem Cuts.exists_alike {g : Grammar} {offset : Nat} {s : List Char} {ts : List Token}
    (h : g.Cuts [] offset s ts) (passed s' : List Char) (hpassed : byteLength passed = offset)
    (halike : Alike s s') (hkept : ∀ t ∈ ts, t.IsKeptIn (passed ++ s'))
    (hnames : g = .definitions → ∀ t ∈ ts, ¬t.LooksLikeDefine) :
    ∃ ts', g.Cuts [] offset s' ts' ∧ SameMeanings ts ts' := by
  -- `passed` stands in front of the other text, so that what is kept is looked up in the whole of it
  induction h generalizing passed s' with
  | done offset =>
    rw [List.map_eq_nil_iff.1 halike]
    exact ⟨[], .done _, rfl⟩
  | @blank offset c s ts hc _ ih =>
    obtain ⟨c', rest, rfl, hsame, hrest⟩ := halike.exists_cons
    have hsize : c'.utf8Size = c.utf8Size := by
      rw [← utf8Size_toLower, hsame, utf8Size_toLower]
    have hnext : byteLength (passed ++ [c']) = offset + c.utf8Size := by
      rw [byteLength_append, hpassed, byteLength_cons, hsize]
      rfl
    rw [List.append_cons] at hkept
    obtain ⟨ts', hcuts, hmeanings⟩ := ih (passed ++ [c']) rest hnext hrest hkept hnames
    rw [← hsize] at hcuts
    exact ⟨ts', .blank ((isBlank_alike hsame).trans hc) hcuts, hmeanings⟩
  | @dropped offset w s ts hfirst hmatch _ ih =>
    obtain ⟨w', rest, rfl, hw, hrest⟩ := halike.exists_append
    have hnext : byteLength (passed ++ w') = offset + byteLength w := by
      rw [byteLength_append, hpassed, hw.byteLength]
    rw [← List.append_assoc] at hkept
    obtain ⟨ts', hcuts, hmeanings⟩ := ih (passed ++ w') rest hnext hrest hkept hnames
    rw [← hw.byteLength] at hcuts
    rw [List.append_nil] at hmatch
    have hfound := firstMatch?_dropped_alike hw halike hmatch
    exact ⟨ts', .dropped (head?_alike hw hfirst) (by rwa [List.append_nil]) hcuts, hmeanings⟩
  | @token offset kind w s ts hfirst hmatch _ ih =>
    obtain ⟨w', rest, rfl, hw, hrest⟩ := halike.exists_append
    obtain ⟨hkeptFirst, hkeptRest⟩ := List.forall_mem_cons.1 hkept
    have hnext : byteLength (passed ++ w') = offset + byteLength w := by
      rw [byteLength_append, hpassed, hw.byteLength]
    rw [← List.append_assoc] at hkeptRest
    obtain ⟨ts', hcuts, hmeanings⟩ := ih (passed ++ w') rest hnext hrest hkeptRest
      fun hg t ht => hnames hg t (List.mem_cons_of_mem _ ht)
    rw [← hw.byteLength] at hcuts
    rw [← hpassed] at hkeptFirst
    rw [List.append_nil] at hmatch
    obtain ⟨hfound, hmeaning⟩ := firstMatch?_token_alike offset hw halike
      (kept_of_isKeptIn hw hkeptFirst) (fun hg => hnames hg _ List.mem_cons_self) hmatch
    refine ⟨⟨kind, String.ofList w', offset⟩ :: ts',
      .token (head?_alike hw hfirst) (by rwa [List.append_nil]) hcuts, ?_⟩
    exact congrArg₂ List.cons hmeaning hmeanings

/-- Whether the text keeps what the tokens of another text must keep. -/
def Keeps (g : Grammar) (s s' : List Char) : Prop :=
  ∀ ts, g.tokens s = .ok ts → ∀ t ∈ ts, t.IsKeptIn s'

theorem exists_tokens_alike {g : Grammar} {s s' : List Char} {ts : List Token}
    (h : g.tokens s = .ok ts) (halike : Alike s s') (hkeeps : g.Keeps s s')
    (hnames : g = .definitions → ∀ t ∈ ts, ¬t.LooksLikeDefine) :
    ∃ ts', g.tokens s' = .ok ts' ∧ SameMeanings ts ts' := by
  obtain ⟨ts', hcuts, hmeanings⟩ :=
    (tokens_eq_ok_iff.1 h).exists_alike [] s' rfl halike (hkeeps ts h) hnames
  exact ⟨ts', tokens_eq_ok_iff.2 hcuts, hmeanings⟩

end Grammar

/-! ## Formulas and sections -/

/-- The `=` stands at the same place, and what is behind it differs in case only. -/
theorem Formula.body_alike {input input' : String} (halike : Alike input.toList input'.toList)
    (hinput : trimStart input.toList = '=' :: Formula.body input) :
    trimStart input'.toList = '=' :: Formula.body input' ∧
      Alike (Formula.body input) (Formula.body input') := by
  have htrim : Alike (trimStart input.toList) (trimStart input'.toList) := by
    unfold Alike trimStart at *
    rw [← Grammar.ignoresCase_isBlank.comp, ← List.dropWhile_map, ← List.dropWhile_map, halike]
  rw [hinput] at htrim
  obtain ⟨c, rest, hrest, hc, hbody⟩ := htrim.exists_cons
  have hequals : c = '=' := (toLower_eq_iff (by decide)).1 hc
  rw [Formula.body, hrest, hequals]
  exact ⟨rfl, hbody⟩

/-- Formulas and sections are read alike in any case, but for quoted texts, the names of sheets and
the keyword `def`. A section must not have a name that another case could make the keyword. -/
theorem parse_recased :
    (∀ (input input' : String) (f : Formula), Formula.parse input = .ok f →
      Alike input.toList input'.toList →
      Grammar.formula.Keeps (Formula.body input) (Formula.body input') →
      Formula.parse input' = .ok f) ∧
    ∀ (input input' : String) (d : Definitions), Definitions.parse input = .ok d →
      Alike input.toList input'.toList →
      Grammar.definitions.Keeps input.toList input'.toList →
      (∀ ts, Grammar.definitions.tokens input.toList = .ok ts → ∀ t ∈ ts, ¬t.LooksLikeDefine) →
      Definitions.parse input' = .ok d := by
  constructor
  · intro input input' f hparse halike hkeeps
    obtain ⟨hinput, hbody⟩ := Formula.parse_eq_ok_iff.1 hparse
    obtain ⟨ts, htokens, hread⟩ := Formula.parseBody_eq_ok_iff.1 hbody
    obtain ⟨hinput', hbodies⟩ := Formula.body_alike halike hinput
    obtain ⟨ts', htokens', hmeanings⟩ := Grammar.exists_tokens_alike htokens hbodies hkeeps
      (fun hg => by cases hg)
    exact Formula.parse_eq_ok_iff.2 ⟨hinput', Formula.parseBody_eq_ok_iff.2 ⟨ts', htokens',
      Formula.ofTokens_sameMeanings hmeanings hread _⟩⟩
  · intro input input' d hparse halike hkeeps hnames
    obtain ⟨ts, htokens, hread⟩ := Definitions.parse_eq_ok_iff.1 hparse
    obtain ⟨ts', htokens', hmeanings⟩ := Grammar.exists_tokens_alike htokens halike hkeeps
      (fun _ => hnames ts htokens)
    exact Definitions.parse_eq_ok_iff.2 ⟨ts', htokens',
      Definitions.ofTokens_sameMeanings hmeanings hread _⟩

theorem Expression.Derivation.exists_name {t : Token} (hkind : t.kind = .identifier) :
    ∃ d : Derivation .expression, d.tokens = [t] := by
  have hname : Derives .primary [t] (.reference t.text) [] := derives_name hkind
  obtain ⟨d, htokens, -, -⟩ := hname.primary.levels Operator.levels
  rw [List.append_nil] at htokens
  exact ⟨d, htokens⟩

/-- A call on a quoted sheet, and a section that defines a function and uses it. -/
theorem parse_recased_names :
    Formula.parse "=sUM($$tRUE, 2.50) ^ -'it''s'!$B$2:C" = .ok Formula.powerOfRange ∧
      ∃ d, Definitions.parse "def F(X) X\nY:=f" = .ok d ∧
        Definitions.parse "def f(x) x\ny:=F" = .ok d := by
  have hformula : Grammar.formula.tokens
      (Formula.body "=Sum($$True, 2.50) ^ -'it''s'!$b$2:c") = .ok [⟨.identifier, "Sum", 0⟩,
        ⟨.opening, "(", 3⟩, ⟨.dollarName, "$$True", 4⟩, ⟨.comma, ",", 10⟩, ⟨.number, "2.50", 12⟩,
        ⟨.closing, ")", 16⟩, ⟨.operator, "^", 18⟩, ⟨.operator, "-", 20⟩,
        ⟨.address, "'it''s'!$b$2:c", 21⟩] := by
    decide +kernel
  have hsection : Grammar.definitions.tokens "def F(X) X\nY:=f".toList = .ok [⟨.define, "def", 0⟩,
      ⟨.identifier, "F", 4⟩, ⟨.opening, "(", 5⟩, ⟨.identifier, "X", 6⟩, ⟨.closing, ")", 7⟩,
      ⟨.identifier, "X", 9⟩, ⟨.identifier, "Y", 11⟩, ⟨.assign, ":=", 12⟩,
      ⟨.identifier, "f", 14⟩] := by
    decide +kernel
  obtain ⟨x, hx⟩ := Expression.Derivation.exists_name (t := ⟨.identifier, "X", 9⟩) rfl
  obtain ⟨f, hf⟩ := Expression.Derivation.exists_name (t := ⟨.identifier, "f", 14⟩) rfl
  have hparse : Definitions.parse "def F(X) X\nY:=f" = .ok (.ofDefinitions
      [.function ⟨.define, "def", 0⟩ ⟨.identifier, "F", 4⟩ ⟨.opening, "(", 5⟩ ⟨.closing, ")", 7⟩
        rfl rfl rfl rfl (some (.last ⟨.identifier, "X", 6⟩ rfl)) x,
      .assignment ⟨.identifier, "Y", 11⟩ ⟨.assign, ":=", 12⟩ rfl rfl f]) := by
    refine Definitions.parse_eq_ok_iff.2 ⟨_, hsection, (Definitions.ofTokens_iff _ _ _).2
      ⟨_, ?_, ?_, ?_, rfl⟩⟩
    · simp [Definitions.Definition.tokens, Definitions.FormalList.tokens, hx, hf]
    · simp [Token.Converts]
    · simp [Definitions.Definition.formals, Definitions.FormalList.names]
  constructor
  · refine parse_recased.1 _ _ _ Formula.parse_powerOfRange (by decide +kernel) fun ts hts => ?_
    cases hformula.symm.trans hts
    decide +kernel
  · refine ⟨_, hparse, parse_recased.2 _ _ _ hparse (by decide +kernel) (fun ts hts => ?_)
      fun ts hts => ?_⟩
    all_goals
      cases hsection.symm.trans hts
      decide +kernel

end Spreadsheet
