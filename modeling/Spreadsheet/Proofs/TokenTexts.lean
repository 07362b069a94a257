import Spreadsheet.Proofs.WrittenAddresses

/-!
The texts of tokens. A scanner takes texts of a certain form from the front of what it is given,
and the forms of composed scanners are composed in the same way. Main statement: the text of an
address token is a written address, told from a name by a sheet, a second corner or a marker. A
sheet without quotes has name characters only.
-/
namespace Spreadsheet

open Text

namespace Text

/-- Up to the closing quote, a quoted text is one with its quotes doubled. -/
theorem exists_of_closing {q : Char} {s : List Char} {n : Nat} (h : closing q s = some n) :
    ∃ said, s.take n = double q said ++ [q] := by
  fun_induction closing q s generalizing n with
  | case1 => cases h
  | case2 more m hm ih =>
    cases h
    obtain ⟨said, hsaid⟩ := ih hm
    refine ⟨q :: said, ?_⟩
    rw [List.take_succ_cons, List.take_succ_cons, hsaid, double, if_pos rfl]
    rfl
  | case3 more hm ih =>
    cases h
    exact ⟨[], rfl⟩
  | case4 b more hb =>
    cases h
    exact ⟨[], rfl⟩
  | case5 =>
    cases h
    exact ⟨[], rfl⟩
  | case6 a rest hne ih =>
    obtain ⟨m, hm, rfl⟩ := Option.map_eq_some_iff.1 h
    obtain ⟨said, hsaid⟩ := ih hm
    refine ⟨a :: said, ?_⟩
    rw [List.take_succ_cons, hsaid, double, if_neg hne]
    rfl

end Text

namespace Scan

/-- Whatever the scanner takes from the front of a text is of the given form. -/
def Takes (P : List Char → Prop) (scan : Scan) : Prop :=
  ∀ s n, scan s = some n → P (s.take n)

variable {P Q : List Char → Prop} {first second scan : Scan}

theorem Takes.mono (h : Takes P scan) (himp : ∀ w, P w → Q w) : Takes Q scan :=
  fun s n hs => himp _ (h s n hs)

theorem takes_done : Takes (· = []) fun _ => some 0 := by
  intro s n h
  cases h
  rfl

theorem takes_never : Takes P fun _ => none := by
  intro s n h
  cases h

theorem takes_one (p : Char → Bool) : Takes (fun w => ∃ c, p c = true ∧ w = [c]) (one p) := by
  intro s n h
  cases s with
  | nil => cases h
  | cons c s =>
    rw [one_cons] at h
    split at h
    next hc =>
      cases h
      exact ⟨c, hc, rfl⟩
    next => cases h

theorem takes_char (c : Char) : Takes (· = [c]) (char c) := by
  refine (takes_one _).mono ?_
  rintro w ⟨d, hd, rfl⟩
  rw [eq_of_beq hd]

theorem take_takeWhile (p : Char → Bool) (s : List Char) :
    s.take (s.takeWhile p).length = s.takeWhile p :=
  (List.prefix_iff_eq_take.1 (List.takeWhile_prefix p)).symm

theorem takes_many (p : Char → Bool) : Takes (fun w => ∀ c ∈ w, p c = true) (many p) := by
  intro s n h
  cases h
  rw [take_takeWhile]
  exact fun c hc => List.mem_takeWhile_imp hc

theorem takes_atLeastOne (p : Char → Bool) :
    Takes (fun w => w ≠ [] ∧ ∀ c ∈ w, p c = true) (atLeastOne p) := by
  intro s n h
  unfold atLeastOne at h
  split at h
  next => cases h
  next hne =>
    cases h
    rw [take_takeWhile]
    exact ⟨hne, fun c hc => List.mem_takeWhile_imp hc⟩

theorem takes_word (w : List Char) : Takes (· = w) (word w) := by
  intro s n h
  unfold word at h
  split at h
  next hstart =>
    cases h
    exact (List.prefix_iff_eq_take.1 (List.isPrefixOf_iff_prefix.1 hstart)).symm
  next => cases h

theorem Takes.andThen (hfirst : Takes P first) (hsecond : Takes Q second) :
    Takes (fun w => ∃ u v, P u ∧ Q v ∧ w = u ++ v) (andThen first second) := by
  intro s n h
  cases hm : first s with
  | none =>
    rw [andThen_of_none _ hm] at h
    cases h
  | some m =>
    rw [andThen_of_some _ hm] at h
    obtain ⟨k, hk, rfl⟩ := Option.map_eq_some_iff.1 h
    exact ⟨s.take m, (s.drop m).take k, hfirst s m hm, hsecond _ k hk, List.take_add⟩

/-- The last scanner of a sequence. -/
theorem Takes.last (h : Takes P scan) : Takes P (Scan.andThen scan fun _ => some 0) := by
  refine (h.andThen takes_done).mono ?_
  rintro w ⟨u, v, hu, rfl, rfl⟩
  rwa [List.append_nil]

theorem Takes.orElse (hfirst : Takes P first) (hsecond : Takes P second) :
    Takes P (orElse first second) := by
  intro s n h
  cases hm : first s with
  | none =>
    rw [orElse_of_none _ hm] at h
    exact hsecond s n h
  | some m =>
    rw [orElse_of_some _ hm] at h
    rw [← Option.some.inj h]
    exact hfirst s m hm

theorem Takes.optional (h : Takes P scan) : Takes (fun w => P w ∨ w = []) (optional scan) := by
  intro s n hn
  cases hn
  cases hm : scan s with
  | none => exact .inr rfl
  | some m => exact .inl (h s m hm)

end Scan

namespace TokenRule

open Scan

/-! ## Addresses -/

theorem takes_dollar : Takes (· = Corner.marker true) dollar :=
  takes_char '$'

theorem takes_marker : Takes (fun w => ∃ fixed, w = Corner.marker fixed) (optional dollar) := by
  refine takes_dollar.optional.mono ?_
  rintro w (rfl | rfl)
  · exact ⟨true, rfl⟩
  · exact ⟨false, rfl⟩

theorem takes_row : Takes (fun w => ∃ fixed digits, digits ≠ [] ∧
    (∀ c ∈ digits, c.isDigit = true) ∧ w = Corner.marker fixed ++ digits)
    (sequence [optional dollar, digits]) := by
  refine (takes_marker.andThen (takes_atLeastOne Char.isDigit).last).mono ?_
  rintro w ⟨u, digits, ⟨fixed, rfl⟩, ⟨hne, hdigits⟩, rfl⟩
  exact ⟨fixed, digits, hne, hdigits, rfl⟩

theorem takes_corner : Takes (fun w => ∃ t : CornerText,
    (t.letters ≠ [] ∨ t.digits ≠ []) ∧ w = t.chars) corner := by
  have hcolumn := takes_marker.andThen
    ((takes_atLeastOne Char.isAlpha).andThen takes_row.optional.last)
  refine Takes.orElse ?_ ?_
  · refine hcolumn.mono ?_
    rintro w ⟨u, v, ⟨fixed, rfl⟩, ⟨letters, behind, ⟨hne, halpha⟩, hrow, rfl⟩, rfl⟩
    rcases hrow with ⟨rowFixed, digits, hdigits, hdigit, rfl⟩ | rfl
    · exact ⟨⟨fixed, letters, rowFixed, digits, halpha, hdigit, fun h => absurd h hne,
        fun h => absurd h hdigits⟩, .inl hne, rfl⟩
    · exact ⟨⟨fixed, letters, false, [], halpha, List.forall_mem_nil _, fun h => absurd h hne,
        fun _ => rfl⟩, .inl hne, rfl⟩
  · refine Takes.orElse ?_ takes_never
    refine takes_row.mono ?_
    rintro w ⟨fixed, digits, hne, hdigits, rfl⟩
    exact ⟨⟨false, [], fixed, digits, List.forall_mem_nil _, hdigits, fun _ => rfl,
      fun h => absurd h hne⟩, .inr hne, rfl⟩

theorem takes_quotedSheet :
    Takes (fun w => ∃ name, name ≠ [] ∧ w = enclose '\'' name) quotedSheet := by
  intro s n h
  cases s with
  | nil => cases h
  | cons c s =>
    by_cases hc : c = '\''
    · rw [hc, quotedSheet_quote, Option.filter_eq_some_iff] at h
      obtain ⟨hclosing, hlong⟩ := h
      obtain ⟨m, hm, rfl⟩ := Option.map_eq_some_iff.1 hclosing
      obtain ⟨name, hname⟩ := exists_of_closing hm
      have hle := closing_le_length hm
      rw [hc, List.take_succ_cons, hname]
      refine ⟨name, ?_, rfl⟩
      rintro rfl
      -- two quotes are not long enough
      have hlength := congrArg List.length hname
      rw [List.length_take, Nat.min_eq_left hle] at hlength
      simp only [double, List.nil_append, List.length_singleton] at hlength
      rw [hlength] at hlong
      exact absurd hlong (by decide)
    · rw [quotedSheet_eq_none (by simpa using hc)] at h
      cases h

end TokenRule

/-- Whether a name that is not in quotes has name characters only. -/
def SheetText.IsSpelled : SheetText → Prop
  | .plain name _ _ => ∀ c ∈ name, TokenRule.isNameChar c = true
  | _ => True

/-- Whether the text can be nothing but an address: it has a sheet, a second corner, or a marker
in front of one of two axes. -/
def AddressText.IsMarked (t : AddressText) : Prop :=
  t.sheet.sheet.isSome = true ∨ t.last.isSome = true ∨
    (t.first.letters ≠ [] ∧ t.first.digits ≠ [] ∧
      (t.first.columnFixed = true ∨ t.first.rowFixed = true))

namespace TokenRule

open Scan

theorem takes_behindSheet : Takes (fun w => ∃ (first : CornerText) (last : Option CornerText),
    (first.letters ≠ [] ∨ first.digits ≠ []) ∧
    (∀ corner ∈ last, corner.letters ≠ [] ∨ corner.digits ≠ []) ∧
    w = '!' :: (first.chars ++ match last with
      | some corner => ':' :: corner.chars
      | none => [])) behindSheet := by
  have hlast := ((takes_char ':').andThen takes_corner.last).optional
  refine ((takes_char '!').andThen (takes_corner.andThen hlast.last)).mono ?_
  rintro w ⟨u, v, rfl, ⟨-, behind, ⟨first, hfirst, rfl⟩, hbehind, rfl⟩, rfl⟩
  rcases hbehind with ⟨-, -, rfl, ⟨last, hne, rfl⟩, rfl⟩ | rfl
  · refine ⟨first, some last, hfirst, ?_, rfl⟩
    rintro corner ⟨⟩
    exact hne
  · refine ⟨first, none, hfirst, ?_, rfl⟩
    intro corner hnone
    cases hnone

theorem takes_sheet :
    Takes (fun w => ∃ t : SheetText, t.sheet.isSome = true ∧ t.IsSpelled ∧ w ++ ['!'] = t.chars)
      (choice [quotedSheet, atLeastOne isNameChar]) := by
  refine Takes.orElse ?_ ?_
  · refine takes_quotedSheet.mono ?_
    rintro w ⟨name, hne, rfl⟩
    exact ⟨.quoted name hne, rfl, trivial, rfl⟩
  · refine Takes.orElse ?_ takes_never
    refine (takes_atLeastOne isNameChar).mono ?_
    rintro w ⟨hne, hname⟩
    refine ⟨.plain w hne fun c hc => ?_, rfl, hname, rfl⟩
    have hc := hname c hc
    unfold isNameChar at hc
    rw [Address.isPlainSheetChar, hc, Bool.true_or]

theorem takes_sheetless :
    Takes (fun w => ∃ t : AddressText, t.IsMarked ∧ t.sheet.IsSpelled ∧ w = t.chars)
      sheetless := by
  have hrange := takes_corner.andThen ((takes_char ':').andThen takes_corner.last)
  have hletters := takes_atLeastOne Char.isAlpha
  have hdigits := takes_atLeastOne Char.isDigit
  have hcolumn := takes_dollar.andThen (hletters.andThen (takes_marker.andThen hdigits.last))
  have hrow := hletters.andThen (takes_dollar.andThen hdigits.last)
  refine Takes.orElse (hrange.mono ?_) (Takes.orElse (hcolumn.mono ?_)
    (Takes.orElse (hrow.mono ?_) takes_never))
  · rintro w ⟨-, -, ⟨first, hfirst, rfl⟩, ⟨-, -, rfl, ⟨last, hlast, rfl⟩, rfl⟩, rfl⟩
    refine ⟨⟨.here, first, some last, hfirst, ?_⟩, .inr (.inl rfl), trivial, rfl⟩
    rintro corner ⟨⟩
    exact hlast
  · rintro w ⟨-, -, rfl, ⟨letters, -, ⟨hne, halpha⟩, ⟨-, digits, ⟨fixed, rfl⟩, ⟨hne', hdigit⟩, rfl⟩,
      rfl⟩, rfl⟩
    refine ⟨⟨.here, ⟨true, letters, fixed, digits, halpha, hdigit, fun h => absurd h hne,
      fun h => absurd h hne'⟩, none, .inl hne, ?_⟩, .inr (.inr ⟨hne, hne', .inl rfl⟩), trivial, ?_⟩
    · intro corner hnone
      cases hnone
    · exact (List.append_nil _).symm
  · rintro w ⟨letters, -, ⟨hne, halpha⟩, ⟨-, digits, rfl, ⟨hne', hdigit⟩, rfl⟩, rfl⟩
    refine ⟨⟨.here, ⟨false, letters, true, digits, halpha, hdigit, fun h => absurd h hne,
      fun h => absurd h hne'⟩, none, .inl hne, ?_⟩, .inr (.inr ⟨hne, hne', .inr rfl⟩), trivial, ?_⟩
    · intro corner hnone
      cases hnone
    · exact (List.append_nil _).symm

/-- The text of an address token is a written address that cannot be a name. -/
theorem takes_address :
    Takes (fun w => ∃ t : AddressText, t.IsMarked ∧ t.sheet.IsSpelled ∧ w = t.chars)
      address := by
  rw [address_eq]
  refine Takes.orElse ?_ takes_sheetless
  refine (Takes.andThen takes_sheet takes_behindSheet).mono ?_
  rintro w ⟨u, v, ⟨sheet, hsome, hspelled, hsheet⟩, ⟨first, last, hfirst, hlast, rfl⟩, rfl⟩
  refine ⟨⟨sheet, first, last, hfirst, hlast⟩, .inl hsome, hspelled, ?_⟩
  rw [AddressText.chars, ← hsheet, List.append_assoc]
  rfl

end TokenRule

/-- The scanner that finds the tokens of a kind. -/
def TokenKind.scan : TokenKind → Scan
  | .number => TokenRule.number
  | .text => Scan.quoted '"'
  | .boolean => TokenRule.boolean
  | .date => TokenRule.date
  | .address => TokenRule.address
  | .dollarName => TokenRule.dollarName
  | .identifier => TokenRule.identifier
  | .define => TokenRule.define
  | .assign => TokenRule.assign
  | .operator => TokenRule.operator
  | .opening => Scan.char '('
  | .closing => Scan.char ')'
  | .comma => Scan.char ','
  | .finish => fun _ => none

namespace Grammar

/-! ## Tokens of a text -/

theorem tokensFrom_drop {g : Grammar} {offset passed : Nat} {s : List Char} {ts : List Token}
    (h : g.tokensFrom offset passed s = .ok ts) :
    ∃ offset', g.tokensFrom offset' 0 (s.drop passed) = .ok ts := by
  induction s generalizing offset passed with
  | nil =>
    rw [List.drop_nil]
    exact ⟨offset, h⟩
  | cons c s ih =>
    cases passed with
    | zero => exact ⟨offset, h⟩
    | succ n => exact ih h

/-- Every token is what is found first at its place, and the text behind it has tokens again. -/
theorem exists_of_mem_tokensFrom {g : Grammar} {offset passed : Nat} {s : List Char}
    {ts : List Token} (h : g.tokensFrom offset passed s = .ok ts) :
    ∀ t ∈ ts, ∃ (w : List Char) (n offset' : Nat) (ts' : List Token),
      g.firstMatch? w = some (some t.kind, n) ∧ t.text = String.ofList (w.take n) ∧
        g.tokensFrom offset' 0 (w.drop n) = .ok ts' := by
  fun_induction tokensFrom g offset passed s generalizing ts with
  | case1 =>
    cases h
    exact List.forall_mem_nil _
  | case2 => rename_i ih; exact ih h
  | case3 => rename_i ih; exact ih h
  | case4 => rename_i ih; exact ih h
  | case5 =>
    rename_i hmatch tokens htokens ih
    cases h
    intro t ht
    cases List.mem_cons.1 ht with
    | inl heq =>
      obtain ⟨offset', hbehind⟩ := tokensFrom_drop htokens
      rw [heq]
      exact ⟨_, _, offset', tokens, hmatch, rfl, hbehind⟩
    | inr hmem => exact ih htokens t hmem
  | case6 => cases h
  | case7 => cases h

/-- The two grammars have the same rule for a kind of token. -/
theorem scan_of_firstMatch? {g : Grammar} {s : List Char} {kind : TokenKind} {n : Nat}
    (h : g.firstMatch? s = some (some kind, n)) : kind.scan s = some n := by
  obtain ⟨rule, hrule, hkind, hscan⟩ := rule_of_firstMatch? h
  have hsame : rule.scan = kind.scan := by
    cases g with
    | definitions =>
      simp only [rules, TokenRule.shared, List.cons_append, List.nil_append, List.mem_cons,
        List.not_mem_nil, or_false] at hrule
      rcases hrule with rfl | rfl | rfl | rfl | rfl | rfl | rfl | rfl | rfl | rfl | rfl | rfl |
        rfl | rfl <;> cases hkind <;> rfl
    | formula =>
      simp only [rules, TokenRule.shared, List.cons_append, List.nil_append, List.mem_cons,
        List.not_mem_nil, or_false] at hrule
      rcases hrule with rfl | rfl | rfl | rfl | rfl | rfl | rfl | rfl | rfl | rfl <;>
        cases hkind <;> rfl
  rwa [← hsame]

/-- The text of a token is of the form that the scanner of its kind takes. -/
theorem text_of_mem_tokensFrom {g : Grammar} {offset passed : Nat} {s : List Char}
    {ts : List Token} (h : g.tokensFrom offset passed s = .ok ts) {t : Token} (ht : t ∈ ts)
    {P : List Char → Prop} (htakes : Scan.Takes P t.kind.scan) : P t.text.toList := by
  obtain ⟨w, n, -, -, hmatch, htext, -⟩ := exists_of_mem_tokensFrom h t ht
  rw [htext, String.toList_ofList]
  exact htakes w n (scan_of_firstMatch? hmatch)

end Grammar
end Spreadsheet
