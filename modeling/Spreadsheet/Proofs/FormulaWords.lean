import Spreadsheet.Proofs.WordBreaks

/-!
Words of formulas. A text that makes one token alone makes the same token wherever a break follows
it, and the tokens of a text are those of its words, one after another.
-/
namespace Spreadsheet

open Text

namespace Text

/-! ## Quoted texts -/

theorem closing_le_length {q : Char} {s : List Char} {n : Nat} (h : closing q s = some n) :
    n ≤ s.length := by
  fun_induction closing q s generalizing n with
  | case1 => cases h
  | case2 more m hm ih =>
    cases h
    have hle := ih hm
    simp only [List.length_cons]
    omega
  | case3 =>
    cases h
    simp
  | case4 =>
    cases h
    simp
  | case5 =>
    cases h
    simp
  | case6 a rest hne ih =>
    obtain ⟨m, hm, rfl⟩ := Option.map_eq_some_iff.1 h
    have hle := ih hm
    simp only [List.length_cons]
    omega

/-- A closing quote that something else follows closes the text whatever comes later. -/
theorem closing_append {q c : Char} {s : List Char} {n : Nat} (rest : List Char)
    (h : closing q s = some n) (hnext : (s.drop n).head? = some c) (hc : c ≠ q) :
    closing q (s ++ rest) = some n := by
  fun_induction closing q s generalizing n with
  | case1 => cases h
  | case2 more m hm ih =>
    cases h
    have hmore := ih hm hnext
    rw [List.cons_append, List.cons_append, closing]
    simp [hmore]
  | case3 more hm ih =>
    -- two quotes of which the first closes the text: the second is what follows
    cases h
    exact absurd (Option.some.inj hnext).symm hc
  | case4 b more hb =>
    cases h
    rw [List.cons_append, List.cons_append, closing]
    simp [hb]
  | case5 =>
    cases h
    cases hnext
  | case6 a rest' hne ih =>
    obtain ⟨m, hm, rfl⟩ := Option.map_eq_some_iff.1 h
    have hmore := ih hm hnext
    rw [List.cons_append, closing.eq_def]
    simp [hne, hmore]

theorem closing_double (q : Char) (s rest : List Char) (hrest : rest.head? ≠ some q) :
    closing q (double q s ++ q :: rest) = some ((double q s).length + 1) := by
  induction s with
  | nil =>
    cases rest with
    | nil => simp [double, closing]
    | cons c rest =>
      have hc : c ≠ q := by simpa using hrest
      simp [double, closing, hc]
  | cons c s ih =>
    by_cases hc : c = q
    · simp [double, closing, hc, ih]
    · rw [double, if_neg hc, List.cons_append, closing.eq_def]
      simp [hc, ih]

end Text

namespace TokenRule

open Scan

theorem local_char {c : Char} (hc : Unbroken (· == c)) : Local (char c) :=
  local_one hc

theorem local_letters : Local letters :=
  local_atLeastOne (by decide)

theorem local_digits : Local digits :=
  local_atLeastOne (by decide)

theorem local_dollar : Local dollar :=
  local_char (by decide)

theorem local_corner : Local corner := by
  have hrow : Local (sequence [optional dollar, digits]) :=
    local_andThen (local_optional local_dollar) (local_andThen local_digits local_done)
  have hcolumn : Local (sequence [optional dollar, letters,
      optional (sequence [optional dollar, digits])]) :=
    local_andThen (local_optional local_dollar)
      (local_andThen local_letters (local_andThen (local_optional hrow) local_done))
  exact local_orElse hcolumn (local_orElse hrow local_never)

/-- What an address goes on with behind its sheet. -/
def behindSheet : Scan :=
  sequence [char '!', corner, optional (sequence [char ':', corner])]

theorem local_behindSheet : Local behindSheet := by
  have hlast : Local (sequence [char ':', corner]) :=
    local_andThen (local_char (by decide)) (local_andThen local_corner local_done)
  exact local_andThen (local_char (by decide))
    (local_andThen local_corner (local_andThen (local_optional hlast) local_done))

/-- The addresses that have no sheet in front of them. -/
def sheetless : Scan :=
  choice
    [sequence [corner, char ':', corner], sequence [dollar, letters, optional dollar, digits],
      sequence [letters, dollar, digits]]

theorem local_sheetless : Local sheetless := by
  have hrange : Local (sequence [corner, char ':', corner]) :=
    local_andThen local_corner
      (local_andThen (local_char (by decide)) (local_andThen local_corner local_done))
  have hcolumn : Local (sequence [dollar, letters, optional dollar, digits]) :=
    local_andThen local_dollar (local_andThen local_letters
      (local_andThen (local_optional local_dollar) (local_andThen local_digits local_done)))
  have hrow : Local (sequence [letters, dollar, digits]) :=
    local_andThen local_letters
      (local_andThen local_dollar (local_andThen local_digits local_done))
  exact local_orElse hrange (local_orElse hcolumn (local_orElse hrow local_never))

theorem address_eq :
    address = orElse
      (andThen (orElse quotedSheet (orElse (atLeastOne isNameChar) fun _ => none)) behindSheet)
      sheetless :=
  rfl

theorem quotedSheet_eq_none {s : List Char} (hs : s.head? ≠ some '\'') :
    quotedSheet s = none := by
  cases s with
  | nil => rfl
  | cons c s =>
    have hc : c ≠ '\'' := by simpa using hs
    unfold quotedSheet
    rw [quoted_cons, if_neg hc]

theorem address_eq_unquoted {s : List Char} (hs : s.head? ≠ some '\'') :
    address s = orElse (andThen (atLeastOne isNameChar) behindSheet) sheetless s := by
  have hname : orElse quotedSheet (orElse (atLeastOne isNameChar) fun _ => none) s =
      atLeastOne isNameChar s := by
    rw [orElse_of_none _ (quotedSheet_eq_none hs)]
    cases hfound : atLeastOne isNameChar s with
    | none => exact orElse_of_none _ hfound
    | some n => exact orElse_of_some _ hfound
  rw [address_eq]
  exact orElse_congr _ (andThen_congr _ hname)

theorem address_append {s rest : List Char} (hs : s.head? ≠ some '\'') (hrest : AtBreak rest) :
    address (s ++ rest) = address s := by
  have hname : Local (atLeastOne isNameChar) := local_atLeastOne (by decide)
  have hlocal := local_orElse (local_andThen hname local_behindSheet) local_sheetless
  have hhead : (s ++ rest).head? ≠ some '\'' := by
    cases s with
    | cons c s => exact hs
    | nil =>
      intro hquote
      have hbreak := hrest '\'' hquote
      exact absurd hbreak (by decide)
  rw [address_eq_unquoted hs, address_eq_unquoted hhead, hlocal.append hrest]

theorem quotedSheet_quote (s : List Char) :
    quotedSheet ('\'' :: s) = ((closing '\'' s).map (· + 1)).filter (2 < ·) := by
  unfold quotedSheet
  rw [quoted_cons, if_pos rfl]
  cases closing '\'' s with
  | none => rfl
  | some n => simp [Option.filter]

theorem bounded_quoted (q : Char) : Bounded (quoted q) := by
  intro s n h
  cases s with
  | nil => cases h
  | cons c s =>
    rw [quoted_cons] at h
    split at h
    · obtain ⟨m, hm, rfl⟩ := Option.map_eq_some_iff.1 h
      have hle := closing_le_length hm
      rw [List.length_cons]
      omega
    · cases h

theorem bounded_quotedSheet : Bounded quotedSheet := by
  intro s n h
  unfold quotedSheet at h
  split at h
  · rename_i m hm
    split at h
    · cases h
      exact bounded_quoted _ _ _ hm
    · cases h
  · cases h

theorem bounded_address : Bounded address := by
  have hname : Local (atLeastOne isNameChar) := local_atLeastOne (by decide)
  have hsheet := bounded_orElse bounded_quotedSheet
    (bounded_orElse hname.bounded local_never.bounded)
  rw [address_eq]
  exact bounded_orElse (bounded_andThen hsheet local_behindSheet.bounded) local_sheetless.bounded

theorem behindSheet_head {s : List Char} {n : Nat} (h : behindSheet s = some n) :
    s.head? = some '!' := by
  cases s with
  | nil => cases h
  | cons c s =>
    by_cases hc : c = '!'
    · rw [hc, List.head?_cons]
    · have hnone : char '!' (c :: s) = none := if_neg (by simpa using hc)
      unfold behindSheet at h
      rw [show sequence [char '!', corner, optional (sequence [char ':', corner])] =
        andThen (char '!') (sequence [corner, optional (sequence [char ':', corner])]) from rfl,
        andThen_of_none _ hnone] at h
      cases h

/-- A sheet name in quotes is followed by a `!`, so that its closing quote cannot be taken for
half of a doubled one. -/
theorem address_quote_append {s rest : List Char} {n : Nat} (h : address ('\'' :: s) = some n)
    (hrest : AtBreak rest) : address ('\'' :: (s ++ rest)) = some n := by
  have hname (t : List Char) : orElse (atLeastOne isNameChar) (fun _ => none) ('\'' :: t) = none :=
    rfl
  have hsheetless (t : List Char) : sheetless ('\'' :: t) = none := rfl
  -- the only way to match is a sheet in quotes and what goes on behind it
  obtain ⟨m, hsheet⟩ : ∃ m, quotedSheet ('\'' :: s) = some m := by
    apply Option.ne_none_iff_exists'.1
    intro hnone
    have hboth := (orElse_of_none (orElse (atLeastOne isNameChar) fun _ => none) hnone).trans
      (hname s)
    rw [address_eq, orElse_of_none _ (andThen_of_none _ hboth), hsheetless] at h
    cases h
  have hfound := orElse_of_some (orElse (atLeastOne isNameChar) fun _ => none) hsheet
  obtain ⟨k, hbehind⟩ : ∃ k, behindSheet (('\'' :: s).drop m) = some k := by
    apply Option.ne_none_iff_exists'.1
    intro hnone
    have hall := andThen_of_some behindSheet hfound
    rw [hnone, Option.map_none] at hall
    rw [address_eq, orElse_of_none _ hall, hsheetless] at h
    cases h
  have hn : n = m + k := by
    have hall := andThen_of_some behindSheet hfound
    rw [hbehind, Option.map_some] at hall
    rw [address_eq, orElse_of_some _ hall] at h
    exact (Option.some.inj h).symm
  -- the closing quote is where it was
  have hlength := bounded_quotedSheet _ _ hsheet
  rw [quotedSheet_quote, Option.filter_eq_some_iff] at hsheet
  obtain ⟨hclose, hlong⟩ := hsheet
  obtain ⟨i, hi, rfl⟩ := Option.map_eq_some_iff.1 hclose
  have hclose' := closing_append rest hi (behindSheet_head hbehind) (by decide)
  have hsheet' : quotedSheet ('\'' :: (s ++ rest)) = some (i + 1) := by
    rw [quotedSheet_quote, hclose', Option.map_some, Option.filter_eq_some_iff]
    exact ⟨rfl, hlong⟩
  have hfound' := orElse_of_some (orElse (atLeastOne isNameChar) fun _ => none) hsheet'
  have hall := andThen_of_some behindSheet hfound'
  rw [← List.cons_append, List.drop_append_of_le_length hlength,
    local_behindSheet.append hrest, hbehind, Option.map_some] at hall
  rw [address_eq, hn]
  exact orElse_of_some _ hall

theorem local_number : Local number := by
  have hfraction : Local (sequence [char '.', digits]) :=
    local_andThen (local_char (by decide)) (local_andThen local_digits local_done)
  have hwhole : Local (sequence [digits, optional (sequence [char '.', digits])]) :=
    local_andThen local_digits (local_andThen (local_optional hfraction) local_done)
  exact local_orElse hwhole (local_orElse hfraction local_never)

theorem local_anyCase {w : List Char}
    (hw : (w.all fun target => decide (Unbroken (isCaseOf target))) = true) :
    Local (anyCase w) := by
  apply local_sequence
  intro scan hscan
  obtain ⟨target, htarget, rfl⟩ := List.mem_map.1 hscan
  exact local_one (of_decide_eq_true (List.all_eq_true.1 hw target htarget))

theorem local_boolean : Local boolean := by
  have hword : Local (choice [anyCase "true".toList, anyCase "false".toList]) :=
    local_orElse (local_anyCase (by decide))
      (local_orElse (local_anyCase (by decide)) local_never)
  exact local_andThen hword (local_andThen local_wordEnd local_done)

theorem local_dollarName : Local dollarName :=
  local_andThen (local_word (by decide))
    (local_andThen (local_one (by decide)) (local_andThen (local_many (by decide)) local_done))

theorem local_identifier : Local identifier :=
  local_andThen (local_one (by decide)) (local_andThen (local_many (by decide)) local_done)

theorem local_operator : Local operator :=
  local_orElse (local_word (by decide)) (local_orElse (local_word (by decide))
    (local_orElse (local_word (by decide)) (local_orElse (local_one (by decide)) local_never)))

theorem bounded_formula {rule : TokenRule} (hrule : rule ∈ Grammar.formula.rules) :
    Bounded rule.scan := by
  simp only [Grammar.rules, shared, List.cons_append, List.nil_append, List.mem_cons,
    List.not_mem_nil, or_false] at hrule
  rcases hrule with rfl | rfl | rfl | rfl | rfl | rfl | rfl | rfl | rfl | rfl
  · exact bounded_address
  · exact local_number.bounded
  · exact bounded_quoted '"'
  · exact local_boolean.bounded
  · exact local_dollarName.bounded
  · exact local_identifier.bounded
  · exact bounded_one _
  · exact bounded_one _
  · exact bounded_one _
  · exact local_operator.bounded

end TokenRule

namespace Grammar

open Scan TokenRule

/-! ## First matches -/

theorem rule_of_firstMatch? {g : Grammar} {s : List Char} {kind : Option TokenKind} {n : Nat}
    (h : g.firstMatch? s = some (kind, n)) :
    ∃ rule ∈ g.rules, rule.kind = kind ∧ rule.scan s = some n := by
  obtain ⟨rule, hrule, hmatch⟩ := List.exists_of_findSome?_eq_some h
  obtain ⟨m, hm, heq⟩ := Option.map_eq_some_iff.1 hmatch
  cases heq
  exact ⟨rule, hrule, rfl, hm⟩

/-- What is found first in a formula's word is found first wherever a break follows the word. -/
theorem firstMatch?_append {s rest : List Char} (hs : s ≠ []) (hquote : s.head? ≠ some '"')
    (hsheet : s.head? ≠ some '\'') (hrest : AtBreak rest) :
    formula.firstMatch? (s ++ rest) = formula.firstMatch? s := by
  have htext : quoted '"' (s ++ rest) = quoted '"' s := by
    cases s with
    | nil => exact absurd rfl hs
    | cons c s =>
      have hc : c ≠ '"' := by simpa using hquote
      rw [List.cons_append, quoted_cons, quoted_cons, if_neg hc, if_neg hc]
  have hchar (d : Char) : char d (s ++ rest) = char d s := by
    cases s with
    | nil => exact absurd rfl hs
    | cons c s => rfl
  simp only [firstMatch?, rules, shared, List.cons_append, List.nil_append, List.findSome?_cons,
    List.findSome?_nil, address_append hsheet hrest, local_number.append hrest, htext,
    local_boolean.append hrest, local_dollarName.append hrest, local_identifier.append hrest,
    hchar, local_operator.append hrest]

theorem firstMatch?_quote (s : List Char) :
    formula.firstMatch? ('"' :: s) = (closing '"' s).map fun n => (some .text, n + 1) := by
  have haddress : address ('"' :: s) = none := rfl
  have hnumber : number ('"' :: s) = none := rfl
  have hothers : shared.findSome? (fun rule => (rule.scan ('"' :: s)).map fun n => (rule.kind, n)) =
      none := rfl
  have hboolean : boolean ('"' :: s) = none := rfl
  simp only [firstMatch?, rules, List.findSome?_append, List.findSome?_cons, List.findSome?_nil,
    haddress, hnumber, hboolean, hothers, quoted_cons, Option.map_none, if_true]
  cases closing '"' s <;> rfl

theorem firstMatch?_sheet (s : List Char) :
    formula.firstMatch? ('\'' :: s) = (address ('\'' :: s)).map fun n => (some .address, n) := by
  have hnumber : number ('\'' :: s) = none := rfl
  have htext : quoted '"' ('\'' :: s) = none := rfl
  have hboolean : boolean ('\'' :: s) = none := rfl
  have hothers : shared.findSome? (fun rule => (rule.scan ('\'' :: s)).map fun n => (rule.kind, n)) =
      none := rfl
  simp only [firstMatch?, rules, List.findSome?_append, List.findSome?_cons, List.findSome?_nil,
    hnumber, htext, hboolean, hothers, Option.map_none]
  cases address ('\'' :: s) <;> rfl

/-- A word that is not a quoted text makes the same token in front of every break. -/
theorem firstMatch?_word {s rest : List Char} {kind : TokenKind} (hkind : kind ≠ .text)
    (h : formula.firstMatch? s = some (some kind, s.length)) (hs : s ≠ [])
    (hrest : AtBreak rest) : formula.firstMatch? (s ++ rest) = some (some kind, s.length) := by
  by_cases hquote : s.head? = some '"'
  · obtain ⟨t, rfl⟩ := List.head?_eq_some_iff.1 hquote
    rw [firstMatch?_quote] at h
    obtain ⟨n, -, heq⟩ := Option.map_eq_some_iff.1 h
    cases heq
    exact absurd rfl hkind
  · by_cases hsheet : s.head? = some '\''
    · obtain ⟨t, rfl⟩ := List.head?_eq_some_iff.1 hsheet
      rw [firstMatch?_sheet] at h
      obtain ⟨n, hn, heq⟩ := Option.map_eq_some_iff.1 h
      rw [List.cons_append, firstMatch?_sheet, address_quote_append hn hrest, Option.map_some]
      exact congrArg some heq
    · rw [firstMatch?_append hs hquote hsheet hrest]
      exact h

theorem firstMatch?_text (s : List Char) {rest : List Char} (hrest : AtBreak rest) :
    formula.firstMatch? (enclose '"' s ++ rest) = some (some .text, (enclose '"' s).length) := by
  have hhead : rest.head? ≠ some '"' := by
    intro hquote
    exact absurd (hrest '"' hquote) (by decide)
  have hclosing := closing_double '"' s rest hhead
  rw [enclose, List.cons_append, List.cons_append, List.append_assoc, List.singleton_append,
    firstMatch?_quote, hclosing, Option.map_some, List.length_cons, List.length_append]
  rfl

end Grammar
end Spreadsheet
