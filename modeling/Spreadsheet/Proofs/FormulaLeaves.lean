import Spreadsheet.Address.A1
import Spreadsheet.Proofs.ColumnLetters
import Spreadsheet.Proofs.FormulaTokens
import Spreadsheet.Proofs.NumberText

/-!
The words that numbers, names and plain cells are written as: the first are number tokens, and the
others are identifiers, but for names in which a keyword is found.
-/
namespace Spreadsheet

open Text Scan TokenRule

namespace Text

theorem letter_of_isAlpha {c : Char} (hc : c.isAlpha = true) :
    (65 ≤ c.toNat ∧ c.toNat ≤ 90) ∨ (97 ≤ c.toNat ∧ c.toNat ≤ 122) := by
  cases Bool.or_eq_true_iff.1 hc with
  | inl hupper =>
    obtain ⟨hlow, hhigh⟩ := of_decide_eq_true hupper
    exact .inl ⟨UInt32.le_iff_toNat_le.1 hlow, UInt32.le_iff_toNat_le.1 hhigh⟩
  | inr hlower =>
    obtain ⟨hlow, hhigh⟩ := Bool.and_eq_true_iff.1 hlower
    exact .inr ⟨UInt32.le_iff_toNat_le.1 (of_decide_eq_true hlow),
      UInt32.le_iff_toNat_le.1 (of_decide_eq_true hhigh)⟩

/-- All of ASCII can be checked one by one. -/
theorem forall_ascii {P : Char → Prop} (h : ∀ n < 128, P (Char.ofNat n)) {c : Char}
    (hc : c.toNat < 128) : P c := by
  have hofNat := h c.toNat hc
  rwa [Char.ofNat_toNat] at hofNat

theorem ascii_of_isAlphanum {c : Char} (hc : c.isAlphanum = true) :
    (48 ≤ c.toNat ∧ c.toNat ≤ 57) ∨ (65 ≤ c.toNat ∧ c.toNat ≤ 90) ∨
      (97 ≤ c.toNat ∧ c.toNat ≤ 122) := by
  cases Bool.or_eq_true_iff.1 hc with
  | inl halpha => exact .inr (letter_of_isAlpha halpha)
  | inr hdigit => exact .inl (Char.isDigit_iff_toNat.1 hdigit)

theorem isBlank_of_isAlphanum {c : Char} (hc : c.isAlphanum = true) : isBlank c = false := by
  have hascii := ascii_of_isAlphanum hc
  simp only [isBlank, Bool.or_eq_false_iff, Bool.and_eq_false_iff, decide_eq_false_iff_not,
    beq_eq_false_iff_ne]
  omega

theorem isWordChar_of_isAlphanum {c : Char} (hc : c.isAlphanum = true) : isWordChar c = true := by
  have hascii := ascii_of_isAlphanum hc
  rw [isWordChar, if_pos (by omega), hc, Bool.true_or]

end Text

namespace Scan

theorem atLeastOne_append {p : Char → Bool} {s : List Char} (rest : List Char) (hs : s ≠ [])
    (hall : ∀ c ∈ s, p c = true) (hrest : rest.takeWhile p = []) :
    atLeastOne p (s ++ rest) = some s.length := by
  unfold atLeastOne
  rw [List.takeWhile_append_of_pos hall, hrest, List.append_nil]
  cases s with
  | nil => exact absurd rfl hs
  | cons c s => rfl

theorem atLeastOne_whole {p : Char → Bool} {s : List Char} (hs : s ≠ [])
    (hall : ∀ c ∈ s, p c = true) : atLeastOne p s = some s.length := by
  have happend := atLeastOne_append [] hs hall rfl
  rwa [List.append_nil] at happend

/-- A word in any mixture of cases has none of the characters that are no case of its letters. -/
theorem anyCase_take {w : List Char} {p : Char → Bool}
    (hw : ∀ target ∈ w, ∀ c, isCaseOf target c = true → p c = true) {s : List Char} {n : Nat}
    (h : anyCase w s = some n) : ∀ c ∈ s.take n, p c = true := by
  induction w generalizing s n with
  | nil =>
    cases h
    intro c hc
    cases hc
  | cons target w ih =>
    change andThen (one (isCaseOf target)) (anyCase w) s = some n at h
    cases s with
    | nil => cases h
    | cons d s =>
      by_cases hd : isCaseOf target d = true
      · rw [andThen_of_some (n := 1) _ (by rw [one_cons, if_pos hd]), List.drop_one,
          List.tail_cons] at h
        obtain ⟨m, hm, rfl⟩ := Option.map_eq_some_iff.1 h
        intro c hc
        rw [Nat.add_comm, List.take_succ_cons] at hc
        cases List.mem_cons.1 hc with
        | inl heq => exact heq ▸ hw target List.mem_cons_self d hd
        | inr hmem =>
          exact ih (fun t ht => hw t (List.mem_cons_of_mem target ht)) hm c hmem
      · rw [andThen_of_none _ (by rw [one_cons, if_neg hd])] at h
        cases h

/-- Whatever the scanner matches has a character of the class in it or behind it. -/
def Needs (p : Char → Bool) (scan : Scan) : Prop :=
  ∀ s n, scan s = some n → ∃ c ∈ s, p c = true

theorem needs_one {p q : Char → Bool} (hpq : ∀ c, q c = true → p c = true) : Needs p (one q) := by
  intro s n h
  cases s with
  | nil => cases h
  | cons c s =>
    rw [one_cons] at h
    split at h
    next hc => exact ⟨c, List.mem_cons_self, hpq c hc⟩
    next => cases h

theorem needs_first {p : Char → Bool} {first : Scan} (second : Scan) (h : Needs p first) :
    Needs p (andThen first second) := by
  intro s n hs
  cases hm : first s with
  | none =>
    rw [andThen_of_none _ hm] at hs
    cases hs
  | some m => exact h s m hm

theorem needs_second {p : Char → Bool} (first : Scan) {second : Scan} (h : Needs p second) :
    Needs p (andThen first second) := by
  intro s n hs
  cases hm : first s with
  | none =>
    rw [andThen_of_none _ hm] at hs
    cases hs
  | some m =>
    rw [andThen_of_some _ hm] at hs
    obtain ⟨k, hk, -⟩ := Option.map_eq_some_iff.1 hs
    obtain ⟨c, hc, hp⟩ := h _ k hk
    exact ⟨c, List.mem_of_mem_drop hc, hp⟩

theorem needs_orElse {p : Char → Bool} {first second : Scan} (hfirst : Needs p first)
    (hsecond : Needs p second) : Needs p (orElse first second) := by
  intro s n hs
  cases hm : first s with
  | none =>
    rw [orElse_of_none _ hm] at hs
    exact hsecond s n hs
  | some m => exact hfirst s m hm

theorem needs_never (p : Char → Bool) : Needs p fun _ => none := by
  intro s n hs
  cases hs

end Scan

namespace TokenRule

/-- The characters that tell an address from a number or a name. -/
def isAddressMark (c : Char) : Bool :=
  c == '!' || c == ':' || c == '$'

theorem needs_mark {c : Char} (hc : isAddressMark c = true) : Needs isAddressMark (char c) := by
  apply needs_one
  intro d hd
  rw [eq_of_beq hd]
  exact hc

theorem needs_address : Needs isAddressMark address := by
  have hsheet : Needs isAddressMark behindSheet := needs_first _ (needs_mark (by decide))
  have hrange : Needs isAddressMark (sequence [corner, char ':', corner]) :=
    needs_second _ (needs_first _ (needs_mark (by decide)))
  have hcolumn : Needs isAddressMark (sequence [dollar, letters, optional dollar, digits]) :=
    needs_first _ (needs_mark (by decide))
  have hrow : Needs isAddressMark (sequence [letters, dollar, digits]) :=
    needs_second _ (needs_first _ (needs_mark (by decide)))
  rw [address_eq]
  exact needs_orElse (needs_second _ hsheet)
    (needs_orElse hrange (needs_orElse hcolumn (needs_orElse hrow (needs_never _))))

theorem address_eq_none {s : List Char} (hs : ∀ c ∈ s, isAddressMark c = false) :
    address s = none := by
  cases h : address s with
  | none => rfl
  | some n =>
    obtain ⟨c, hc, hmark⟩ := needs_address s n h
    rw [hs c hc] at hmark
    cases hmark

theorem isAddressMark_of_isAlphanum {c : Char} (hc : c.isAlphanum = true) :
    isAddressMark c = false := by
  simp only [isAddressMark, Bool.or_eq_false_iff, beq_eq_false_iff_ne]
  refine ⟨⟨?_, ?_⟩, ?_⟩ <;> (rintro rfl; revert hc; decide)

/-! ## Numbers -/

theorem number_digits {s : List Char} (rest : List Char) (hs : s ≠ []) (hall : ∀ c ∈ s, c.isDigit = true)
    (hrest : rest.takeWhile Char.isDigit = []) :
    number (s ++ rest) = some (s.length + ((sequence [char '.', digits]) rest).getD 0) := by
  have hscan : digits (s ++ rest) = some s.length := atLeastOne_append rest hs hall hrest
  have hwhole : sequence [digits, optional (sequence [char '.', digits])] (s ++ rest) =
      some (s.length + ((sequence [char '.', digits]) rest).getD 0) := by
    change andThen digits _ (s ++ rest) = _
    rw [andThen_of_some _ hscan, List.drop_left]
    rfl
  exact orElse_of_some _ hwhole

theorem number_decimal {whole fraction text : List Char}
    (h : Number.Decimal whole fraction text) : number text = some text.length := by
  cases h with
  | whole hne hdigits =>
    have hscan := number_digits [] hne hdigits rfl
    rwa [List.append_nil] at hscan
  | point hwhole hfraction hdigits =>
    have hdigits' := List.forall_mem_append.1 hdigits
    have hscan : digits fraction = some fraction.length :=
      atLeastOne_whole hfraction hdigits'.2
    have hpoint : sequence [char '.', digits] ('.' :: fraction) = some (1 + fraction.length) := by
      change andThen (char '.') (andThen digits fun _ => some 0) ('.' :: fraction) = _
      rw [andThen_of_some (n := 1) _ rfl, List.drop_one, List.tail_cons, andThen_of_some _ hscan]
      rfl
    rw [number_digits _ hwhole hdigits'.1 rfl, hpoint, Option.getD_some, List.length_append,
      List.length_cons, Nat.add_comm 1]

theorem decimal_chars {whole fraction text : List Char}
    (h : Number.Decimal whole fraction text) :
    text ≠ [] ∧ ∀ c ∈ text, c.isDigit = true ∨ c = '.' := by
  cases h with
  | whole hne hdigits => exact ⟨hne, fun c hc => .inl (hdigits c hc)⟩
  | point hwhole hfraction hdigits =>
    refine ⟨by simp, fun c hc => ?_⟩
    rw [List.mem_append, List.mem_cons] at hc
    rcases hc with hc | rfl | hc
    · exact .inl (hdigits c (List.mem_append_left _ hc))
    · exact .inr rfl
    · exact .inl (hdigits c (List.mem_append_right _ hc))

/-! ## Names -/

theorem isDigit_of_isAlpha {c : Char} (hc : c.isAlpha = true) : c.isDigit = false := by
  have hletter := letter_of_isAlpha hc
  apply eq_false_of_ne_true
  intro hdigit
  have hbounds : 48 ≤ c.toNat ∧ c.toNat ≤ 57 := Char.isDigit_iff_toNat.1 hdigit
  omega

/-- The characters of a name behind its first one. -/
def isNamePart (c : Char) : Bool :=
  isNameChar c || c == '.'

/-- Whether the text is of the form of a name. -/
def isName : List Char → Bool
  | [] => false
  | c :: rest => isNameStart c && rest.all isNamePart

theorem ascii_of_isNamePart {c : Char} (h : isNamePart c = true) : c.toNat < 128 := by
  simp only [isNamePart, isNameChar, Bool.or_eq_true, beq_iff_eq] at h
  rcases h with (halphanum | rfl) | rfl
  · have hascii := ascii_of_isAlphanum halphanum
    omega
  · decide
  · decide

theorem isNamePart_of_isNameStart {c : Char} (h : isNameStart c = true) : isNamePart c = true := by
  rw [isNameStart, Bool.or_eq_true] at h
  rw [isNamePart, isNameChar, Char.isAlphanum]
  rcases h with halpha | hunderscore
  · simp [halpha]
  · simp [hunderscore]

theorem isNamePart_of_mem {s : List Char} (h : isName s = true) : ∀ c ∈ s, isNamePart c = true := by
  cases s with
  | nil => cases h
  | cons c s =>
    obtain ⟨hfirst, hrest⟩ := Bool.and_eq_true_iff.1 h
    exact List.forall_mem_cons.2
      ⟨isNamePart_of_isNameStart hfirst, List.all_eq_true.1 hrest⟩

theorem ascii_of_isName {s : List Char} (h : isName s = true) : ∀ c ∈ s, c.toNat < 128 :=
  fun c hc => ascii_of_isNamePart (isNamePart_of_mem h c hc)

theorem ne_of_isNameStart {c d : Char} (h : isNameStart c = true) (hd : isNameStart d = false) :
    c ≠ d := by
  rintro rfl
  rw [h] at hd
  cases hd

theorem isDigit_of_isNameStart {c : Char} (h : isNameStart c = true) : c.isDigit = false := by
  rw [isNameStart, Bool.or_eq_true, beq_iff_eq] at h
  rcases h with halpha | rfl
  · exact isDigit_of_isAlpha halpha
  · rfl

theorem number_name {c : Char} (s : List Char) (hc : isNameStart c = true) :
    number (c :: s) = none := by
  have hdigits : digits (c :: s) = none := by
    unfold digits atLeastOne
    rw [List.takeWhile_cons_of_neg (by rw [isDigit_of_isNameStart hc]; decide)]
  have hpoint : char '.' (c :: s) = none := by
    rw [char, one_cons, if_neg (by simpa using ne_of_isNameStart hc (by decide))]
  have hwhole : sequence [digits, optional (sequence [char '.', digits])] (c :: s) = none :=
    andThen_of_none _ hdigits
  have hfraction : sequence [char '.', digits] (c :: s) = none := andThen_of_none _ hpoint
  change orElse _ (orElse _ fun _ => none) (c :: s) = none
  rw [orElse_of_none _ hwhole, orElse_of_none _ hfraction]

theorem dollarName_name {c : Char} (s : List Char) (hc : isNameStart c = true) :
    dollarName (c :: s) = none := by
  apply andThen_of_none
  rw [word, if_neg]
  intro hprefix
  change ('$' == c && ['$'].isPrefixOf s) = true at hprefix
  exact ne_of_isNameStart hc (by decide) (eq_of_beq (Bool.and_eq_true_iff.1 hprefix).1).symm

theorem identifier_cons {c : Char} (s : List Char) (hc : isNameStart c = true) :
    identifier (c :: s) = some ((s.takeWhile isNamePart).length + 1) := by
  change andThen (one isNameStart) _ (c :: s) = _
  rw [andThen_of_some (n := 1) _ (by rw [one_cons, if_pos hc]), List.drop_one, List.tail_cons]
  change some (1 + (s.takeWhile _).length) = _
  rw [Nat.add_comm]
  rfl

theorem isAddressMark_of_isNamePart {c : Char} (hc : isNamePart c = true) :
    isAddressMark c = false :=
  forall_ascii (P := fun c => isNamePart c = true → isAddressMark c = false) (by decide)
    (ascii_of_isNamePart hc) hc

theorem isAlpha_of_isCaseOf {target c : Char} (htarget : target.isAlpha = true)
    (h : isCaseOf target c = true) : c.isAlpha = true ∨ c = 'ſ' := by
  rw [isCaseOf, Bool.or_eq_true, Bool.and_eq_true, beq_iff_eq, beq_iff_eq, beq_iff_eq] at h
  rcases h with hlower | ⟨-, hlong⟩
  · unfold Char.toLower at hlower
    split at hlower
    next hupper =>
      have hcapital : c.isUpper = true := decide_eq_true hupper
      exact .inl (Bool.or_eq_true_iff.2 (.inl hcapital))
    next => exact .inl (hlower ▸ htarget)
  · exact .inr hlong

theorem isDigit_of_isCaseOf {target c : Char} (htarget : target.isAlpha = true)
    (h : isCaseOf target c = true) : c.isDigit = false := by
  rcases isAlpha_of_isCaseOf htarget h with halpha | rfl
  · exact isDigit_of_isAlpha halpha
  · decide

/-- A keyword has no digits and ends where a word ends. -/
theorem boolean_digit {s : List Char} {c : Char} (hc : c ∈ s) (hdigit : c.isDigit = true)
    (hs : ∀ d ∈ s, d.isAlphanum = true) : boolean s = none := by
  have hword {w : List Char} {n : Nat} (hw : w.all Char.isAlpha = true)
      (h : anyCase w s = some n) : andThen wordEnd (fun _ => some 0) (s.drop n) = none := by
    have htake := anyCase_take (p := fun d => !d.isDigit)
      (fun target ht d hd => by rw [isDigit_of_isCaseOf (List.all_eq_true.1 hw target ht) hd]; rfl) h
    rw [← List.take_append_drop n s] at hc
    cases List.mem_append.1 hc with
    | inl hmem =>
      -- the digit cannot be part of the keyword
      have hnone := htake c hmem
      rw [hdigit] at hnone
      cases hnone
    | inr hmem =>
      -- nor can the keyword end in front of it, as a letter or digit follows
      obtain ⟨d, rest, hdrop⟩ := List.exists_cons_of_ne_nil (List.ne_nil_of_mem hmem)
      have hd : d ∈ s := List.mem_of_mem_drop (hdrop ▸ List.mem_cons_self)
      apply andThen_of_none
      rw [hdrop, wordEnd, atWordEnd, isWordChar_of_isAlphanum (hs d hd)]
      rfl
  change andThen (orElse (anyCase "true".toList) (orElse (anyCase "false".toList) fun _ => none))
    (andThen wordEnd fun _ => some 0) s = none
  cases htrue : anyCase "true".toList s with
  | some n => rw [andThen_of_some _ (orElse_of_some _ htrue), hword (by decide) htrue]; rfl
  | none =>
    cases hfalse : anyCase "false".toList s with
    | some n =>
      have hchoice := (orElse_of_none _ htrue).trans (orElse_of_some (fun _ => none) hfalse)
      rw [andThen_of_some _ hchoice, hword (by decide) hfalse]
      rfl
    | none =>
      have hchoice := (orElse_of_none _ htrue).trans (orElse_of_none (fun _ => none) hfalse)
      rw [andThen_of_none _ hchoice]

theorem isAlphanum_lettersDigits {letters digits : List Char}
    (halpha : ∀ c ∈ letters, c.isAlpha = true) (hdigit : ∀ c ∈ digits, c.isDigit = true) :
    ∀ c ∈ letters ++ digits, c.isAlphanum = true := by
  intro c hc
  rw [Char.isAlphanum]
  cases List.mem_append.1 hc with
  | inl hmem => rw [halpha c hmem, Bool.true_or]
  | inr hmem => rw [hdigit c hmem, Bool.or_true]

theorem isName_lettersDigits {letters digits : List Char} (hletters : letters ≠ [])
    (halpha : ∀ c ∈ letters, c.isAlpha = true) (hdigit : ∀ c ∈ digits, c.isDigit = true) :
    isName (letters ++ digits) = true := by
  have hall := isAlphanum_lettersDigits halpha hdigit
  obtain ⟨c, letters, rfl⟩ := List.exists_cons_of_ne_nil hletters
  rw [List.cons_append, isName, isNameStart, halpha c List.mem_cons_self, Bool.true_or,
    Bool.true_and, List.all_eq_true]
  intro d hd
  rw [isNamePart, isNameChar, hall d (List.mem_cons_of_mem c hd), Bool.true_or, Bool.true_or]

theorem boolean_lettersDigits {letters digits : List Char} (hdigits : digits ≠ [])
    (halpha : ∀ c ∈ letters, c.isAlpha = true) (hdigit : ∀ c ∈ digits, c.isDigit = true) :
    boolean (letters ++ digits) = none := by
  have hall := isAlphanum_lettersDigits halpha hdigit
  obtain ⟨d, digits, rfl⟩ := List.exists_cons_of_ne_nil hdigits
  exact boolean_digit (by simp) (hdigit d List.mem_cons_self) hall

end TokenRule

namespace Grammar

theorem readsWhole_decimal {whole fraction text : List Char}
    (h : Number.Decimal whole fraction text) : formula.ReadsWhole .number text := by
  obtain ⟨hne, hchars⟩ := decimal_chars h
  have haddress : address text = none := by
    apply address_eq_none
    intro c hc
    rcases hchars c hc with hdigit | rfl
    · exact isAddressMark_of_isAlphanum (by rw [Char.isAlphanum, hdigit, Bool.or_true])
    · decide
  apply readsWhole_of_firstMatch?
  · obtain ⟨c, rest, rfl⟩ := List.exists_cons_of_ne_nil hne
    rcases hchars c List.mem_cons_self with hdigit | rfl
    · exact congrArg some
        (isBlank_of_isAlphanum (by rw [Char.isAlphanum, hdigit, Bool.or_true]))
    · rfl
  · simp only [firstMatch?, rules, List.cons_append, List.findSome?_cons, haddress,
      number_decimal h, Option.map_none, Option.map_some]

/-- A name makes an identifier unless a keyword is found in it. -/
theorem readsWhole_name {s : List Char} (hname : isName s = true) (hboolean : boolean s = none) :
    formula.ReadsWhole .identifier s := by
  have hparts := isNamePart_of_mem hname
  have haddress : address s = none :=
    address_eq_none fun c hc => isAddressMark_of_isNamePart (hparts c hc)
  cases s with
  | nil => cases hname
  | cons c s =>
    obtain ⟨hc, hs⟩ := Bool.and_eq_true_iff.1 hname
    have htext : quoted '"' (c :: s) = none := by
      rw [quoted_cons, if_neg (ne_of_isNameStart hc (by decide))]
    have hidentifier : identifier (c :: s) = some (s.length + 1) := by
      rw [identifier_cons s hc, List.takeWhile_eq_self_iff.2 (List.all_eq_true.1 hs)]
    have hblank : isBlank c = false :=
      forall_ascii (P := fun c => isNameStart c = true → isBlank c = false) (by decide)
        (ascii_of_isNamePart (hparts c List.mem_cons_self)) hc
    apply readsWhole_of_firstMatch?
    · exact congrArg some hblank
    · simp only [firstMatch?, rules, shared, List.cons_append, List.nil_append, List.findSome?_cons,
      haddress, number_name s hc, htext, hboolean, dollarName_name s hc, hidentifier,
      Option.map_none, Option.map_some, List.length_cons]

/-- Letters, and digits behind them. -/
theorem readsWhole_lettersDigits {letters digits : List Char} (hletters : letters ≠ [])
    (hdigits : digits ≠ []) (halpha : ∀ c ∈ letters, c.isAlpha = true)
    (hdigit : ∀ c ∈ digits, c.isDigit = true) :
    formula.ReadsWhole .identifier (letters ++ digits) :=
  readsWhole_name (isName_lettersDigits hletters halpha hdigit)
    (boolean_lettersDigits hdigits halpha hdigit)

end Grammar

namespace Address

/-- Whether the address is one cell of this sheet, with nothing fixed. -/
def isPlain (a : Address) : Bool :=
  a.sheet.isNone && a.isCell && !a.first.columnFixed && !a.first.rowFixed

theorem renderChars_of_isPlain {a : Address} (h : a.isPlain = true) :
    ∃ column row, a.renderChars = Column.letters column ++ decimal (row + 1) := by
  obtain ⟨sheet, ⟨column, row, columnFixed, rowFixed⟩, last⟩ := a
  simp only [isPlain, isCell, Bool.and_eq_true, Bool.not_eq_true', Option.isNone_iff_eq_none,
    Option.isSome_iff_exists] at h
  obtain ⟨⟨⟨rfl, ⟨⟨c, rfl⟩, r, rfl⟩, hrange⟩, rfl⟩, rfl⟩ := h
  refine ⟨c, r, ?_⟩
  rw [renderChars, hrange]
  exact List.append_nil _

theorem readsWhole_of_isPlain {a : Address} (h : a.isPlain = true) :
    Grammar.formula.ReadsWhole .identifier a.renderChars := by
  obtain ⟨column, row, htext⟩ := renderChars_of_isPlain h
  rw [htext]
  exact Grammar.readsWhole_lettersDigits (Column.letters_ne_nil column) Nat.toDigits_ne_nil
    (fun _ => Column.isAlpha_of_mem_letters) (fun _ => Number.isDigit_of_mem_decimal)

end Address
end Spreadsheet
