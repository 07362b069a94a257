import Mathlib.Data.List.Induction
import Spreadsheet.Formula.Render
import Spreadsheet.Proofs.NameTokens

/-!
How names are written. A name that spells a column or a cell is written as that address, in
capitals, and any other name as it is. Main statements: what is written is a name again, no keyword
is found in it if none is in the name, and it is written as it is when it is read again.
-/
namespace Spreadsheet

open Text

namespace Text

theorem ascii_of_isAlpha {c : Char} (hc : c.isAlpha = true) : c.toNat < 128 := by
  have hletter := letter_of_isAlpha hc
  omega

theorem isAlpha_toLower {c : Char} (hc : c.isAlpha = true) : c.toLower.isAlpha = true :=
  forall_ascii (P := fun c => c.isAlpha = true → c.toLower.isAlpha = true) (by decide)
    (ascii_of_isAlpha hc) hc

theorem isAlpha_toUpper {c : Char} (hc : c.isAlpha = true) : c.toUpper.isAlpha = true :=
  forall_ascii (P := fun c => c.isAlpha = true → c.toUpper.isAlpha = true) (by decide)
    (ascii_of_isAlpha hc) hc

theorem toLower_of_isDigit {c : Char} (hc : c.isDigit = true) : c.toLower = c := by
  have hbounds : 48 ≤ c.toNat ∧ c.toNat ≤ 57 := Char.isDigit_iff_toNat.1 hc
  exact forall_ascii (P := fun c => c.isDigit = true → c.toLower = c) (by decide) (by omega) hc

end Text

namespace Column

theorem letter_letterValue {c : Char} (hc : c.isAlpha = true) :
    0 < letterValue c ∧ letterValue c ≤ 26 ∧ letter (letterValue c - 1) = c.toUpper :=
  forall_ascii (P := fun c => c.isAlpha = true → 0 < letterValue c ∧ letterValue c ≤ 26 ∧
    letter (letterValue c - 1) = c.toUpper) (by decide) (ascii_of_isAlpha hc) hc

theorem letterValue_toLower {c : Char} (hc : c.isAlpha = true) :
    letterValue c.toLower = letterValue c := by
  rw [letterValue, letterValue, toUpper_toLower (ascii_of_isAlpha hc)]

/-- The letters of the column that letters name are the letters themselves, in capitals. -/
theorem letters_lettersValue {s : List Char} {column : Nat} (halpha : ∀ c ∈ s, c.isAlpha = true)
    (h : lettersValue s = column + 1) : letters column = s.map Char.toUpper := by
  induction s using List.reverseRecOn generalizing column with
  | nil => cases h
  | append_singleton s c ih =>
    obtain ⟨hs, hc⟩ := List.forall_mem_append.1 halpha
    obtain ⟨hpos, hle, hletter⟩ := letter_letterValue (hc c List.mem_cons_self)
    rw [lettersValue_concat] at h
    rw [List.map_append, List.map_singleton, ← hletter, letters]
    cases hvalue : lettersValue s with
    | zero =>
      have hnil : s = [] := by
        by_contra hne
        have hpos := lettersValue_pos hne
        omega
      rw [hvalue] at h
      rw [if_pos (by omega), hnil, show letterValue c - 1 = column by omega]
      rfl
    | succ before =>
      rw [hvalue] at h
      rw [if_neg (by omega), show column / 26 - 1 = before by omega,
        show column % 26 = letterValue c - 1 by omega, ih hs hvalue]

theorem lettersValue_toLower {s : List Char} (halpha : ∀ c ∈ s, c.isAlpha = true) :
    lettersValue (s.map Char.toLower) = lettersValue s := by
  induction s using List.reverseRecOn with
  | nil => rfl
  | append_singleton s c ih =>
    obtain ⟨hs, hc⟩ := List.forall_mem_append.1 halpha
    rw [List.map_append, List.map_singleton, lettersValue_concat, lettersValue_concat, ih hs,
      letterValue_toLower (hc c List.mem_cons_self)]

theorem read_toLower {s : List Char} (halpha : ∀ c ∈ s, c.isAlpha = true) :
    read (s.map Char.toLower) = read s := by
  have hlower : ∀ c ∈ s.map Char.toLower, c.isAlpha = true := by
    intro c hc
    obtain ⟨d, hd, rfl⟩ := List.mem_map.1 hc
    exact isAlpha_toLower (halpha d hd)
  apply Option.ext
  intro column
  rw [read_eq_some_iff, read_eq_some_iff, lettersValue_toLower halpha, ne_eq, List.map_eq_nil_iff]
  exact and_congr_right fun _ => and_congr_left fun _ => iff_of_true hlower halpha

end Column

/-! ## Written corners in lower case -/

namespace CornerText

/-- The corner with its letters in lower case. -/
def toLower (t : CornerText) : CornerText where
  columnFixed := t.columnFixed
  letters := t.letters.map Char.toLower
  rowFixed := t.rowFixed
  digits := t.digits
  letters_alpha := by
    intro c hc
    obtain ⟨d, hd, rfl⟩ := List.mem_map.1 hc
    exact isAlpha_toLower (t.letters_alpha d hd)
  digits_digit := t.digits_digit
  columnFixed_eq := fun h => t.columnFixed_eq (List.map_eq_nil_iff.1 h)
  rowFixed_eq := t.rowFixed_eq

theorem chars_toLower (t : CornerText) : t.toLower.chars = t.chars.map Char.toLower := by
  have hmarker (fixed : Bool) :
      (Corner.marker fixed).map Char.toLower = Corner.marker fixed := by
    cases fixed <;> rfl
  have hdigits : t.digits.map Char.toLower = t.digits := by
    have hsame := List.map_congr_left fun c hc => toLower_of_isDigit (t.digits_digit c hc)
    rwa [List.map_id'] at hsame
  rw [chars, chars, List.map_append, List.map_append, List.map_append, hmarker, hmarker, hdigits]
  rfl

/-- Case makes no difference to the corner that is named. -/
theorem corner?_toLower (t : CornerText) : t.toLower.corner? = t.corner? := by
  have hcolumn : t.toLower.column? = t.column? := by
    unfold column?
    simp only [toLower, List.map_eq_nil_iff, Column.read_toLower t.letters_alpha]
  rw [corner?, corner?, hcolumn]
  rfl

end CornerText

namespace Address

open TokenRule

/-- An address of this sheet is read from its written form in lower case, too. -/
theorem WellFormed.readChars_toLower {a : Address} (h : a.WellFormed) (hsheet : a.sheet = none)
    (hrange : a.isRange = false) : readChars (a.renderChars.map Char.toLower) = some a := by
  obtain ⟨t, hchars, hname, hfirst, hlast, hsome⟩ := h.exists_text
  have hnone : t.last = none := by
    rw [hrange] at hsome
    simpa using hsome
  have hhere : t.sheet.chars = [] := by
    cases htext : t.sheet with
    | here => rfl
    | plain name hne hplain =>
      rw [htext, hsheet] at hname
      cases hname
    | quoted name hne =>
      rw [htext, hsheet] at hname
      cases hname
  let lowered : AddressText := ⟨.here, t.first.toLower, none, by
    rw [show t.first.toLower.letters = t.first.letters.map Char.toLower from rfl, ne_eq,
      List.map_eq_nil_iff]
    exact t.first_ne, by intro corner hcorner; cases hcorner⟩
  have htext : lowered.chars = a.renderChars.map Char.toLower := by
    rw [← hchars, AddressText.chars, AddressText.chars, hhere, AddressText.lastChars,
      AddressText.lastChars, hnone]
    simp [lowered, SheetText.chars, CornerText.chars_toLower]
  rw [← htext, lowered.readChars_eq_some_iff, hsheet]
  have hempty : t.last? = some {} := by rw [AddressText.last?, hnone]
  refine ⟨rfl, t.first.corner?_toLower.trans hfirst, hempty.symm.trans hlast, ?_⟩
  intro name hnone
  cases hnone

/-- A name that spells an address spells a column or a cell of this sheet: letters, and digits
behind them. -/
theorem exists_of_readChars_name {s : List Char} (hname : isName s = true) {a : Address}
    (h : readChars s = some a) :
    ∃ t : CornerText, s = t.letters ++ t.digits ∧ t.letters ≠ [] ∧
      t.columnFixed = false ∧ t.rowFixed = false ∧
      ∃ corner, t.corner? = some corner ∧ a = ⟨none, corner, {}⟩ := by
  have hparts := isNamePart_of_mem hname
  have hnot {c : Char} (hc : isNamePart c = false) : c ∉ s := by
    intro hmem
    rw [hparts c hmem] at hc
    cases hc
  have hblank : ∀ c ∈ s, isBlank c = false := fun c hc =>
    forall_ascii (P := fun c => isNamePart c = true → isBlank c = false) (by decide)
      (ascii_of_isNamePart (hparts c hc)) (hparts c hc)
  have htrim : trim s = s := trim_eq_self (fun c hc => hblank c (List.mem_of_mem_head? hc))
    fun c hc => hblank c (List.mem_of_mem_getLast? hc)
  rw [readChars_eq, htrim, readSheet_none (hnot (by decide))] at h
  obtain ⟨⟨first, last⟩, hcorners, rfl⟩ := Option.map_eq_some_iff.1 h
  obtain ⟨⟨rest, hfirst, hlast⟩, -, -⟩ := readCorners_eq_some_iff.1 hcorners
  obtain ⟨t, hs, hcorner⟩ := CornerText.exists_of_read hfirst
  have hs : s = t.chars ++ rest := hs
  have hrest : rest = [] ∧ last = {} := by
    rcases readLast_eq_some_iff.1 hlast with hnone | ⟨more, hcolon, -⟩
    · exact hnone
    · have hmem : ':' ∈ s := by
        rw [hs, hcolon]
        exact List.mem_append_right _ List.mem_cons_self
      exact absurd hmem (hnot (by decide))
  obtain ⟨rfl, rfl⟩ := hrest
  rw [List.append_nil] at hs
  have hdollar : '$' ∉ t.chars := hs ▸ hnot (by decide)
  have hcolumnFixed : t.columnFixed = false := by
    apply eq_false_of_ne_true
    intro hfixed
    simp [CornerText.chars, hfixed, Corner.marker] at hdollar
  have hrowFixed : t.rowFixed = false := by
    apply eq_false_of_ne_true
    intro hfixed
    simp [CornerText.chars, hfixed, Corner.marker] at hdollar
  have hplain : s = t.letters ++ t.digits := by
    rw [hs, CornerText.chars, hcolumnFixed, hrowFixed]
    rfl
  refine ⟨t, hplain, ?_, hcolumnFixed, hrowFixed, first, hcorner, rfl⟩
  intro hnil
  -- digits alone do not start a name
  rw [hplain, hnil, List.nil_append] at hname
  cases hdigits : t.digits with
  | nil =>
    rw [hdigits] at hname
    cases hname
  | cons d digits =>
    rw [hdigits] at hname
    have hstart := isDigit_of_isNameStart (Bool.and_eq_true_iff.1 hname).1
    rw [t.digits_digit d (hdigits ▸ List.mem_cons_self)] at hstart
    cases hstart

/-- Letters are written in capitals, and digits as those of the number they stand for. -/
theorem renderChars_of_letters {t : CornerText} {corner : Corner} (hletters : t.letters ≠ [])
    (hcolumn : t.columnFixed = false) (hrow : t.rowFixed = false)
    (h : t.corner? = some corner) :
    ∃ digits, renderChars ⟨none, corner, {}⟩ = t.letters.map Char.toUpper ++ digits ∧
      (∀ c ∈ digits, c.isDigit = true) ∧ (digits = [] ↔ t.digits = []) := by
  unfold CornerText.corner? CornerText.column? CornerText.row? at h
  rw [if_neg hletters] at h
  obtain ⟨found, hfound, h⟩ := Option.bind_eq_some_iff.1 h
  obtain ⟨column, hread, rfl⟩ := Option.map_eq_some_iff.1 hfound
  obtain ⟨row, hnumber, rfl⟩ := Option.map_eq_some_iff.1 h
  have hcapitals := Column.letters_lettersValue t.letters_alpha
    (Column.read_eq_some_iff.1 hread).2.2.1
  by_cases hdigits : t.digits = []
  · rw [if_pos hdigits] at hnumber
    cases hnumber
    refine ⟨[], ?_, List.forall_mem_nil _, iff_of_true rfl hdigits⟩
    rw [← hcapitals, hcolumn, hrow]
    exact List.append_nil _
  · rw [if_neg hdigits] at hnumber
    obtain ⟨n, -, rfl⟩ := Option.map_eq_some_iff.1 hnumber
    refine ⟨decimal (n + 1), ?_, fun _ => Number.isDigit_of_mem_decimal,
      iff_of_false Nat.toDigits_ne_nil hdigits⟩
    rw [← hcapitals, hcolumn, hrow]
    exact List.append_nil _

end Address

namespace Formula

open TokenRule

variable {id : String}

/-- A name is written as a name, in which a keyword is found only if one is in the name. -/
theorem isName_nameChars (hname : isName id.toList = true) :
    isName (nameChars id) = true ∧
      (boolean id.toList = none → boolean (nameChars id) = none) := by
  unfold nameChars
  split
  next a hread =>
    obtain ⟨t, hid, hletters, hcolumn, hrow, corner, hcorner, rfl⟩ :=
      Address.exists_of_readChars_name hname hread
    obtain ⟨digits, hchars, hdigits, hnil⟩ :=
      Address.renderChars_of_letters hletters hcolumn hrow hcorner
    have halpha : ∀ c ∈ t.letters.map Char.toUpper, c.isAlpha = true := by
      intro c hc
      obtain ⟨d, hd, rfl⟩ := List.mem_map.1 hc
      exact isAlpha_toUpper (t.letters_alpha d hd)
    have hcapitals : t.letters.map Char.toUpper ≠ [] := fun h => hletters (List.map_eq_nil_iff.1 h)
    rw [hchars]
    refine ⟨isName_lettersDigits hcapitals halpha hdigits, fun hboolean => ?_⟩
    by_cases hempty : digits = []
    · -- without digits only the case has changed
      rw [hid, hnil.1 hempty, List.append_nil] at hboolean
      rw [hempty, List.append_nil, boolean_toUpper fun c hc => ascii_of_isAlpha
        (t.letters_alpha c hc)]
      exact hboolean
    · exact boolean_lettersDigits hempty halpha hdigits
  next => exact ⟨hname, fun h => h⟩

/-- What a name is written as is written as it is when it is read as a name. -/
theorem nameChars_again (hname : isName id.toList = true) (hlower : lower id = id) :
    nameChars (lower (String.ofList (nameChars id))) = nameChars id := by
  have hwritten := (isName_nameChars hname).1
  cases hread : Address.read id with
  | none =>
    have hsame : nameChars id = id.toList := by rw [nameChars, hread]
    rw [hsame, String.ofList_toList, hlower, hsame]
  | some a =>
    have hsame : nameChars id = a.renderChars := by rw [nameChars, hread]
    obtain ⟨t, -, -, -, -, corner, -, rfl⟩ := Address.exists_of_readChars_name hname hread
    have hwell := Address.wellFormed_of_readChars hread
    have hagain :
        Address.read (lower (String.ofList (nameChars id))) = some ⟨none, corner, {}⟩ := by
      have hascii := ascii_of_isName hwritten
      rw [Address.read, toList_lower (by rwa [String.toList_ofList]), String.toList_ofList, hsame]
      exact hwell.readChars_toLower rfl rfl
    rw [nameChars, hagain, hsame]

end Formula
end Spreadsheet
