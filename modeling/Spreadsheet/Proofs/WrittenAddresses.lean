import Spreadsheet.Proofs.WrittenCorners

/-!
Addresses and their written forms: a corner or two with a `:` between them, behind a sheet or not.
An address that is well formed is read back from the form in which it is written, and nothing else
than such addresses is ever read, so that every address has one canonical form.
-/
namespace Spreadsheet

open Text

/-! ## Sheets -/

/-- The text in front of an address: nothing, or the name of a sheet, quoted or not, and a `!`. -/
inductive SheetText where
  | here
  | plain (name : List Char) (hne : name ≠ [])
    (hplain : ∀ c ∈ name, Address.isPlainSheetChar c = true)
  | quoted (name : List Char) (hne : name ≠ [])

namespace SheetText

def chars : SheetText → List Char
  | here => []
  | plain name _ _ => name ++ ['!']
  | quoted name _ => enclose '\'' name ++ ['!']

def sheet : SheetText → Option String
  | here => none
  | plain name _ _ | quoted name _ => some (String.ofList name)

end SheetText

namespace Address

theorem ascii_of_isPlainSheetChar {c : Char} (hc : isPlainSheetChar c = true) : c.toNat < 128 :=
  TokenRule.ascii_of_isNamePart hc

theorem isBlank_of_isPlainSheetChar {c : Char} (hc : isPlainSheetChar c = true) :
    isBlank c = false :=
  forall_ascii (P := fun c => isPlainSheetChar c = true → isBlank c = false) (by decide)
    (ascii_of_isPlainSheetChar hc) hc

theorem readSheet_enclose {name : List Char} (hne : name ≠ []) (rest : List Char) :
    readSheet (enclose '\'' name ++ '!' :: rest) = (some (String.ofList name), rest) := by
  have hquoted := readQuoted_double '\'' name ('!' :: rest) (by simp)
  have htext : enclose '\'' name ++ '!' :: rest =
      '\'' :: (double '\'' name ++ '\'' :: '!' :: rest) := by
    simp [enclose]
  rw [htext, readSheet, hquoted]
  exact if_neg hne

theorem readSheet_plain {name : List Char} (hne : name ≠ [])
    (hplain : ∀ c ∈ name, isPlainSheetChar c = true) (rest : List Char) :
    readSheet (name ++ '!' :: rest) = (some (String.ofList name), rest) := by
  have hmark : ∀ c ∈ ('!' :: rest).head?, isPlainSheetChar c = false := by
    intro c hc
    cases hc
    rfl
  obtain ⟨htake, hdrop⟩ := span_of_head? hmark
  have hquote : ∀ quoted, name ++ '!' :: rest ≠ '\'' :: quoted := by
    intro quoted heq
    cases name with
    | nil => exact hne rfl
    | cons c name =>
      cases heq
      exact absurd (hplain '\'' List.mem_cons_self) (by decide)
  rw [readSheet]
  · rw [List.takeWhile_append_of_pos hplain, List.dropWhile_append_of_pos hplain, htake, hdrop,
      List.append_nil]
    exact if_neg hne
  · exact hquote

/-- Without a `!` there is no sheet. -/
theorem readSheet_none {s : List Char} (h : '!' ∉ s) : readSheet s = (none, s) := by
  unfold readSheet
  split
  next quoted =>
    split
    next name rest hread =>
      have hmem := (mem_of_readQuoted hread).2 '!' List.mem_cons_self
      exact absurd (List.mem_cons_of_mem _ hmem) h
    next => rfl
  next =>
    dsimp only
    split
    next rest hdrop =>
      have hmem : '!' ∈ s.dropWhile isPlainSheetChar := hdrop ▸ List.mem_cons_self
      exact absurd ((List.dropWhile_sublist _).mem hmem) h
    next => rfl

/-- The name of a sheet that is read is not empty, and all of it stands in the text. -/
theorem readSheet_name {s : List Char} {name : String} (h : (readSheet s).1 = some name) :
    name ≠ "" ∧ ∀ c ∈ name.toList, c ∈ s := by
  have hname {said : List Char} (hne : said ≠ []) : String.ofList said ≠ "" := by
    intro heq
    exact hne (String.ofList_eq_empty_iff.1 heq)
  unfold readSheet at h
  split at h
  next quoted =>
    split at h
    next said rest hread =>
      split at h
      next => cases h
      next hne =>
        cases h
        rw [String.toList_ofList]
        exact ⟨hname hne, fun c hc => List.mem_cons_of_mem _ ((mem_of_readQuoted hread).1 c hc)⟩
    next => cases h
  next =>
    dsimp only at h
    split at h
    next rest hdrop =>
      split at h
      next => cases h
      next hne =>
        cases h
        rw [String.toList_ofList]
        exact ⟨hname hne, fun c hc => (List.takeWhile_sublist _).mem hc⟩
    next => cases h

end Address

namespace SheetText

theorem readSheet_chars (t : SheetText) {rest : List Char} (hrest : '!' ∉ rest) :
    Address.readSheet (t.chars ++ rest) = (t.sheet, rest) := by
  cases t with
  | here => exact Address.readSheet_none hrest
  | plain name hne hplain =>
    rw [chars, List.append_assoc]
    exact Address.readSheet_plain hne hplain rest
  | quoted name hne =>
    rw [chars, List.append_assoc]
    exact Address.readSheet_enclose hne rest

theorem head?_chars {t : SheetText} (rest : List Char) (h : t.chars ≠ []) :
    ∀ c ∈ (t.chars ++ rest).head?, isBlank c = false := by
  intro c hc
  cases t with
  | here => exact absurd rfl h
  | quoted name hne =>
    cases hc
    rfl
  | plain name hne hplain =>
    obtain ⟨d, name, rfl⟩ := List.exists_cons_of_ne_nil hne
    cases hc
    exact Address.isBlank_of_isPlainSheetChar (hplain c List.mem_cons_self)

/-- There are no blanks to trim in front of a sheet, and those behind it are the rest's. -/
theorem trim_append (t : SheetText) {rest : List Char} (hrest : trim rest = rest) :
    trim (t.chars ++ rest) = t.chars ++ rest := by
  by_cases hchars : t.chars = []
  · rw [hchars]
    exact hrest
  · apply trim_eq_self (head?_chars rest hchars)
    intro c hc
    by_cases hnil : rest = []
    · have hlast : (t.chars ++ rest).getLast? = some '!' := by
        cases t with
        | here => exact absurd rfl hchars
        | plain name hne hplain => simp [chars, hnil]
        | quoted name hne => simp [chars, hnil]
      rw [hlast] at hc
      cases hc
      rfl
    · obtain ⟨d, hd⟩ := Option.isSome_iff_exists.1 (List.getLast?_isSome.2 hnil)
      rw [List.getLast?_append, hd, Option.some_or, ← hd, ← hrest] at hc
      exact isBlank_getLast?_trim c hc

/-- Every name but the empty one has a text. -/
theorem exists_of_sheet (sheet : Option String) : (∀ name ∈ sheet, name ≠ "") →
    ∃ t : SheetText, t.sheet = sheet ∧ t.chars = match sheet with
      | some name => Address.renderSheet name.toList ++ ['!']
      | none => [] := by
  intro h
  cases sheet with
  | none => exact ⟨here, rfl, rfl⟩
  | some name =>
    have hne : name.toList ≠ [] := by
      intro heq
      exact h name rfl (String.toList_eq_nil_iff.1 heq)
    unfold Address.renderSheet
    by_cases hplain : name.toList.all Address.isPlainSheetChar = true
    · refine ⟨plain name.toList hne (List.all_eq_true.1 hplain), ?_, ?_⟩
      · rw [sheet, String.ofList_toList]
      · dsimp only
        rw [if_pos hplain]
        rfl
    · refine ⟨quoted name.toList hne, ?_, ?_⟩
      · rw [sheet, String.ofList_toList]
      · dsimp only
        rw [if_neg hplain]
        rfl

theorem mem_chars_iff {t : SheetText} {c : Char} (hquote : c ≠ '\'') (hmark : c ≠ '!') :
    c ∈ t.chars ↔ ∃ name ∈ t.sheet, c ∈ name.toList := by
  cases t with
  | here => simp [chars, sheet]
  | plain name hne hplain => simp [chars, sheet, hmark]
  | quoted name hne => simp [chars, sheet, hmark, enclose, hquote, mem_double_iff]

end SheetText

/-! ## Addresses -/

/-- The text of an address: its sheet, its first corner and the last one of a range. -/
structure AddressText where
  sheet : SheetText
  first : CornerText
  last : Option CornerText
  first_ne : first.letters ≠ [] ∨ first.digits ≠ []
  last_ne : ∀ corner ∈ last, corner.letters ≠ [] ∨ corner.digits ≠ []

namespace AddressText

/-- What stands behind the first corner. -/
def lastChars (t : AddressText) : List Char :=
  match t.last with
  | some corner => ':' :: corner.chars
  | none => []

def chars (t : AddressText) : List Char :=
  t.sheet.chars ++ (t.first.chars ++ t.lastChars)

/-- The corner behind the `:`, which is empty where there is none. -/
def last? (t : AddressText) : Option Corner :=
  match t.last with
  | some corner => corner.corner?
  | none => some {}

end AddressText

namespace Address

/-- Reads the corners that stand behind a sheet; a range has a last one. -/
def readCorners (range : Bool) (s : List Char) : Option (Corner × Corner) :=
  (Corner.read s).bind fun (first, rest) => (readLast rest).bind fun last =>
    if first.isEmpty || (range && last.isEmpty) then none else some (first, last)

theorem readChars_eq (text : List Char) :
    readChars text = (readCorners (text.contains ':') (readSheet (trim text)).2).map fun corners =>
      ⟨(readSheet (trim text)).1, corners.1, corners.2⟩ := by
  unfold readChars readCorners
  dsimp only
  split
  next hfirst => rw [hfirst]; rfl
  next first rest hfirst =>
    rw [hfirst, Option.bind_some]
    dsimp only
    split
    next hlast => rw [hlast]; rfl
    next last hlast =>
      rw [hlast, Option.bind_some]
      split <;> rfl

theorem readCorners_eq_some_iff {range : Bool} {s : List Char} {first last : Corner} :
    readCorners range s = some (first, last) ↔
      (∃ rest, Corner.read s = some (first, rest) ∧ readLast rest = some last) ∧
        first.isEmpty = false ∧ (range = true → last.isEmpty = false) := by
  unfold readCorners
  constructor
  · intro h
    obtain ⟨⟨first', rest⟩, hfirst, h⟩ := Option.bind_eq_some_iff.1 h
    obtain ⟨last', hlast, h⟩ := Option.bind_eq_some_iff.1 h
    split at h
    next => cases h
    next hempty =>
      cases h
      rw [Bool.or_eq_true, not_or, Bool.not_eq_true, Bool.and_eq_true, not_and,
        Bool.not_eq_true] at hempty
      exact ⟨⟨rest, hfirst, hlast⟩, hempty⟩
  · rintro ⟨⟨rest, hfirst, hlast⟩, hempty⟩
    rw [hfirst, Option.bind_some]
    dsimp only
    rw [hlast, Option.bind_some, if_neg]
    rw [Bool.or_eq_true, not_or, Bool.not_eq_true, Bool.and_eq_true, not_and, Bool.not_eq_true]
    exact hempty

/-- Behind the first corner there is nothing, or a `:` and the last corner. -/
theorem readLast_eq_some_iff {rest : List Char} {last : Corner} :
    readLast rest = some last ↔ (rest = [] ∧ last = {}) ∨
      ∃ s, rest = ':' :: s ∧ Corner.read s = some (last, []) := by
  unfold readLast
  constructor
  · intro h
    split at h
    next =>
      cases h
      exact .inl ⟨rfl, rfl⟩
    next s =>
      split at h
      next hread =>
        cases h
        exact .inr ⟨s, rfl, hread⟩
      next => cases h
    next => cases h
  · rintro (⟨rfl, rfl⟩ | ⟨s, rfl, hread⟩)
    · rfl
    · simp only [hread]

end Address

namespace AddressText

open Address

theorem atEnd_lastChars (t : AddressText) : Corner.AtEnd t.lastChars := by
  unfold lastChars
  split
  · exact Corner.atEnd_colon _
  · exact Corner.atEnd_nil

theorem readLast_lastChars (t : AddressText) : readLast t.lastChars = t.last? := by
  unfold lastChars last?
  split
  next corner _ =>
    have hread := corner.read_chars Corner.atEnd_nil
    rw [List.append_nil] at hread
    unfold readLast
    simp only [hread]
    cases corner.corner? <;> rfl
  next => rfl

theorem mem_corners {t : AddressText} {c : Char} (h : c ∈ t.first.chars ++ t.lastChars) :
    c = '$' ∨ c.isAlphanum = true ∨ (c = ':' ∧ t.last.isSome = true) := by
  have hcorner {corner : CornerText} (hc : c ∈ corner.chars) :
      c = '$' ∨ c.isAlphanum = true ∨ (c = ':' ∧ t.last.isSome = true) := by
    rcases CornerText.mem_chars hc with hdollar | halphanum
    · exact .inl hdollar
    · exact .inr (.inl halphanum)
  cases List.mem_append.1 h with
  | inl hc => exact hcorner hc
  | inr hc =>
    unfold lastChars at hc
    split at hc
    next corner hlast =>
      cases List.mem_cons.1 hc with
      | inl heq => exact .inr (.inr ⟨heq, by rw [hlast]; rfl⟩)
      | inr hmem => exact hcorner hmem
    next => cases hc

theorem first_chars_ne (t : AddressText) : t.first.chars ≠ [] := by
  intro hnil
  simp only [CornerText.chars, List.append_eq_nil_iff] at hnil
  exact t.first_ne.elim (absurd hnil.2.1) (absurd hnil.2.2.2)

theorem isBlank_corners (t : AddressText) :
    ∀ c ∈ t.first.chars ++ t.lastChars, isBlank c = false := by
  intro c hc
  rcases mem_corners hc with rfl | halphanum | ⟨rfl, -⟩
  · rfl
  · exact isBlank_of_isAlphanum halphanum
  · rfl

theorem trim_corners (t : AddressText) :
    trim (t.first.chars ++ t.lastChars) = t.first.chars ++ t.lastChars :=
  trim_eq_self (fun c hc => t.isBlank_corners c (List.mem_of_mem_head? hc))
    fun c hc => t.isBlank_corners c (List.mem_of_mem_getLast? hc)

/-- A written address starts with something else than a blank. -/
theorem head?_chars (t : AddressText) : t.chars.head?.map isBlank = some false := by
  have hne : t.chars ≠ [] := by
    intro hnil
    exact t.first_chars_ne (List.append_eq_nil_iff.1 (List.append_eq_nil_iff.1 hnil).2).1
  have hblank : ∀ c ∈ t.chars.head?, isBlank c = false := by
    by_cases hsheet : t.sheet.chars = []
    · intro c hc
      rw [chars, hsheet, List.nil_append] at hc
      exact t.isBlank_corners c (List.mem_of_mem_head? hc)
    · exact SheetText.head?_chars _ hsheet
  obtain ⟨c, rest, hcons⟩ := List.exists_cons_of_ne_nil hne
  rw [hcons] at hblank ⊢
  exact congrArg some (hblank c rfl)

theorem mark_not_mem_corners (t : AddressText) : '!' ∉ t.first.chars ++ t.lastChars := by
  intro h
  rcases mem_corners h with heq | halphanum | ⟨heq, -⟩
  · exact absurd heq (by decide)
  · exact absurd halphanum (by decide)
  · exact absurd heq (by decide)

/-- A `:` separates two corners or belongs to the name of the sheet. -/
theorem colon_mem_chars (t : AddressText) :
    ':' ∈ t.chars ↔ (∃ name ∈ t.sheet.sheet, ':' ∈ name.toList) ∨ t.last.isSome = true := by
  rw [chars, List.mem_append, SheetText.mem_chars_iff (by decide) (by decide)]
  apply or_congr Iff.rfl
  constructor
  · intro h
    rcases mem_corners h with heq | halphanum | ⟨-, hlast⟩
    · exact absurd heq (by decide)
    · exact absurd halphanum (by decide)
    · exact hlast
  · intro h
    obtain ⟨corner, hlast⟩ := Option.isSome_iff_exists.1 h
    apply List.mem_append_right
    rw [lastChars, hlast]
    exact List.mem_cons_self

theorem isEmpty_first {t : AddressText} {c : Corner} (h : t.first.corner? = some c) :
    c.isEmpty = false := by
  apply eq_false_of_ne_true
  intro hempty
  obtain ⟨hletters, hdigits⟩ := (CornerText.isEmpty_corner h).1 hempty
  exact t.first_ne.elim (absurd hletters) (absurd hdigits)

theorem isEmpty_last {t : AddressText} {c : Corner} (h : t.last? = some c) :
    c.isEmpty = false ↔ t.last.isSome = true := by
  unfold last? at h
  split at h
  next corner hlast =>
    have hne := t.last_ne corner hlast
    have hempty := CornerText.isEmpty_corner h
    rw [hlast]
    refine ⟨fun _ => rfl, fun _ => eq_false_of_ne_true fun heq => ?_⟩
    obtain ⟨hletters, hdigits⟩ := hempty.1 heq
    exact hne.elim (absurd hletters) (absurd hdigits)
  next hlast =>
    cases h
    rw [hlast]
    decide

/-- What a written address is read as: its sheet and its corners. A `:` in the name of the sheet
makes it unreadable unless it is a range. -/
theorem readChars_eq_some_iff (t : AddressText) {a : Address} :
    readChars t.chars = some a ↔ a.sheet = t.sheet.sheet ∧ t.first.corner? = some a.first ∧
      t.last? = some a.last ∧ ∀ name ∈ a.sheet, ':' ∈ name.toList → t.last.isSome = true := by
  have hsheet : readSheet (trim t.chars) = (t.sheet.sheet, t.first.chars ++ t.lastChars) := by
    rw [chars, t.sheet.trim_append t.trim_corners, t.sheet.readSheet_chars t.mark_not_mem_corners]
  have hread := t.first.read_chars t.atEnd_lastChars
  rw [Address.readChars_eq, hsheet, Option.map_eq_some_iff]
  dsimp only
  constructor
  · rintro ⟨⟨first, last⟩, hcorners, rfl⟩
    obtain ⟨⟨rest, hfirst, hlast⟩, -, hrange⟩ := readCorners_eq_some_iff.1 hcorners
    rw [hread] at hfirst
    obtain ⟨first', hcorner, heq⟩ := Option.map_eq_some_iff.1 hfirst
    cases heq
    rw [readLast_lastChars] at hlast
    refine ⟨rfl, hcorner, hlast, fun name hname hcolon => ?_⟩
    apply (isEmpty_last hlast).1
    apply hrange
    rw [List.contains_iff_mem, colon_mem_chars]
    exact .inl ⟨name, hname, hcolon⟩
  · rintro ⟨hname, hfirst, hlast, hcolon⟩
    refine ⟨(a.first, a.last), readCorners_eq_some_iff.2 ⟨⟨t.lastChars, ?_, ?_⟩, ?_, ?_⟩, ?_⟩
    · rw [hread, hfirst, Option.map_some]
    · rw [readLast_lastChars, hlast]
    · exact isEmpty_first hfirst
    · intro hmem
      rw [isEmpty_last hlast]
      rw [List.contains_iff_mem, colon_mem_chars] at hmem
      rcases hmem with ⟨name, hsheet, hmem⟩ | hsome
      · exact hcolon name (hname ▸ hsheet) hmem
      · exact hsome
    · rw [← hname]

end AddressText

namespace Address

/-- An address that can be written: a first corner that is not empty, well-formed corners, and a
sheet with a name. A name with a `:` in it is written in front of ranges only. -/
structure WellFormed (a : Address) : Prop where
  first_ne : a.first.isEmpty = false
  first : a.first.WellFormed
  last : a.last.WellFormed
  sheet_ne : ∀ name ∈ a.sheet, name ≠ ""
  sheet_colon : ∀ name ∈ a.sheet, ':' ∈ name.toList → a.isRange = true

variable {a : Address}

theorem text_ne {c : Corner} (h : c.WellFormed) (hne : c.isEmpty = false) :
    (c.text h).letters ≠ [] ∨ (c.text h).digits ≠ [] := by
  by_contra hnone
  rw [not_or, not_not, not_not] at hnone
  rw [(CornerText.isEmpty_corner (Corner.corner?_text h)).2 hnone] at hne
  cases hne

/-- A well-formed address is written as a text that names it. -/
theorem WellFormed.exists_text (h : a.WellFormed) :
    ∃ t : AddressText, t.chars = a.renderChars ∧ t.sheet.sheet = a.sheet ∧
      t.first.corner? = some a.first ∧ t.last? = some a.last ∧ t.last.isSome = a.isRange := by
  obtain ⟨sheet, hsheet, hchars⟩ := SheetText.exists_of_sheet a.sheet h.sheet_ne
  have hfirst := text_ne h.first h.first_ne
  by_cases hrange : a.isRange = true
  · have hempty : a.last.isEmpty = false := by simpa [isRange] using hrange
    have hlast := text_ne h.last hempty
    refine ⟨⟨sheet, a.first.text h.first, some (a.last.text h.last), hfirst, ?_⟩, ?_, hsheet,
      Corner.corner?_text h.first, Corner.corner?_text h.last, hrange.symm⟩
    · rintro corner ⟨⟩
      exact hlast
    · unfold AddressText.chars AddressText.lastChars renderChars
      dsimp only
      rw [if_pos hrange, Corner.chars_text, Corner.chars_text, List.append_assoc]
      exact congrArg (· ++ (a.first.render ++ ':' :: a.last.render)) hchars
  · have hempty : a.last.isEmpty = true := by simpa [isRange] using hrange
    refine ⟨⟨sheet, a.first.text h.first, none, hfirst, ?_⟩, ?_, hsheet,
      Corner.corner?_text h.first, ?_, ?_⟩
    · intro corner hnone
      cases hnone
    · unfold AddressText.chars AddressText.lastChars renderChars
      dsimp only
      rw [if_neg hrange, Corner.chars_text, List.append_assoc]
      exact congrArg (· ++ (a.first.render ++ [])) hchars
    · rw [Corner.eq_empty_of_isEmpty h.last hempty]
      rfl
    · exact (eq_false_of_ne_true hrange).symm

theorem WellFormed.readChars_renderChars (h : a.WellFormed) : readChars a.renderChars = some a := by
  obtain ⟨t, hchars, hsheet, hfirst, hlast, hrange⟩ := h.exists_text
  rw [← hchars, t.readChars_eq_some_iff]
  refine ⟨hsheet.symm, hfirst, hlast, fun name hname hcolon => ?_⟩
  rw [hrange]
  exact h.sheet_colon name hname hcolon

theorem wellFormed_readLast {rest : List Char} {last : Corner} (h : readLast rest = some last) :
    last.WellFormed := by
  rcases readLast_eq_some_iff.1 h with ⟨-, rfl⟩ | ⟨s, -, hread⟩
  · decide
  · obtain ⟨t, -, hcorner⟩ := CornerText.exists_of_read hread
    exact CornerText.wellFormed_corner hcorner

theorem wellFormed_of_readChars {text : List Char} (h : readChars text = some a) :
    a.WellFormed := by
  rw [readChars_eq] at h
  obtain ⟨⟨first, last⟩, hcorners, rfl⟩ := Option.map_eq_some_iff.1 h
  obtain ⟨⟨rest, hfirst, hlast⟩, hne, hrange⟩ := readCorners_eq_some_iff.1 hcorners
  obtain ⟨t, -, hcorner⟩ := CornerText.exists_of_read hfirst
  refine ⟨hne, CornerText.wellFormed_corner hcorner, wellFormed_readLast hlast,
    fun name hname => (readSheet_name hname).1, fun name hname hcolon => ?_⟩
  -- the name stands in the text, and so does its `:`
  have hmem : ':' ∈ text := mem_of_mem_trim ((readSheet_name hname).2 ':' hcolon)
  show (!last.isEmpty) = true
  rw [hrange (List.contains_iff_mem.2 hmem)]
  rfl

/-- Well-formed addresses, and only those, are what texts are read as, and the written form of an
address is read as the address: it is a canonical form of all texts that are read as it. -/
theorem read_canonical (a : Address) :
    (a.WellFormed → read a.render = some a) ∧
      ∀ text, read text = some a → a.WellFormed ∧ read a.render = read text := by
  have hback (h : a.WellFormed) : read a.render = some a := by
    rw [read, render, String.toList_ofList]
    exact h.readChars_renderChars
  refine ⟨hback, fun text htext => ?_⟩
  have hwell : a.WellFormed := wellFormed_of_readChars htext
  rw [htext]
  exact ⟨hwell, hback hwell⟩

/-- A sheet whose name has quotes, blanks and a `:` in it, a row with a leading zero and blanks
around the whole. -/
theorem read_canonical_quotedSheet :
    ∃ a : Address, read "  'Bob''s: 1'!$ab$03:c " = some a ∧ a.WellFormed ∧
      a.render = "'Bob''s: 1'!$AB$3:C" ∧ read a.render = some a := by
  let a : Address :=
    { sheet := some "Bob's: 1"
      first := { column := some 27, row := some 2, columnFixed := true, rowFixed := true }
      last := { column := some 2 } }
  have htext : read "  'Bob''s: 1'!$ab$03:c " = some a := by decide +kernel
  obtain ⟨hback, hcanonical⟩ := read_canonical a
  have hwell := (hcanonical _ htext).1
  exact ⟨a, htext, hwell, by decide +kernel, hback hwell⟩

end Address
end Spreadsheet
