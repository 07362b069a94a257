import Spreadsheet.Proofs.FormulaLeaves

/-!
Corners of addresses and their written forms: a marker and letters, a marker and digits, or both.
A written corner is read as the column and the row that it names, up to where it ends, and
whatever corner is read, its written form stands at the front of the text.
-/
namespace Spreadsheet

namespace Text

/-! ## Texts without blanks at their ends -/

theorem span_of_head? {p : Char → Bool} {s : List Char} (h : ∀ c ∈ s.head?, p c = false) :
    s.takeWhile p = [] ∧ s.dropWhile p = s := by
  cases s with
  | nil => exact ⟨rfl, rfl⟩
  | cons c s =>
    have hc : ¬ p c = true := by rw [h c rfl]; decide
    exact ⟨List.takeWhile_cons_of_neg hc, List.dropWhile_cons_of_neg hc⟩

theorem trim_eq_self {s : List Char} (hfirst : ∀ c ∈ s.head?, isBlank c = false)
    (hlast : ∀ c ∈ s.getLast?, isBlank c = false) : trim s = s := by
  rw [← List.head?_reverse] at hlast
  unfold trim trimStart trimEnd
  rw [(span_of_head? hfirst).2, (span_of_head? hlast).2, List.reverse_reverse]

theorem isBlank_getLast?_trim {s : List Char} :
    ∀ c ∈ (trim s).getLast?, isBlank c = false := by
  intro c hc
  unfold trim trimEnd at hc
  rw [List.getLast?_reverse] at hc
  have hhead := List.head?_dropWhile_not isBlank (trimStart s).reverse
  rwa [Option.mem_def.1 hc] at hhead

theorem mem_of_mem_trim {s : List Char} {c : Char} (h : c ∈ trim s) : c ∈ s := by
  unfold trim trimEnd at h
  rw [List.mem_reverse] at h
  have hstart := List.mem_reverse.1 ((List.dropWhile_sublist _).mem h)
  exact (List.dropWhile_sublist _).mem hstart

/-! ## Quoted texts -/

theorem mem_double_iff {q c : Char} {s : List Char} : c ∈ double q s ↔ c ∈ s := by
  induction s with
  | nil => rfl
  | cons d s ih =>
    by_cases hd : d = q
    · simp [double, hd, ih]
    · simp [double, hd, ih]

theorem mem_of_readQuoted {q : Char} {s said after : List Char}
    (h : readQuoted q s = some (said, after)) :
    (∀ c ∈ said, c ∈ s) ∧ ∀ c ∈ after, c ∈ s := by
  fun_induction readQuoted q s generalizing said after with
  | case1 => cases h
  | case2 more ih =>
    obtain ⟨⟨said', after'⟩, hread, heq⟩ := Option.map_eq_some_iff.1 h
    cases heq
    obtain ⟨hsaid, hafter⟩ := ih hread
    refine ⟨fun c hc => ?_, fun c hc => by simp [hafter c hc]⟩
    cases List.mem_cons.1 hc with
    | inl heq => simp [heq]
    | inr hmem => simp [hsaid c hmem]
  | case3 b more hne =>
    cases h
    exact ⟨List.forall_mem_nil _, fun c hc => List.mem_cons_of_mem _ hc⟩
  | case4 =>
    cases h
    exact ⟨List.forall_mem_nil _, List.forall_mem_nil _⟩
  | case5 a rest hne ih =>
    obtain ⟨⟨said', after'⟩, hread, heq⟩ := Option.map_eq_some_iff.1 h
    cases heq
    obtain ⟨hsaid, hafter⟩ := ih hread
    refine ⟨fun c hc => ?_, fun c hc => List.mem_cons_of_mem _ (hafter c hc)⟩
    cases List.mem_cons.1 hc with
    | inl heq => exact heq ▸ List.mem_cons_self
    | inr hmem => exact List.mem_cons_of_mem _ (hsaid c hmem)

end Text

open Text

/-! ## Corners -/

/-- The text of a corner: letters, digits, or both, each of them with a marker or without. -/
structure CornerText where
  columnFixed : Bool
  letters : List Char
  rowFixed : Bool
  digits : List Char
  letters_alpha : ∀ c ∈ letters, c.isAlpha = true
  digits_digit : ∀ c ∈ digits, c.isDigit = true
  columnFixed_eq : letters = [] → columnFixed = false
  rowFixed_eq : digits = [] → rowFixed = false

namespace CornerText

def chars (t : CornerText) : List Char :=
  Corner.marker t.columnFixed ++ (t.letters ++ (Corner.marker t.rowFixed ++ t.digits))

/-- The column that the letters name, and `none` where there are none; nothing when they name a
column that is out of bounds. -/
def column? (t : CornerText) : Option (Option Nat) :=
  if t.letters = [] then some none else (Column.read t.letters).map some

/-- The row that the digits name, and `none` where there are none; nothing when there is no such
row. -/
def row? (t : CornerText) : Option (Option Nat) :=
  if t.digits = [] then some none else (Corner.readRowNumber t.digits).map some

/-- The corner that the text names. -/
def corner? (t : CornerText) : Option Corner :=
  t.column?.bind fun column => t.row?.map fun row => ⟨column, row, t.columnFixed, t.rowFixed⟩

end CornerText

namespace Corner

/-- A corner that can be written: the indices behind its own are machine indices, and only an
axis that is there is marked. -/
structure WellFormed (c : Corner) : Prop where
  column_lt : ∀ column ∈ c.column, column + 1 < indexLimit
  row_lt : ∀ row ∈ c.row, row + 1 < indexLimit
  columnFixed_eq : c.column = none → c.columnFixed = false
  rowFixed_eq : c.row = none → c.rowFixed = false

instance (c : Corner) : Decidable c.WellFormed :=
  decidable_of_iff
    ((∀ column ∈ c.column, column + 1 < indexLimit) ∧ (∀ row ∈ c.row, row + 1 < indexLimit) ∧
      (c.column = none → c.columnFixed = false) ∧ (c.row = none → c.rowFixed = false))
    ⟨fun ⟨h1, h2, h3, h4⟩ => ⟨h1, h2, h3, h4⟩, fun h => ⟨h.1, h.2, h.3, h.4⟩⟩

/-- Where a corner ends: no marker, letter or digit follows. -/
def AtEnd (rest : List Char) : Prop :=
  ∀ c ∈ rest.head?, c ≠ '$' ∧ c.isAlpha = false ∧ c.isDigit = false

theorem atEnd_nil : AtEnd [] := by
  intro c hc
  cases hc

theorem atEnd_colon (s : List Char) : AtEnd (':' :: s) := by
  intro c hc
  cases hc
  decide

theorem readMarker_eq_self {s : List Char} (h : s.head? ≠ some '$') :
    readMarker s = (false, s) := by
  unfold readMarker
  split
  · exact absurd rfl h
  · rfl

theorem readMarker_marker (fixed : Bool) {s : List Char} (h : s.head? ≠ some '$') :
    readMarker (marker fixed ++ s) = (fixed, s) := by
  cases fixed with
  | false => exact readMarker_eq_self h
  | true => rfl

/-- What `readMarker` takes off is the marker. -/
theorem marker_readMarker (s : List Char) : marker (readMarker s).1 ++ (readMarker s).2 = s := by
  unfold readMarker
  split <;> rfl

theorem head?_ne_dollar {p : Char → Bool} (hp : p '$' = false) {s rest : List Char}
    (hs : ∀ c ∈ s, p c = true) (hrest : rest.head? ≠ some '$') :
    (s ++ rest).head? ≠ some '$' := by
  cases s with
  | nil => exact hrest
  | cons c s =>
    intro heq
    rw [List.cons_append, List.head?_cons, Option.some.injEq] at heq
    have hc := hs c List.mem_cons_self
    rw [heq, hp] at hc
    cases hc

theorem AtEnd.head?_ne {rest : List Char} (h : AtEnd rest) : rest.head? ≠ some '$' := by
  intro heq
  exact (h '$' heq).1 rfl

theorem AtEnd.isAlpha {rest : List Char} (h : AtEnd rest) : ∀ c ∈ rest.head?, c.isAlpha = false :=
  fun c hc => (h c hc).2.1

theorem AtEnd.isDigit {rest : List Char} (h : AtEnd rest) : ∀ c ∈ rest.head?, c.isDigit = false :=
  fun c hc => (h c hc).2.2

theorem readRow_digits (c : Corner) (fixed : Bool) {digits rest : List Char} (hne : digits ≠ [])
    (hdigits : ∀ d ∈ digits, d.isDigit = true) (hrest : AtEnd rest) :
    readRow c (marker fixed ++ (digits ++ rest)) = (readRowNumber digits).map fun row =>
      ({ c with row := some row, rowFixed := fixed }, rest) := by
  have hmarker := readMarker_marker fixed (head?_ne_dollar (by decide) hdigits hrest.head?_ne)
  obtain ⟨htake, hdrop⟩ := span_of_head? hrest.isDigit
  unfold readRow
  rw [hmarker]
  dsimp only
  rw [List.takeWhile_append_of_pos hdigits, List.dropWhile_append_of_pos hdigits, htake, hdrop,
    List.append_nil, if_neg hne]

theorem readRow_none (c : Corner) {rest : List Char} (hrest : AtEnd rest) :
    readRow c rest = some (c, rest) := by
  unfold readRow
  rw [readMarker_eq_self hrest.head?_ne]
  dsimp only
  rw [(span_of_head? hrest.isDigit).1, if_pos rfl]

end Corner

namespace CornerText

open Corner

/-- Behind the letters, the digits are read as the row. -/
theorem readRow_chars (t : CornerText) (column : Option Nat) (fixed : Bool) {rest : List Char}
    (hrest : AtEnd rest) :
    readRow { column := column, columnFixed := fixed } (marker t.rowFixed ++ (t.digits ++ rest)) =
      t.row?.map fun row => (⟨column, row, fixed, t.rowFixed⟩, rest) := by
  unfold row?
  by_cases hdigits : t.digits = []
  · rw [if_pos hdigits, t.rowFixed_eq hdigits, hdigits]
    exact readRow_none _ hrest
  · rw [if_neg hdigits, readRow_digits _ _ hdigits t.digits_digit hrest, Option.map_map]
    rfl

theorem isAlpha_behind (t : CornerText) {rest : List Char} (hrest : AtEnd rest) :
    ∀ c ∈ (t.digits ++ rest).head?, c.isAlpha = false := by
  intro c hc
  cases hdigits : t.digits with
  | nil =>
    rw [hdigits] at hc
    exact hrest.isAlpha c hc
  | cons d digits =>
    rw [hdigits] at hc
    cases hc
    have hd := t.digits_digit c (hdigits ▸ List.mem_cons_self)
    apply eq_false_of_ne_true
    intro halpha
    rw [TokenRule.isDigit_of_isAlpha halpha] at hd
    cases hd

theorem isAlpha_marker (t : CornerText) {rest : List Char} (hrest : AtEnd rest) :
    ∀ c ∈ (marker t.rowFixed ++ (t.digits ++ rest)).head?, c.isAlpha = false := by
  cases t.rowFixed with
  | false => exact t.isAlpha_behind hrest
  | true =>
    intro c hc
    cases hc
    rfl

theorem dollar_behind (t : CornerText) {rest : List Char} (hrest : AtEnd rest) :
    (t.digits ++ rest).head? ≠ some '$' :=
  head?_ne_dollar (by decide) t.digits_digit hrest.head?_ne

/-- A written corner is read as the corner that it names, up to where it ends. -/
theorem read_chars (t : CornerText) {rest : List Char} (hrest : AtEnd rest) :
    Corner.read (t.chars ++ rest) = t.corner?.map fun corner => (corner, rest) := by
  have hchars : t.chars ++ rest = marker t.columnFixed ++
      (t.letters ++ (marker t.rowFixed ++ (t.digits ++ rest))) := by
    simp only [chars, List.append_assoc]
  unfold Corner.read corner? column?
  rw [hchars]
  by_cases hletters : t.letters = []
  · -- the marker that is taken off first is the row's
    have hmarker := readMarker_marker t.rowFixed (t.dollar_behind hrest)
    rw [if_pos hletters, t.columnFixed_eq hletters, hletters, List.nil_append]
    change (if (readMarker _).2.takeWhile Char.isAlpha = [] then _ else _) = _
    rw [show marker false ++ (marker t.rowFixed ++ (t.digits ++ rest)) =
      marker t.rowFixed ++ (t.digits ++ rest) from rfl, hmarker,
      if_pos (span_of_head? (t.isAlpha_behind hrest)).1, readRow_chars t none false hrest,
      Option.bind_some, Option.map_map]
    rfl
  · obtain ⟨letter, letters, hcons⟩ := List.exists_cons_of_ne_nil hletters
    have hhead : (t.letters ++ (marker t.rowFixed ++ (t.digits ++ rest))).head? ≠ some '$' := by
      have hletter := t.letters_alpha letter (hcons ▸ List.mem_cons_self)
      rw [hcons, List.cons_append, List.head?_cons, ne_eq, Option.some.injEq]
      rintro rfl
      revert hletter
      decide
    obtain ⟨htake, hdrop⟩ := span_of_head? (t.isAlpha_marker hrest)
    rw [readMarker_marker t.columnFixed hhead]
    dsimp only
    rw [List.takeWhile_append_of_pos t.letters_alpha, List.dropWhile_append_of_pos t.letters_alpha,
      htake, hdrop, List.append_nil, if_neg hletters, if_neg hletters]
    cases Column.read t.letters with
    | none => rfl
    | some column =>
      rw [Option.bind_some, Option.map_some, Option.bind_some, t.readRow_chars _ _ hrest,
        Option.map_map]
      rfl

end CornerText

namespace Corner

theorem readUnsigned_digits (limit : Nat) {digits : List Char} (hne : digits ≠ [])
    (hdigits : ∀ c ∈ digits, c.isDigit = true) :
    readUnsigned limit digits =
      if digitsValue 0 digits < limit then some (digitsValue 0 digits) else none := by
  have hplus : digits.head? ≠ some '+' := by
    intro hhead
    have hplus := hdigits '+' (List.mem_of_mem_head? hhead)
    exact absurd hplus (by decide)
  unfold readUnsigned
  split
  next => exact absurd rfl hplus
  next => simp only [hne, List.all_eq_true.2 hdigits, ne_eq, not_false_eq_true, true_and]

/-- Digits name the row that is one less than what they stand for. -/
theorem readRowNumber_eq_some_iff {digits : List Char} {row : Nat} (hne : digits ≠ [])
    (hdigits : ∀ c ∈ digits, c.isDigit = true) :
    readRowNumber digits = some row ↔
      digitsValue 0 digits = row + 1 ∧ row + 1 < indexLimit := by
  unfold readRowNumber
  rw [readUnsigned_digits _ hne hdigits]
  by_cases hlt : digitsValue 0 digits < indexLimit
  · rw [if_pos hlt]
    cases hvalue : digitsValue 0 digits with
    | zero => simp
    | succ n =>
      rw [hvalue] at hlt
      dsimp only
      rw [Option.some.injEq]
      omega
  · rw [if_neg hlt]
    constructor
    · intro h
      cases h
    · intro h
      omega

end Corner

namespace CornerText

open Corner

theorem wellFormed_corner {t : CornerText} {c : Corner} (h : t.corner? = some c) :
    c.WellFormed := by
  unfold corner? at h
  obtain ⟨column, hcolumn, h⟩ := Option.bind_eq_some_iff.1 h
  obtain ⟨row, hrow, rfl⟩ := Option.map_eq_some_iff.1 h
  unfold column? at hcolumn
  unfold row? at hrow
  constructor
  · intro n hn
    split at hcolumn
    next => cases hcolumn; cases hn
    next =>
      obtain ⟨m, hm, rfl⟩ := Option.map_eq_some_iff.1 hcolumn
      cases hn
      exact (Column.read_eq_some_iff.1 hm).2.2.2
  · intro n hn
    split at hrow
    next => cases hrow; cases hn
    next hdigits =>
      obtain ⟨m, hm, rfl⟩ := Option.map_eq_some_iff.1 hrow
      cases hn
      exact ((readRowNumber_eq_some_iff hdigits t.digits_digit).1 hm).2
  · intro hnone
    split at hcolumn
    next hletters => exact t.columnFixed_eq hletters
    next =>
      obtain ⟨m, -, rfl⟩ := Option.map_eq_some_iff.1 hcolumn
      cases hnone
  · intro hnone
    split at hrow
    next hdigits => exact t.rowFixed_eq hdigits
    next =>
      obtain ⟨m, -, rfl⟩ := Option.map_eq_some_iff.1 hrow
      cases hnone

/-- Behind a column, what is read as the row is digits with their marker. -/
theorem exists_of_readRow {letters : List Char} {fixed : Bool}
    (halpha : ∀ c ∈ letters, c.isAlpha = true) (hfixed : letters = [] → fixed = false)
    {column : Option Nat} {s rest : List Char} {c : Corner}
    (h : readRow { column := column, columnFixed := fixed } s = some (c, rest)) :
    ∃ t : CornerText, t.letters = letters ∧ t.columnFixed = fixed ∧
      s = marker t.rowFixed ++ (t.digits ++ rest) ∧
      ∃ row, t.row? = some row ∧ c = ⟨column, row, fixed, t.rowFixed⟩ := by
  unfold readRow at h
  dsimp only at h
  split at h
  next =>
    cases h
    exact ⟨⟨fixed, letters, false, [], halpha, List.forall_mem_nil _, hfixed, fun _ => rfl⟩,
      rfl, rfl, rfl, none, rfl, rfl⟩
  next hdigits =>
    obtain ⟨row, hrow, heq⟩ := Option.map_eq_some_iff.1 h
    cases heq
    refine ⟨⟨fixed, letters, (readMarker s).1, (readMarker s).2.takeWhile Char.isDigit, halpha,
      fun _ hmem => List.mem_takeWhile_imp hmem, hfixed, fun hnone => absurd hnone hdigits⟩,
      rfl, rfl, ?_, some row, ?_, rfl⟩
    · rw [List.takeWhile_append_dropWhile, marker_readMarker]
    · rw [row?, if_neg hdigits, hrow]
      rfl

/-- Whatever corner is read, the text starts with its written form. -/
theorem exists_of_read {s rest : List Char} {c : Corner} (h : Corner.read s = some (c, rest)) :
    ∃ t : CornerText, s = t.chars ++ rest ∧ t.corner? = some c := by
  unfold Corner.read at h
  dsimp only at h
  split at h
  next =>
    obtain ⟨t, hletters, hfixed, hs, row, hrow, rfl⟩ :=
      exists_of_readRow (List.forall_mem_nil _) (fun _ => rfl) h
    refine ⟨t, ?_, ?_⟩
    · rw [hs, chars, hletters, hfixed]
      simp [marker]
    · rw [corner?, column?, if_pos hletters, hrow, hfixed]
      rfl
  next hne =>
    obtain ⟨column, hcolumn, hbehind⟩ := Option.bind_eq_some_iff.1 h
    obtain ⟨t, hletters, hfixed, hs, row, hrow, rfl⟩ :=
      exists_of_readRow (fun _ hmem => List.mem_takeWhile_imp hmem)
        (fun hnone => absurd hnone hne) hbehind
    refine ⟨t, ?_, ?_⟩
    · -- the marker, the letters and what follows them make up the text
      rw [chars, hletters, hfixed, List.append_assoc, List.append_assoc, List.append_assoc, ← hs,
        List.takeWhile_append_dropWhile, marker_readMarker]
    · rw [corner?, column?, if_neg (hletters ▸ hne), hletters, hcolumn, hrow, hfixed]
      rfl

/-- Whether the letters and digits of a corner name a column and a row: both are machine indices,
and there is no row zero. -/
def Fits (t : CornerText) : Prop :=
  Column.lettersValue t.letters < indexLimit ∧
    (t.digits ≠ [] → 0 < digitsValue 0 t.digits ∧ digitsValue 0 t.digits < indexLimit)

instance (t : CornerText) : Decidable t.Fits :=
  inferInstanceAs (Decidable (_ ∧ _))

theorem exists_column?_iff (t : CornerText) :
    (∃ column, t.column? = some column) ↔ Column.lettersValue t.letters < indexLimit := by
  unfold column?
  by_cases hletters : t.letters = []
  · rw [if_pos hletters, hletters]
    exact ⟨fun _ => by decide, fun _ => ⟨none, rfl⟩⟩
  · have hpos := Column.lettersValue_pos hletters
    rw [if_neg hletters]
    constructor
    · rintro ⟨column, h⟩
      obtain ⟨n, hn, -⟩ := Option.map_eq_some_iff.1 h
      obtain ⟨-, -, hvalue, hlt⟩ := Column.read_eq_some_iff.1 hn
      omega
    · intro hlt
      have hread : Column.read t.letters = some (Column.lettersValue t.letters - 1) :=
        Column.read_eq_some_iff.2 ⟨hletters, t.letters_alpha, by omega, by omega⟩
      exact ⟨_, by rw [hread, Option.map_some]⟩

theorem exists_row?_iff (t : CornerText) :
    (∃ row, t.row? = some row) ↔
      (t.digits ≠ [] → 0 < digitsValue 0 t.digits ∧ digitsValue 0 t.digits < indexLimit) := by
  unfold row?
  by_cases hdigits : t.digits = []
  · rw [if_pos hdigits]
    exact ⟨fun _ hne => absurd hdigits hne, fun _ => ⟨none, rfl⟩⟩
  · rw [if_neg hdigits]
    constructor
    · rintro ⟨row, h⟩ -
      obtain ⟨n, hn, -⟩ := Option.map_eq_some_iff.1 h
      have hvalue := (readRowNumber_eq_some_iff hdigits t.digits_digit).1 hn
      omega
    · intro hfits
      obtain ⟨hpos, hlt⟩ := hfits hdigits
      have hread : readRowNumber t.digits = some (digitsValue 0 t.digits - 1) :=
        (readRowNumber_eq_some_iff hdigits t.digits_digit).2 ⟨by omega, by omega⟩
      exact ⟨_, by rw [hread, Option.map_some]⟩

theorem exists_corner?_iff (t : CornerText) : (∃ c, t.corner? = some c) ↔ t.Fits := by
  rw [Fits, ← exists_column?_iff, ← exists_row?_iff]
  unfold corner?
  constructor
  · rintro ⟨c, h⟩
    obtain ⟨column, hcolumn, h⟩ := Option.bind_eq_some_iff.1 h
    obtain ⟨row, hrow, -⟩ := Option.map_eq_some_iff.1 h
    exact ⟨⟨column, hcolumn⟩, row, hrow⟩
  · rintro ⟨⟨column, hcolumn⟩, row, hrow⟩
    exact ⟨_, by rw [hcolumn, Option.bind_some, hrow, Option.map_some]⟩

/-- An axis is there when it is written, and it is fixed when it is marked. -/
theorem axes_corner {t : CornerText} {c : Corner} (h : t.corner? = some c) :
    (c.column = none ↔ t.letters = []) ∧ (c.row = none ↔ t.digits = []) ∧
      c.columnFixed = t.columnFixed ∧ c.rowFixed = t.rowFixed := by
  unfold corner? at h
  obtain ⟨column, hcolumn, h⟩ := Option.bind_eq_some_iff.1 h
  obtain ⟨row, hrow, rfl⟩ := Option.map_eq_some_iff.1 h
  unfold column? at hcolumn
  unfold row? at hrow
  refine ⟨?_, ?_, rfl, rfl⟩
  · by_cases hletters : t.letters = []
    · rw [if_pos hletters] at hcolumn
      cases hcolumn
      simp [hletters]
    · rw [if_neg hletters] at hcolumn
      obtain ⟨n, -, rfl⟩ := Option.map_eq_some_iff.1 hcolumn
      simp [hletters]
  · by_cases hdigits : t.digits = []
    · rw [if_pos hdigits] at hrow
      cases hrow
      simp [hdigits]
    · rw [if_neg hdigits] at hrow
      obtain ⟨n, -, rfl⟩ := Option.map_eq_some_iff.1 hrow
      simp [hdigits]

/-- A corner is empty when neither letters nor digits are written. -/
theorem isEmpty_corner {t : CornerText} {c : Corner} (h : t.corner? = some c) :
    c.isEmpty = true ↔ t.letters = [] ∧ t.digits = [] := by
  obtain ⟨hcolumn, hrow, -, -⟩ := axes_corner h
  rw [Corner.isEmpty, Bool.and_eq_true, Option.isNone_iff_eq_none, Option.isNone_iff_eq_none,
    hcolumn, hrow]

theorem mem_chars {t : CornerText} {c : Char} (h : c ∈ t.chars) :
    c = '$' ∨ c.isAlphanum = true := by
  have hmarker {fixed : Bool} (hc : c ∈ marker fixed) : c = '$' := by
    cases fixed with
    | false => cases hc
    | true => exact List.mem_singleton.1 hc
  rw [chars, List.mem_append, List.mem_append, List.mem_append] at h
  rw [Char.isAlphanum]
  rcases h with hc | hc | hc | hc
  · exact .inl (hmarker hc)
  · rw [t.letters_alpha c hc]
    exact .inr rfl
  · exact .inl (hmarker hc)
  · rw [t.digits_digit c hc, Bool.or_true]
    exact .inr rfl

end CornerText

namespace Corner

/-- The text that a well-formed corner is written as. -/
def text (c : Corner) (h : c.WellFormed) : CornerText where
  columnFixed := c.columnFixed
  letters := match c.column with
    | some column => Column.letters column
    | none => []
  rowFixed := c.rowFixed
  digits := match c.row with
    | some row => decimal (row + 1)
    | none => []
  letters_alpha := by
    split
    · exact fun _ => Column.isAlpha_of_mem_letters
    · exact List.forall_mem_nil _
  digits_digit := by
    split
    · exact fun _ => Number.isDigit_of_mem_decimal
    · exact List.forall_mem_nil _
  columnFixed_eq := by
    intro hnone
    apply h.columnFixed_eq
    split at hnone
    · exact absurd hnone (Column.letters_ne_nil _)
    · assumption
  rowFixed_eq := by
    intro hnone
    apply h.rowFixed_eq
    split at hnone
    · exact absurd hnone Nat.toDigits_ne_nil
    · assumption

variable {c : Corner}

theorem chars_text (h : c.WellFormed) : (c.text h).chars = c.render := by
  have hcolumn : marker (c.text h).columnFixed ++ (c.text h).letters =
      match c.column with
        | some column => marker c.columnFixed ++ Column.letters column
        | none => [] := by
    unfold text
    dsimp only
    split
    · rfl
    next hnone => rw [h.columnFixed_eq hnone]; rfl
  have hrow : marker (c.text h).rowFixed ++ (c.text h).digits =
      match c.row with
        | some row => marker c.rowFixed ++ decimal (row + 1)
        | none => [] := by
    unfold text
    dsimp only
    split
    · rfl
    next hnone => rw [h.rowFixed_eq hnone]; rfl
  rw [CornerText.chars, ← List.append_assoc, hcolumn, hrow]
  rfl

theorem corner?_text (h : c.WellFormed) : (c.text h).corner? = some c := by
  obtain ⟨column, row, columnFixed, rowFixed⟩ := c
  have hcolumn : (text ⟨column, row, columnFixed, rowFixed⟩ h).column? = some column := by
    cases column with
    | none => rfl
    | some column =>
      have hread := Column.read_letters (h.column_lt column rfl)
      unfold CornerText.column? text
      dsimp only
      rw [if_neg (Column.letters_ne_nil column), hread, Option.map_some]
  have hrow : (text ⟨column, row, columnFixed, rowFixed⟩ h).row? = some row := by
    cases row with
    | none => rfl
    | some row =>
      have hne : decimal (row + 1) ≠ [] := Nat.toDigits_ne_nil
      have hread : readRowNumber (decimal (row + 1)) = some row :=
        (readRowNumber_eq_some_iff hne fun _ => Number.isDigit_of_mem_decimal).2
          ⟨Number.digitsValue_decimal _, h.row_lt row rfl⟩
      unfold CornerText.row? text
      dsimp only
      rw [if_neg hne, hread, Option.map_some]
  rw [CornerText.corner?, hcolumn, Option.bind_some, hrow]
  rfl

theorem eq_empty_of_isEmpty (h : c.WellFormed) (hempty : c.isEmpty = true) : c = {} := by
  obtain ⟨column, row, columnFixed, rowFixed⟩ := c
  rw [isEmpty, Bool.and_eq_true, Option.isNone_iff_eq_none, Option.isNone_iff_eq_none] at hempty
  obtain ⟨hcolumn, hrow⟩ := hempty
  have hcolumnFixed := h.columnFixed_eq hcolumn
  have hrowFixed := h.rowFixed_eq hrow
  dsimp only at hcolumn hrow hcolumnFixed hrowFixed
  rw [hcolumn, hrow, hcolumnFixed, hrowFixed]

end Corner
end Spreadsheet
