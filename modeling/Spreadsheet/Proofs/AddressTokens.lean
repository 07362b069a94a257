import Spreadsheet.Proofs.TokenTexts

/-!
Written addresses make address tokens. Main statement: a written address that cannot be a name is
scanned as a whole, if its sheet is in quotes or has name characters only.
-/
namespace Spreadsheet

open Text

namespace Scan

/-- In front of `rest` the scanner takes the text and no more. -/
def Consumes (scan : Scan) (text rest : List Char) : Prop :=
  scan (text ++ rest) = some text.length

variable {first second scan : Scan} {u v rest : List Char}

theorem Consumes.andThen (hfirst : Consumes first u (v ++ rest))
    (hsecond : Consumes second v rest) : Consumes (andThen first second) (u ++ v) rest := by
  unfold Consumes at hfirst hsecond ⊢
  rw [List.append_assoc, andThen_of_some _ hfirst, List.drop_left, hsecond, Option.map_some,
    List.length_append]

/-- The last scanner of a sequence. -/
theorem Consumes.last (h : Consumes scan u rest) :
    Consumes (Scan.andThen scan fun _ => some 0) u rest := by
  have hdone : Consumes (fun _ => some 0) [] rest := rfl
  have hall := Consumes.andThen (u := u) (v := []) h hdone
  rwa [List.append_nil] at hall

theorem Consumes.optional (h : Consumes scan u rest) : Consumes (optional scan) u rest := by
  unfold Consumes Scan.optional
  rw [h, Option.getD_some]

theorem consumes_nothing (h : scan rest = none) : Consumes (optional scan) [] rest := by
  unfold Consumes Scan.optional
  rw [List.nil_append, h]
  rfl

theorem Consumes.orElse (h : Consumes first u rest) (second : Scan) :
    Consumes (orElse first second) u rest :=
  orElse_of_some _ h

theorem consumes_orElse (h : first (u ++ rest) = none) (hsecond : Consumes second u rest) :
    Consumes (orElse first second) u rest :=
  (orElse_of_none _ h).trans hsecond

theorem consumes_char (c : Char) (rest : List Char) : Consumes (char c) [c] rest := by
  unfold Consumes char
  rw [List.singleton_append, one_cons, if_pos (beq_self_eq_true c)]
  rfl

theorem char_eq_none {c : Char} {s : List Char} (h : s.head? ≠ some c) : char c s = none := by
  cases s with
  | nil => rfl
  | cons d s =>
    rw [char, one_cons, if_neg]
    intro hd
    rw [eq_of_beq hd] at h
    exact h rfl

theorem consumes_atLeastOne {p : Char → Bool} (hne : u ≠ []) (hall : ∀ c ∈ u, p c = true)
    (hrest : ∀ c ∈ rest.head?, p c = false) : Consumes (atLeastOne p) u rest :=
  atLeastOne_append rest hne hall (span_of_head? hrest).1

theorem atLeastOne_eq_none {p : Char → Bool} {s : List Char} (h : ∀ c ∈ s.head?, p c = false) :
    atLeastOne p s = none := by
  unfold atLeastOne
  rw [(span_of_head? h).1]

end Scan

namespace TokenRule

open Scan

variable {rest : List Char}

/-! ## Corners -/

theorem consumes_marker (fixed : Bool) (h : rest.head? ≠ some '$') :
    Consumes (optional dollar) (Corner.marker fixed) rest := by
  cases fixed with
  | true => exact (consumes_char '$' rest).optional
  | false => exact consumes_nothing (char_eq_none h)

theorem consumes_row {t : CornerText} (hdigits : t.digits ≠ []) (hrest : Corner.AtEnd rest) :
    Consumes (sequence [optional dollar, digits]) (Corner.marker t.rowFixed ++ t.digits) rest :=
  (consumes_marker t.rowFixed (t.dollar_behind hrest)).andThen
    (consumes_atLeastOne hdigits t.digits_digit hrest.isDigit).last

theorem row_eq_none (hrest : Corner.AtEnd rest) :
    sequence [optional dollar, digits] rest = none := by
  have hmarker : optional dollar rest = some 0 :=
    consumes_nothing (char_eq_none hrest.head?_ne)
  have hdigits : andThen digits (fun _ => some 0) rest = none :=
    andThen_of_none _ (atLeastOne_eq_none hrest.isDigit)
  change andThen (optional dollar) (andThen digits fun _ => some 0) rest = none
  rw [andThen_of_some _ hmarker, List.drop_zero, hdigits]
  rfl

theorem consumes_letters {t : CornerText} (hletters : t.letters ≠ []) (hrest : Corner.AtEnd rest) :
    Consumes letters t.letters (Corner.marker t.rowFixed ++ (t.digits ++ rest)) :=
  consumes_atLeastOne hletters t.letters_alpha (t.isAlpha_marker hrest)

theorem head?_letters {t : CornerText} (hletters : t.letters ≠ []) (s : List Char) :
    (t.letters ++ s).head? ≠ some '$' := by
  obtain ⟨c, letters, hcons⟩ := List.exists_cons_of_ne_nil hletters
  have hc := t.letters_alpha c (hcons ▸ List.mem_cons_self)
  rw [hcons, List.cons_append, List.head?_cons, ne_eq, Option.some.injEq]
  rintro rfl
  exact absurd hc (by decide)

/-- A written corner is scanned up to where it ends. -/
theorem consumes_corner {t : CornerText} (hne : t.letters ≠ [] ∨ t.digits ≠ [])
    (hrest : Corner.AtEnd rest) : Consumes corner t.chars rest := by
  by_cases hletters : t.letters = []
  · have hdigits : t.digits ≠ [] := hne.resolve_left (absurd hletters)
    have hchars : t.chars = Corner.marker t.rowFixed ++ t.digits := by
      rw [CornerText.chars, hletters, t.columnFixed_eq hletters]
      rfl
    rw [hchars]
    refine consumes_orElse ?_ ((consumes_row hdigits hrest).orElse _)
    -- no letters follow the marker
    have hmarker := consumes_marker t.rowFixed (t.dollar_behind hrest)
    have hnone : letters (t.digits ++ rest) = none := atLeastOne_eq_none (t.isAlpha_behind hrest)
    change andThen (optional dollar) (andThen letters _) _ = none
    rw [List.append_assoc, andThen_of_some _ hmarker, List.drop_left, andThen_of_none _ hnone]
    rfl
  · have hrow : Consumes (optional (sequence [optional dollar, digits]))
        (Corner.marker t.rowFixed ++ t.digits) rest := by
      by_cases hdigits : t.digits = []
      · rw [hdigits, t.rowFixed_eq hdigits]
        exact consumes_nothing (row_eq_none hrest)
      · exact (consumes_row hdigits hrest).optional
    have hcolumn := consumes_letters hletters hrest
    rw [← List.append_assoc] at hcolumn
    have hmarker := consumes_marker t.columnFixed
      (head?_letters hletters (Corner.marker t.rowFixed ++ t.digits ++ rest))
    rw [← List.append_assoc] at hmarker
    exact (hmarker.andThen (hcolumn.andThen hrow.last)).orElse _

/-! ## Sheets -/

theorem consumes_quotedSheet {name : List Char} (hne : name ≠ []) (hrest : rest.head? ≠ some '\'') :
    Consumes quotedSheet (enclose '\'' name) rest := by
  have hlength : 0 < (double '\'' name).length := by
    obtain ⟨c, name, rfl⟩ := List.exists_cons_of_ne_nil hne
    rw [double]
    split <;> simp
  have hclosing := closing_double '\'' name rest hrest
  unfold Consumes
  rw [enclose, List.cons_append, List.cons_append, List.append_assoc, List.singleton_append,
    quotedSheet_quote, hclosing, Option.map_some, Option.filter_eq_some_iff, List.length_cons,
    List.length_append, List.length_singleton]
  exact ⟨rfl, decide_eq_true (by omega)⟩

end TokenRule

/-- Whether the name of a sheet, as it is written, is found as one: a name that needs no quotes has
name characters only. -/
def Address.isSpelledSheet (name : String) : Bool :=
  name.toList.all TokenRule.isNameChar || !name.toList.all isPlainSheetChar

theorem SheetText.isSpelled_of_sheet {t : SheetText}
    (h : ∀ name ∈ t.sheet, Address.isSpelledSheet name = true) : t.IsSpelled := by
  cases t with
  | here => trivial
  | quoted name hne => trivial
  | plain name hne hplain =>
    have hname := h _ rfl
    rw [Address.isSpelledSheet, String.toList_ofList, List.all_eq_true.2 hplain, Bool.not_true,
      Bool.or_false] at hname
    exact List.all_eq_true.1 hname

namespace TokenRule

open Scan

/-! ## Addresses -/

variable {t : AddressText}

theorem consumes_last (t : AddressText) :
    Consumes (optional (sequence [char ':', corner])) t.lastChars [] := by
  unfold AddressText.lastChars
  split
  next last hlast =>
    have hcorner : Consumes corner last.chars [] :=
      consumes_corner (t.last_ne last hlast) Corner.atEnd_nil
    exact ((consumes_char ':' (last.chars ++ [])).andThen hcorner.last).optional
  next => exact consumes_nothing rfl

theorem consumes_first (t : AddressText) : Consumes corner t.first.chars (t.lastChars ++ []) := by
  rw [List.append_nil]
  exact consumes_corner t.first_ne t.atEnd_lastChars

theorem consumes_behindSheet (t : AddressText) :
    Consumes behindSheet ('!' :: (t.first.chars ++ t.lastChars)) [] :=
  (consumes_char '!' _).andThen ((consumes_first t).andThen (consumes_last t).last)

/-- Without a `!` there is no sheet to be scanned. -/
theorem sheet_eq_none {first : Scan} {s : List Char} (h : '!' ∉ s) :
    andThen first behindSheet s = none := by
  cases hn : first s with
  | none => exact andThen_of_none _ hn
  | some n =>
    have hnone : behindSheet (s.drop n) = none := by
      cases hk : behindSheet (s.drop n) with
      | none => rfl
      | some k =>
        have hmem := List.mem_of_mem_head? (Option.mem_def.2 (behindSheet_head hk))
        exact absurd (List.mem_of_mem_drop hmem) h
    rw [andThen_of_some _ hn, hnone]
    rfl

theorem consumes_withSheet (hsome : t.sheet.sheet.isSome = true) (hspelled : t.sheet.IsSpelled) :
    Consumes address t.chars [] := by
  have hbehind := consumes_behindSheet t
  have hquote : ('!' :: (t.first.chars ++ t.lastChars) ++ []).head? ≠ some '\'' := by
    intro heq
    exact absurd (Option.some.inj heq) (by decide)
  rw [address_eq, AddressText.chars]
  apply Consumes.orElse
  cases hsheet : t.sheet with
  | here =>
    rw [hsheet] at hsome
    cases hsome
  | quoted name hne =>
    rw [SheetText.chars, List.append_assoc]
    exact ((consumes_quotedSheet hne hquote).orElse _).andThen hbehind
  | plain name hne hplain =>
    have hname : ∀ c ∈ name, isNameChar c = true := by
      rw [hsheet] at hspelled
      exact hspelled
    have hhead : (name ++ ('!' :: (t.first.chars ++ t.lastChars) ++ [])).head? ≠ some '\'' := by
      obtain ⟨c, name, rfl⟩ := List.exists_cons_of_ne_nil hne
      intro heq
      have hc := hname c List.mem_cons_self
      rw [Option.some.inj heq] at hc
      exact absurd hc (by decide)
    have hend : ∀ c ∈ ('!' :: (t.first.chars ++ t.lastChars) ++ []).head?,
        isNameChar c = false := by
      intro c hc
      cases hc
      rfl
    rw [SheetText.chars, List.append_assoc]
    exact (consumes_orElse (quotedSheet_eq_none hhead)
      ((consumes_atLeastOne hne hname hend).orElse _)).andThen hbehind

/-- One cell with a marker in it. -/
theorem consumes_markedCell {corner : CornerText} (hletters : corner.letters ≠ [])
    (hdigits : corner.digits ≠ []) (hfixed : corner.columnFixed = true ∨ corner.rowFixed = true) :
    Consumes sheetless corner.chars [] := by
  have hrange : sequence [TokenRule.corner, char ':', TokenRule.corner] (corner.chars ++ []) =
      none := by
    have hcorner : Consumes TokenRule.corner corner.chars [] :=
      consumes_corner (.inl hletters) Corner.atEnd_nil
    change andThen TokenRule.corner (andThen (char ':') _) _ = none
    rw [andThen_of_some _ hcorner, List.append_nil, List.drop_length,
      andThen_of_none _ (char_eq_none (by decide))]
    rfl
  have hcolumn := consumes_letters hletters Corner.atEnd_nil
  have hrow : Consumes digits corner.digits [] :=
    consumes_atLeastOne hdigits corner.digits_digit Corner.atEnd_nil.isDigit
  have hdollar := corner.dollar_behind Corner.atEnd_nil
  apply consumes_orElse hrange
  by_cases hfirst : corner.columnFixed = true
  · -- `$`, letters, a marker or none, digits
    rw [CornerText.chars, hfirst]
    apply Consumes.orElse
    exact (consumes_char '$' _).andThen
      (Consumes.andThen (by rwa [List.append_assoc])
        ((consumes_marker corner.rowFixed hdollar).andThen hrow.last))
  · -- letters, `$`, digits
    have hchars : corner.chars = corner.letters ++ (['$'] ++ corner.digits) := by
      rw [CornerText.chars, eq_false_of_ne_true hfirst, hfixed.resolve_left hfirst]
      rfl
    have hnone :
        sequence [dollar, letters, optional dollar, digits] (corner.chars ++ []) = none := by
      rw [hchars, List.append_assoc]
      exact andThen_of_none _ (char_eq_none (head?_letters hletters _))
    apply consumes_orElse hnone
    rw [hfixed.resolve_left hfirst] at hcolumn
    rw [hchars]
    apply Consumes.orElse
    exact Consumes.andThen (by rwa [List.append_assoc])
      ((consumes_char '$' _).andThen hrow.last)

theorem consumes_sheetless (hmarked : t.last.isSome = true ∨
    (t.first.letters ≠ [] ∧ t.first.digits ≠ [] ∧
      (t.first.columnFixed = true ∨ t.first.rowFixed = true))) :
    Consumes sheetless (t.first.chars ++ t.lastChars) [] := by
  cases hlast : t.last with
  | some last =>
    have hcorner : Consumes corner last.chars [] :=
      consumes_corner (t.last_ne last hlast) Corner.atEnd_nil
    have hfirst := consumes_first t
    rw [AddressText.lastChars, hlast] at hfirst ⊢
    exact (hfirst.andThen ((consumes_char ':' (last.chars ++ [])).andThen hcorner.last)).orElse _
  | none =>
    obtain ⟨hletters, hdigits, hfixed⟩ : t.first.letters ≠ [] ∧ t.first.digits ≠ [] ∧
        (t.first.columnFixed = true ∨ t.first.rowFixed = true) := by
      rw [hlast] at hmarked
      exact hmarked.resolve_left (by decide)
    rw [AddressText.lastChars, hlast, List.append_nil]
    exact consumes_markedCell hletters hdigits hfixed

/-- A written address that cannot be a name is scanned as a whole. -/
theorem consumes_address (hmarked : t.IsMarked) (hspelled : t.sheet.IsSpelled) :
    Consumes address t.chars [] := by
  by_cases hsome : t.sheet.sheet.isSome = true
  · exact consumes_withSheet hsome hspelled
  · have hchars : t.chars = t.first.chars ++ t.lastChars := by
      rw [AddressText.chars]
      cases hsheet : t.sheet with
      | here => rfl
      | plain name hne hplain =>
        rw [hsheet] at hsome
        exact absurd rfl hsome
      | quoted name hne =>
        rw [hsheet] at hsome
        exact absurd rfl hsome
    rw [hchars, address_eq]
    apply consumes_orElse (sheet_eq_none ?_) (consumes_sheetless (hmarked.resolve_left hsome))
    rw [List.append_nil]
    exact t.mark_not_mem_corners

end TokenRule

/-! ## Written forms -/

/-- Whether the written form can be nothing but an address. -/
def Address.IsMarked (a : Address) : Prop :=
  a.sheet.isSome = true ∨ a.isRange = true ∨
    (a.first.column ≠ none ∧ a.first.row ≠ none ∧
      (a.first.columnFixed = true ∨ a.first.rowFixed = true))

theorem AddressText.isMarked_iff {t : AddressText} {a : Address} (hsheet : a.sheet = t.sheet.sheet)
    (hfirst : t.first.corner? = some a.first) (hlast : t.last? = some a.last) :
    t.IsMarked ↔ a.IsMarked := by
  obtain ⟨hcolumn, hrow, hcolumnFixed, hrowFixed⟩ := CornerText.axes_corner hfirst
  have hrange : t.last.isSome = true ↔ a.isRange = true := by
    rw [← isEmpty_last hlast, Address.isRange, Bool.not_eq_true']
  rw [IsMarked, Address.IsMarked, hsheet, hrange, ne_eq, ne_eq, ← hcolumn, ← hrow, hcolumnFixed,
    hrowFixed]

namespace Address

/-- An address that is written as nothing else makes one token, if its sheet is found. -/
theorem WellFormed.readsWhole {a : Address} (h : a.WellFormed) (hmarked : a.IsMarked)
    (hspelled : ∀ name ∈ a.sheet, isSpelledSheet name = true) :
    Grammar.formula.ReadsWhole .address a.renderChars := by
  obtain ⟨t, hchars, hsheet, hfirst, hlast, -⟩ := h.exists_text
  rw [← hsheet] at hspelled
  have hscan := TokenRule.consumes_address ((t.isMarked_iff hsheet.symm hfirst hlast).2 hmarked)
    (SheetText.isSpelled_of_sheet hspelled)
  unfold Scan.Consumes at hscan
  rw [List.append_nil] at hscan
  rw [← hchars]
  apply Grammar.readsWhole_of_firstMatch? t.head?_chars
  -- addresses are looked for first
  simp only [Grammar.firstMatch?, Grammar.rules, List.cons_append, List.findSome?_cons, hscan,
    Option.map_some]

end Address
end Spreadsheet
