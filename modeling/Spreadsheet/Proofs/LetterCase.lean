import Spreadsheet.Proofs.SpacedTokens
import Spreadsheet.Proofs.WrittenNames

/-!
Scanners and the case of letters. All classes of characters that rules look for have the letters of
ASCII in both cases, so that no rule but the one for `def` can tell two cases of a letter apart; and
in an address only the name of the sheet has a case.
-/
namespace Spreadsheet

open Text

namespace Text

/-! ## Texts that differ in case -/

theorem toLower_of_not_isAlpha {c : Char} (h : c.isAlpha = false) : c.toLower = c := by
  unfold Char.toLower
  split
  next hupper =>
    have halpha : c.isAlpha = true := Bool.or_eq_true_iff.2 (.inl (decide_eq_true hupper))
    rw [halpha] at h
    cases h
  next => rfl

/-- A class that has both cases of a letter or none. -/
def IgnoresCase (p : Char → Bool) : Prop :=
  ∀ c : Char, p c.toLower = p c

theorem ignoresCase_of_ascii {p : Char → Bool}
    (h : ∀ n < 128, p (Char.ofNat n).toLower = p (Char.ofNat n)) : IgnoresCase p := by
  intro c
  by_cases hc : c.toNat < 128
  · exact forall_ascii (P := fun c => p c.toLower = p c) h hc
  · rw [toLower_of_not_isAlpha]
    apply eq_false_of_ne_true
    intro halpha
    exact hc (ascii_of_isAlpha halpha)

theorem ignoresCase_isAlpha : IgnoresCase Char.isAlpha :=
  ignoresCase_of_ascii (by decide)

theorem toLower_eq_iff {c d : Char} (hd : d.isAlpha = false) : c.toLower = d ↔ c = d := by
  constructor
  · rintro rfl
    rw [ignoresCase_isAlpha c] at hd
    exact (toLower_of_not_isAlpha hd).symm
  · rintro rfl
    exact toLower_of_not_isAlpha hd

theorem ignoresCase_eq {d : Char} (hd : d.isAlpha = false) : IgnoresCase (· == d) := by
  intro c
  rw [Bool.eq_iff_iff, beq_iff_eq, beq_iff_eq]
  exact toLower_eq_iff hd

theorem IgnoresCase.comp {p : Char → Bool} (hp : IgnoresCase p) : p ∘ Char.toLower = p :=
  funext hp

theorem utf8Size_toLower (c : Char) : c.toLower.utf8Size = c.utf8Size := by
  by_cases hc : c.isAlpha = true
  · exact forall_ascii (P := fun c => c.toLower.utf8Size = c.utf8Size) (by decide)
      (ascii_of_isAlpha hc)
  · rw [toLower_of_not_isAlpha (eq_false_of_ne_true hc)]

/-- The second text is the first one but for the case of letters of ASCII. -/
def Alike (s s' : List Char) : Prop :=
  s'.map Char.toLower = s.map Char.toLower

instance (s s' : List Char) : Decidable (Alike s s') :=
  inferInstanceAs (Decidable (_ = _))

namespace Alike

variable {s s' front back : List Char} {c : Char}

theorem symm (h : Alike s s') : Alike s' s :=
  Eq.symm h

theorem exists_cons (h : Alike (c :: s) s') :
    ∃ c' rest, s' = c' :: rest ∧ c'.toLower = c.toLower ∧ Alike s rest :=
  List.map_eq_cons_iff.1 h

theorem exists_append (h : Alike (front ++ back) s') :
    ∃ front' back', s' = front' ++ back' ∧ Alike front front' ∧ Alike back back' := by
  unfold Alike at h
  rw [List.map_append] at h
  exact List.map_eq_append_iff.1 h

theorem length (h : Alike s s') : s'.length = s.length := by
  have hlength := congrArg List.length h
  rwa [List.length_map, List.length_map] at hlength

theorem byteLength (h : Alike s s') : Text.byteLength s' = Text.byteLength s := by
  induction s generalizing s' with
  | nil => rw [List.map_eq_nil_iff.1 h]
  | cons c s ih =>
    obtain ⟨c', rest, rfl, hc, hrest⟩ := h.exists_cons
    rw [byteLength_cons, byteLength_cons, ih hrest, ← utf8Size_toLower c', hc, utf8Size_toLower]

/-- Where there are no letters, nothing differs. -/
theorem eq (h : Alike s s') (hs : ∀ c ∈ s, c.isAlpha = false) : s' = s := by
  induction s generalizing s' with
  | nil => exact List.map_eq_nil_iff.1 h
  | cons c s ih =>
    obtain ⟨hc, hs⟩ := List.forall_mem_cons.1 hs
    obtain ⟨c', rest, rfl, hsame, hrest⟩ := h.exists_cons
    rw [toLower_of_not_isAlpha hc, toLower_eq_iff hc] at hsame
    rw [hsame, ih hrest hs]

/-- Names that differ in case are the same name. -/
theorem lower_eq (h : Alike s s') (hs : ∀ c ∈ s, c.toNat < 128) (hs' : ∀ c ∈ s', c.toNat < 128) :
    lower (String.ofList s') = lower (String.ofList s) := by
  rw [← String.toList_inj, toList_lower (by rwa [String.toList_ofList]),
    toList_lower (by rwa [String.toList_ofList]), String.toList_ofList, String.toList_ofList]
  exact h

end Alike

end Text

namespace Scan

/-! ## Scanners -/

/-- A scanner that cannot tell the cases of a letter apart. -/
def IgnoresCase (scan : Scan) : Prop :=
  ∀ s : List Char, scan (s.map Char.toLower) = scan s

theorem IgnoresCase.eq {scan : Scan} (h : IgnoresCase scan) {s s' : List Char}
    (hs : Alike s s') : scan s' = scan s := by
  rw [← h s', hs, h s]

variable {p : Char → Bool} {first second scan : Scan}

theorem ignoresCase_one (hp : Text.IgnoresCase p) : IgnoresCase (one p) := by
  intro s
  cases s with
  | nil => rfl
  | cons c s => rw [List.map_cons, one_cons, one_cons, hp c]

theorem ignoresCase_char {c : Char} (hc : c.isAlpha = false) : IgnoresCase (char c) :=
  ignoresCase_one (ignoresCase_eq hc)

theorem ignoresCase_many (hp : Text.IgnoresCase p) : IgnoresCase (many p) := by
  intro s
  unfold many
  rw [List.takeWhile_map, hp.comp, List.length_map]

theorem ignoresCase_atLeastOne (hp : Text.IgnoresCase p) : IgnoresCase (atLeastOne p) := by
  intro s
  unfold atLeastOne
  rw [List.takeWhile_map, hp.comp]
  cases s.takeWhile p with
  | nil => rfl
  | cons c matched => exact congrArg some (List.length_map Char.toLower)

theorem ignoresCase_times (hp : Text.IgnoresCase p) (n : Nat) : IgnoresCase (times p n) := by
  intro s
  unfold times
  rw [← List.map_take, List.length_map, List.all_map, hp.comp]

theorem ignoresCase_word {w : List Char} (hw : w.all (fun c => !c.isAlpha) = true) :
    IgnoresCase (word w) := by
  intro s
  unfold word
  suffices hsame : w.isPrefixOf (s.map Char.toLower) = w.isPrefixOf s by rw [hsame]
  induction w generalizing s with
  | nil => rfl
  | cons d w ih =>
    rw [List.all_cons, Bool.and_eq_true, Bool.not_eq_true'] at hw
    cases s with
    | nil => rfl
    | cons c s =>
      have hd : (d == c.toLower) = (d == c) := by
        rw [Bool.eq_iff_iff, beq_iff_eq, beq_iff_eq, eq_comm, toLower_eq_iff hw.1, eq_comm]
      rw [List.map_cons, List.isPrefixOf_cons_cons, List.isPrefixOf_cons_cons, ih hw.2, hd]

theorem ignoresCase_andThen (hfirst : IgnoresCase first) (hsecond : IgnoresCase second) :
    IgnoresCase (andThen first second) := by
  intro s
  unfold andThen
  rw [hfirst s]
  cases first s with
  | none => rfl
  | some n =>
    dsimp only
    rw [← List.map_drop, hsecond]

theorem ignoresCase_orElse (hfirst : IgnoresCase first) (hsecond : IgnoresCase second) :
    IgnoresCase (orElse first second) := by
  intro s
  unfold orElse
  rw [hfirst s, hsecond s]

theorem ignoresCase_optional (h : IgnoresCase scan) : IgnoresCase (optional scan) := by
  intro s
  unfold optional
  rw [h s]

theorem ignoresCase_done : IgnoresCase fun _ => some 0 :=
  fun _ => rfl

theorem ignoresCase_never : IgnoresCase fun _ => none :=
  fun _ => rfl

theorem ignoresCase_isWordChar : Text.IgnoresCase isWordChar :=
  ignoresCase_of_ascii (by decide)

theorem ignoresCase_wordEnd : IgnoresCase wordEnd := by
  intro s
  cases s with
  | nil => rfl
  | cons c s =>
    unfold wordEnd
    rw [List.map_cons, atWordEnd, atWordEnd, ignoresCase_isWordChar c]

theorem closing_toLower {q : Char} (hq : q.isAlpha = false) (s : List Char) :
    closing q (s.map Char.toLower) = closing q s := by
  fun_induction closing q s with
  | case1 => rfl
  | case2 more n hn ih =>
    rw [List.map_cons, List.map_cons, toLower_of_not_isAlpha hq, closing, if_pos rfl]
    rw [if_pos rfl, ih, hn]
  | case3 more hnone ih =>
    rw [List.map_cons, List.map_cons, toLower_of_not_isAlpha hq, closing, if_pos rfl]
    rw [if_pos rfl, ih, hnone]
  | case4 b more hb =>
    rw [List.map_cons, List.map_cons, toLower_of_not_isAlpha hq, closing, if_pos rfl]
    rw [if_neg (mt (toLower_eq_iff hq).1 hb)]
  | case5 =>
    rw [List.map_cons, List.map_nil, toLower_of_not_isAlpha hq, closing, if_pos rfl]
  | case6 a rest hne ih =>
    rw [List.map_cons, closing.eq_def]
    simp only [if_neg (mt (toLower_eq_iff hq).1 hne), ih]

theorem ignoresCase_quoted {q : Char} (hq : q.isAlpha = false) : IgnoresCase (quoted q) := by
  intro s
  cases s with
  | nil => rfl
  | cons c s =>
    rw [List.map_cons, quoted_cons, quoted_cons, closing_toLower hq]
    simp only [toLower_eq_iff hq]

theorem ignoresCase_isCaseOf (target : Char) : Text.IgnoresCase (isCaseOf target) := by
  intro c
  by_cases hc : c.isAlpha = true
  · exact TokenRule.isCaseOf_toLower (ascii_of_isAlpha hc)
  · rw [toLower_of_not_isAlpha (eq_false_of_ne_true hc)]

theorem ignoresCase_anyCase (w : List Char) : IgnoresCase (anyCase w) := by
  induction w with
  | nil => exact ignoresCase_done
  | cons target w ih => exact ignoresCase_andThen (ignoresCase_one (ignoresCase_isCaseOf target)) ih

end Scan

namespace TokenRule

open Scan

/-! ## Rules -/

theorem ignoresCase_isDigit : Text.IgnoresCase Char.isDigit :=
  ignoresCase_of_ascii (by decide)

theorem ignoresCase_isNameStart : Text.IgnoresCase isNameStart :=
  ignoresCase_of_ascii (by decide)

theorem ignoresCase_isNameChar : Text.IgnoresCase isNameChar :=
  ignoresCase_of_ascii (by decide)

theorem ignoresCase_isNamePart : Text.IgnoresCase isNamePart :=
  ignoresCase_of_ascii (by decide)

theorem ignoresCase_corner : IgnoresCase corner := by
  have hdollar : IgnoresCase (optional dollar) :=
    ignoresCase_optional (ignoresCase_char (by decide))
  have hrow : IgnoresCase (sequence [optional dollar, digits]) :=
    ignoresCase_andThen hdollar (ignoresCase_andThen (ignoresCase_atLeastOne ignoresCase_isDigit)
      ignoresCase_done)
  have hcolumn : IgnoresCase (sequence [optional dollar, letters,
      optional (sequence [optional dollar, digits])]) :=
    ignoresCase_andThen hdollar (ignoresCase_andThen (ignoresCase_atLeastOne ignoresCase_isAlpha)
      (ignoresCase_andThen (ignoresCase_optional hrow) ignoresCase_done))
  exact ignoresCase_orElse hcolumn (ignoresCase_orElse hrow ignoresCase_never)

theorem ignoresCase_quotedSheet : IgnoresCase quotedSheet := by
  intro s
  unfold quotedSheet
  rw [ignoresCase_quoted (by decide) s]

theorem ignoresCase_address : IgnoresCase address := by
  have hletters : IgnoresCase letters := ignoresCase_atLeastOne ignoresCase_isAlpha
  have hdigits : IgnoresCase digits := ignoresCase_atLeastOne ignoresCase_isDigit
  have hdollar : IgnoresCase dollar := ignoresCase_char (by decide)
  have hcolon : IgnoresCase (char ':') := ignoresCase_char (by decide)
  have hsheet : IgnoresCase (choice [quotedSheet, atLeastOne isNameChar]) :=
    ignoresCase_orElse ignoresCase_quotedSheet
      (ignoresCase_orElse (ignoresCase_atLeastOne ignoresCase_isNameChar) ignoresCase_never)
  have hlast : IgnoresCase (sequence [char ':', corner]) :=
    ignoresCase_andThen hcolon (ignoresCase_andThen ignoresCase_corner ignoresCase_done)
  refine ignoresCase_orElse ?_ (ignoresCase_orElse ?_ (ignoresCase_orElse ?_
    (ignoresCase_orElse ?_ ignoresCase_never)))
  · exact ignoresCase_andThen hsheet (ignoresCase_andThen (ignoresCase_char (by decide))
      (ignoresCase_andThen ignoresCase_corner
        (ignoresCase_andThen (ignoresCase_optional hlast) ignoresCase_done)))
  · exact ignoresCase_andThen ignoresCase_corner hlast
  · exact ignoresCase_andThen hdollar (ignoresCase_andThen hletters
      (ignoresCase_andThen (ignoresCase_optional hdollar)
        (ignoresCase_andThen hdigits ignoresCase_done)))
  · exact ignoresCase_andThen hletters (ignoresCase_andThen hdollar
      (ignoresCase_andThen hdigits ignoresCase_done))

theorem ignoresCase_number : IgnoresCase number := by
  have hdigits : IgnoresCase digits := ignoresCase_atLeastOne ignoresCase_isDigit
  have hpoint : IgnoresCase (sequence [char '.', digits]) :=
    ignoresCase_andThen (ignoresCase_char (by decide))
      (ignoresCase_andThen hdigits ignoresCase_done)
  exact ignoresCase_orElse (ignoresCase_andThen hdigits
    (ignoresCase_andThen (ignoresCase_optional hpoint) ignoresCase_done))
    (ignoresCase_orElse hpoint ignoresCase_never)

theorem ignoresCase_boolean : IgnoresCase boolean :=
  ignoresCase_andThen (ignoresCase_orElse (ignoresCase_anyCase _)
    (ignoresCase_orElse (ignoresCase_anyCase _) ignoresCase_never))
    (ignoresCase_andThen ignoresCase_wordEnd ignoresCase_done)

theorem ignoresCase_identifier : IgnoresCase identifier :=
  ignoresCase_andThen (ignoresCase_one ignoresCase_isNameStart)
    (ignoresCase_andThen (ignoresCase_many ignoresCase_isNamePart) ignoresCase_done)

theorem ignoresCase_operator : IgnoresCase operator :=
  ignoresCase_orElse (ignoresCase_word (by decide)) (ignoresCase_orElse (ignoresCase_word (by decide))
    (ignoresCase_orElse (ignoresCase_word (by decide))
      (ignoresCase_orElse (ignoresCase_one (ignoresCase_of_ascii (by decide))) ignoresCase_never)))

theorem ignoresCase_date : IgnoresCase date := by
  have hdigits := ignoresCase_times ignoresCase_isDigit
  have hdash : IgnoresCase (char '-') := ignoresCase_char (by decide)
  exact ignoresCase_andThen (hdigits 4) (ignoresCase_andThen hdash (ignoresCase_andThen (hdigits 2)
    (ignoresCase_andThen hdash (ignoresCase_andThen (hdigits 2)
      (ignoresCase_andThen ignoresCase_wordEnd ignoresCase_done)))))

/-- Only the rule for `def` looks at the case of letters. -/
theorem ignoresCase_rule {g : Grammar} {rule : TokenRule} (hrule : rule ∈ g.rules)
    (hkind : rule.kind ≠ some .define) : rule.scan.IgnoresCase := by
  rcases mem_rules hrule with hformula | ⟨-, honly⟩
  · simp only [Grammar.rules, shared, List.cons_append, List.nil_append, List.mem_cons,
      List.not_mem_nil, or_false] at hformula
    rcases hformula with rfl | rfl | rfl | rfl | rfl | rfl | rfl | rfl | rfl | rfl
    · exact ignoresCase_address
    · exact ignoresCase_number
    · exact ignoresCase_quoted (by decide)
    · exact ignoresCase_boolean
    · exact ignoresCase_andThen (ignoresCase_word (by decide))
        (ignoresCase_andThen (ignoresCase_one ignoresCase_isNameStart)
          (ignoresCase_andThen (ignoresCase_many ignoresCase_isNameChar) ignoresCase_done))
    · exact ignoresCase_identifier
    · exact ignoresCase_char (by decide)
    · exact ignoresCase_char (by decide)
    · exact ignoresCase_char (by decide)
    · exact ignoresCase_operator
  · simp only [onlyDefinitions, List.mem_cons, List.not_mem_nil, or_false] at honly
    rcases honly with rfl | rfl | rfl | rfl
    · exact ignoresCase_andThen (ignoresCase_char (by decide)) (ignoresCase_andThen
        (ignoresCase_many (ignoresCase_of_ascii (by decide))) ignoresCase_done)
    · exact ignoresCase_date
    · exact absurd rfl hkind
    · exact ignoresCase_word (by decide)

end TokenRule

/-! ## Addresses -/

namespace AddressText

/-- The address with the letters of its corners in lower case. -/
def lowerCorners (t : AddressText) : AddressText where
  sheet := t.sheet
  first := t.first.toLower
  last := t.last.map CornerText.toLower
  first_ne := t.first_ne.imp_left (mt List.map_eq_nil_iff.1)
  last_ne := by
    intro corner hcorner
    obtain ⟨last, hlast, rfl⟩ := Option.map_eq_some_iff.1 hcorner
    exact (t.last_ne last hlast).imp_left (mt List.map_eq_nil_iff.1)

theorem chars_lowerCorners (t : AddressText) :
    t.lowerCorners.chars = t.sheet.chars ++ (t.first.chars ++ t.lastChars).map Char.toLower := by
  have hlast : t.lowerCorners.lastChars = t.lastChars.map Char.toLower := by
    obtain ⟨sheet, first, last, hfirst, hlast⟩ := t
    cases last with
    | none => rfl
    | some last => exact congrArg (':' :: ·) last.chars_toLower
  rw [chars, hlast, List.map_append, ← CornerText.chars_toLower]
  rfl

theorem readChars_lowerCorners (t : AddressText) :
    Address.readChars t.lowerCorners.chars = Address.readChars t.chars := by
  have hfirst : t.lowerCorners.first.corner? = t.first.corner? := t.first.corner?_toLower
  have hlast : t.lowerCorners.last? = t.last? := by
    obtain ⟨sheet, first, last, hfirst, hlast⟩ := t
    cases last with
    | none => rfl
    | some last => exact last.corner?_toLower
  have hsome : t.lowerCorners.last.isSome = t.last.isSome := Option.isSome_map
  apply Option.ext
  intro a
  rw [readChars_eq_some_iff, readChars_eq_some_iff, hfirst, hlast, hsome]
  rfl

/-- Addresses that differ in case behind the name of the sheet are the same address. -/
theorem readChars_alike {t t' : AddressText} (hsheet : t'.sheet.chars = t.sheet.chars)
    (hcorners : Alike (t.first.chars ++ t.lastChars) (t'.first.chars ++ t'.lastChars)) :
    Address.readChars t'.chars = Address.readChars t.chars := by
  rw [← readChars_lowerCorners t', ← readChars_lowerCorners t, chars_lowerCorners,
    chars_lowerCorners, hsheet, hcorners]

end AddressText
end Spreadsheet
