import Spreadsheet.Proofs.TokenTexts
import Spreadsheet.Text.Case

/-!
Name tokens. A name is a letter or an underscore with name characters and dots behind it, and it
makes one token by itself unless it is, or starts like, one of the two keywords. Case makes no
difference to that. Main statement: the text of an identifier token makes an identifier by itself.
-/
namespace Spreadsheet

open Text

namespace Text

/-! ## ASCII -/

theorem toLower_lt {c : Char} (h : c.toNat < 128) : c.toLower.toNat < 128 :=
  forall_ascii (P := fun c => c.toLower.toNat < 128) (by decide) h

theorem toUpper_lt {c : Char} (h : c.toNat < 128) : c.toUpper.toNat < 128 :=
  forall_ascii (P := fun c => c.toUpper.toNat < 128) (by decide) h

theorem toLower_toUpper {c : Char} (h : c.toNat < 128) : c.toUpper.toLower = c.toLower :=
  forall_ascii (P := fun c => c.toUpper.toLower = c.toLower) (by decide) h

theorem toUpper_toLower {c : Char} (h : c.toNat < 128) : c.toLower.toUpper = c.toUpper :=
  forall_ascii (P := fun c => c.toLower.toUpper = c.toUpper) (by decide) h

theorem isWordChar_toLower {c : Char} (h : c.toNat < 128) :
    isWordChar c.toLower = isWordChar c :=
  forall_ascii (P := fun c => isWordChar c.toLower = isWordChar c) (by decide) h

theorem lowerAfter_ascii {before s : List Char} (h : ∀ c ∈ s, c.toNat < 128) :
    lowerAfter before s = s.map Char.toLower := by
  induction s generalizing before with
  | nil => rfl
  | cons c s ih =>
    obtain ⟨hc, hs⟩ := List.forall_mem_cons.1 h
    have hsigma : c ≠ 'Σ' := by
      rintro rfl
      exact absurd hc (by decide)
    rw [lowerAfter, if_neg hsigma, lowerChar, if_pos hc, ih hs]
    rfl

theorem toList_lower {s : String} (h : ∀ c ∈ s.toList, c.toNat < 128) :
    (lower s).toList = s.toList.map Char.toLower := by
  rw [lower, String.toList_ofList, lowerAfter_ascii h]

theorem flatMap_upperChar {s : List Char} (h : ∀ c ∈ s, c.toNat < 128) :
    s.flatMap upperChar = s.map Char.toUpper := by
  induction s with
  | nil => rfl
  | cons c s ih =>
    obtain ⟨hc, hs⟩ := List.forall_mem_cons.1 h
    rw [List.flatMap_cons, upperChar, if_pos hc, ih hs]
    rfl

theorem toList_upper {s : String} (h : ∀ c ∈ s.toList, c.toNat < 128) :
    (upper s).toList = s.toList.map Char.toUpper := by
  rw [upper, String.toList_ofList, flatMap_upperChar h]

/-- The blanks outside ASCII. -/
def wideBlanks : List (Nat × Nat) :=
  [(0x85, 0x85), (0xA0, 0xA0), (0x1680, 0x1680), (0x2000, 0x200A), (0x2028, 0x2029),
    (0x202F, 0x202F), (0x205F, 0x205F), (0x3000, 0x3000)]

theorem wordRanges_apart {word blank : Nat × Nat} (hword : word ∈ wordRanges)
    (hblank : blank ∈ wideBlanks) : word.2 < blank.1 ∨ blank.2 < word.1 := by
  have hall : (wordRanges.all fun word => wideBlanks.all fun blank =>
      Nat.blt word.2 blank.1 || Nat.blt blank.2 word.1) = true := by
    decide +kernel
  have hapart := List.all_eq_true.1 (List.all_eq_true.1 hall word hword) blank hblank
  simpa only [Bool.or_eq_true, Nat.blt_eq] using hapart

/-- No blank is part of a word. -/
theorem isWordChar_of_isBlank {c : Char} (h : isBlank c = true) : isWordChar c = false := by
  by_cases hascii : c.toNat < 128
  · exact forall_ascii (P := fun c => isBlank c = true → isWordChar c = false) (by decide) hascii h
  · have hwide : ∃ blank ∈ wideBlanks, blank.1 ≤ c.toNat ∧ c.toNat ≤ blank.2 := by
      simp only [isBlank, Bool.or_eq_true, Bool.and_eq_true, decide_eq_true_eq, beq_iff_eq] at h
      simp only [wideBlanks, List.mem_cons, List.not_mem_nil, or_false, exists_eq_or_imp,
        exists_eq_left]
      omega
    obtain ⟨blank, hblank, hfirst, hlast⟩ := hwide
    rw [isWordChar, if_neg hascii, inRanges, List.any_eq_false]
    intro word hword
    have hapart := wordRanges_apart hword hblank
    simp only [Bool.and_eq_true, decide_eq_true_eq, not_and]
    omega

end Text

namespace TokenRule

open Scan

/-! ## Keywords -/

theorem anyCase_cons (target : Char) (w : List Char) :
    anyCase (target :: w) = andThen (one (isCaseOf target)) (anyCase w) :=
  rfl

theorem anyCase_cons_eq_some {target c : Char} {w s : List Char} {n : Nat}
    (h : anyCase (target :: w) (c :: s) = some n) :
    isCaseOf target c = true ∧ ∃ m, anyCase w s = some m ∧ n = m + 1 := by
  rw [anyCase_cons] at h
  by_cases hc : isCaseOf target c = true
  · rw [andThen_of_some (n := 1) _ (by rw [one_cons, if_pos hc])] at h
    obtain ⟨m, hm, rfl⟩ := Option.map_eq_some_iff.1 h
    exact ⟨hc, m, hm, Nat.add_comm 1 m⟩
  · rw [andThen_of_none _ (by rw [one_cons, if_neg hc])] at h
    cases h

theorem anyCase_cons_of_isCaseOf {target c : Char} {w s : List Char} {m : Nat}
    (hc : isCaseOf target c = true) (hm : anyCase w s = some m) :
    anyCase (target :: w) (c :: s) = some (m + 1) := by
  rw [anyCase_cons, andThen_of_some (n := 1) _ (by rw [one_cons, if_pos hc]), List.drop_one,
    List.tail_cons, hm, Option.map_some, Nat.add_comm]

/-- A keyword is found whatever stands behind it. -/
theorem anyCase_append {w s : List Char} {n : Nat} (rest : List Char)
    (h : anyCase w s = some n) : anyCase w (s ++ rest) = some n := by
  induction w generalizing s n with
  | nil => exact h
  | cons target w ih =>
    cases s with
    | nil => cases h
    | cons c s =>
      obtain ⟨hc, m, hm, rfl⟩ := anyCase_cons_eq_some h
      exact anyCase_cons_of_isCaseOf hc (ih hm)

theorem isCaseOf_toLower {target c : Char} (hc : c.toNat < 128) :
    isCaseOf target c.toLower = isCaseOf target c := by
  have hlong : c ≠ 'ſ' := by
    rintro rfl
    exact absurd hc (by decide)
  have hlong' : c.toLower ≠ 'ſ' := by
    intro heq
    have hlt := toLower_lt hc
    rw [heq] at hlt
    exact absurd hlt (by decide)
  have htwice : c.toLower.toLower = c.toLower :=
    forall_ascii (P := fun c => c.toLower.toLower = c.toLower) (by decide) hc
  rw [isCaseOf, isCaseOf, htwice, beq_false_of_ne hlong, beq_false_of_ne hlong']

theorem anyCase_toLower (w : List Char) {s : List Char} (hs : ∀ c ∈ s, c.toNat < 128) :
    anyCase w (s.map Char.toLower) = anyCase w s := by
  induction w generalizing s with
  | nil => rfl
  | cons target w ih =>
    cases s with
    | nil => rfl
    | cons c s =>
      obtain ⟨hc, hs⟩ := List.forall_mem_cons.1 hs
      rw [List.map_cons, anyCase_cons]
      unfold andThen
      rw [one_cons, one_cons, isCaseOf_toLower hc]
      by_cases htarget : isCaseOf target c = true
      · rw [if_pos htarget]
        dsimp only
        rw [List.drop_one, List.drop_one, List.tail_cons, List.tail_cons, ih hs]
      · rw [if_neg htarget]

/-- What is found as a keyword is the keyword, but for its case. -/
theorem toLower_of_anyCase {w s : List Char} {n : Nat} (hs : ∀ c ∈ s, c.toNat < 128)
    (h : anyCase w s = some n) : n ≤ s.length ∧ (s.take n).map Char.toLower = w := by
  induction w generalizing s n with
  | nil =>
    cases h
    exact ⟨Nat.zero_le _, rfl⟩
  | cons target w ih =>
    cases s with
    | nil => cases h
    | cons c s =>
      obtain ⟨hc, hs⟩ := List.forall_mem_cons.1 hs
      obtain ⟨hcase, m, hm, rfl⟩ := anyCase_cons_eq_some h
      obtain ⟨hle, hw⟩ := ih hs hm
      have htarget : c.toLower = target := by
        simp only [isCaseOf, Bool.or_eq_true, Bool.and_eq_true, beq_iff_eq] at hcase
        rcases hcase with heq | ⟨-, rfl⟩
        · exact heq
        · exact absurd hc (by decide)
      rw [List.take_succ_cons, List.map_cons, hw, htarget]
      exact ⟨Nat.succ_le_succ hle, rfl⟩

/-- The keywords. -/
def keywords : List (List Char) :=
  ["true".toList, "false".toList]

/-- A boolean is a keyword that a word ends behind. -/
theorem boolean_eq_some_iff {s : List Char} {n : Nat} :
    boolean s = some n ↔ ∃ w ∈ keywords, anyCase w s = some n ∧ atWordEnd (s.drop n) = true := by
  have hboolean : boolean = andThen (orElse (anyCase "true".toList)
      (orElse (anyCase "false".toList) fun _ => none)) (andThen wordEnd fun _ => some 0) := rfl
  have hend {m : Nat} : (andThen wordEnd (fun _ => some 0) (s.drop m)).map (m + ·) =
      if atWordEnd (s.drop m) then some m else none := by
    unfold andThen wordEnd
    cases atWordEnd (s.drop m) <;> rfl
  have hword {scan : Scan} {m : Nat} (hm : scan s = some m) :
      andThen scan (andThen wordEnd fun _ => some 0) s = some n ↔
        m = n ∧ atWordEnd (s.drop m) = true := by
    rw [andThen_of_some _ hm, hend]
    split <;> simp [*]
  unfold keywords
  simp only [List.mem_cons, List.not_mem_nil, or_false, exists_eq_or_imp, exists_eq_left]
  rw [hboolean]
  cases htrue : anyCase "true".toList s with
  | some m =>
    -- what starts like one keyword does not start like the other
    have hfalse : anyCase "false".toList s = none := by
      cases hfalse : anyCase "false".toList s with
      | none => rfl
      | some k =>
        cases s with
        | nil => cases htrue
        | cons c s =>
          have ht : isCaseOf 't' c = true := (anyCase_cons_eq_some htrue).1
          have hf : isCaseOf 'f' c = true := (anyCase_cons_eq_some hfalse).1
          simp only [isCaseOf, Bool.or_eq_true, Bool.and_eq_true, beq_iff_eq] at ht hf
          simp only [Char.reduceEq, false_and, or_false] at ht hf
          rw [ht] at hf
          exact absurd hf (by decide)
    rw [hword (orElse_of_some _ htrue), hfalse]
    constructor
    · rintro ⟨rfl, hwordEnd⟩
      exact .inl ⟨rfl, hwordEnd⟩
    · rintro (⟨heq, hwordEnd⟩ | ⟨hnone, -⟩)
      · cases heq
        exact ⟨rfl, hwordEnd⟩
      · cases hnone
  | none =>
    cases hfalse : anyCase "false".toList s with
    | some m =>
      rw [hword ((orElse_of_none _ htrue).trans (orElse_of_some _ hfalse))]
      constructor
      · rintro ⟨rfl, hwordEnd⟩
        exact .inr ⟨rfl, hwordEnd⟩
      · rintro (⟨hnone, -⟩ | ⟨heq, hwordEnd⟩)
        · cases hnone
        · cases heq
          exact ⟨rfl, hwordEnd⟩
    | none =>
      rw [andThen_of_none _ ((orElse_of_none _ htrue).trans (orElse_of_none _ hfalse))]
      simp

/-- Case makes no difference to what is a boolean. -/
theorem boolean_toLower {s : List Char} (hs : ∀ c ∈ s, c.toNat < 128) :
    boolean (s.map Char.toLower) = boolean s := by
  have hend (n : Nat) : atWordEnd ((s.map Char.toLower).drop n) = atWordEnd (s.drop n) := by
    rw [← List.map_drop]
    cases hdrop : s.drop n with
    | nil => rfl
    | cons c rest =>
      have hc := hs c (List.mem_of_mem_drop (hdrop ▸ List.mem_cons_self))
      simp only [List.map_cons, atWordEnd, isWordChar_toLower hc]
  apply Option.ext
  intro n
  simp only [boolean_eq_some_iff, anyCase_toLower _ hs, hend]

theorem boolean_toUpper {s : List Char} (hs : ∀ c ∈ s, c.toNat < 128) :
    boolean (s.map Char.toUpper) = boolean s := by
  have hupper : ∀ c ∈ s.map Char.toUpper, c.toNat < 128 := by
    intro c hc
    obtain ⟨d, hd, rfl⟩ := List.mem_map.1 hc
    exact toUpper_lt (hs d hd)
  have hsame : (s.map Char.toUpper).map Char.toLower = s.map Char.toLower := by
    rw [List.map_map]
    exact List.map_congr_left fun c hc => toLower_toUpper (hs c hc)
  rw [← boolean_toLower hupper, hsame, boolean_toLower hs]

/-- Where a word ends behind a text, the text is no boolean by itself if it is none there. -/
theorem boolean_of_append {s rest : List Char} (hrest : atWordEnd rest = true)
    (h : boolean (s ++ rest) = none) : boolean s = none := by
  cases hs : boolean s with
  | none => rfl
  | some n =>
    obtain ⟨w, hw, hcase, hend⟩ := boolean_eq_some_iff.1 hs
    have hle := local_boolean.bounded s n hs
    have hall : boolean (s ++ rest) = some n := by
      refine boolean_eq_some_iff.2 ⟨w, hw, anyCase_append rest hcase, ?_⟩
      rw [List.drop_append_of_le_length hle]
      cases hdrop : s.drop n with
      | nil => exact hrest
      | cons c more =>
        rw [hdrop] at hend
        exact hend
    rw [h] at hall
    cases hall

/-! ## Names -/

/-- A name stays one in upper and in lower case. -/
theorem isName_map {s : List Char} {f : Char → Char}
    (hstart : ∀ n < 128, isNameStart (Char.ofNat n) = true → isNameStart (f (Char.ofNat n)) = true)
    (hpart : ∀ n < 128, isNamePart (Char.ofNat n) = true → isNamePart (f (Char.ofNat n)) = true)
    (h : isName s = true) : isName (s.map f) = true := by
  have hascii := ascii_of_isName h
  cases s with
  | nil => cases h
  | cons c s =>
    obtain ⟨hc, hs⟩ := List.forall_mem_cons.1 hascii
    obtain ⟨hfirst, hrest⟩ := Bool.and_eq_true_iff.1 h
    rw [List.map_cons, isName, Bool.and_eq_true, List.all_map, List.all_eq_true]
    refine ⟨forall_ascii (P := fun c => isNameStart c = true → isNameStart (f c) = true) hstart hc
      hfirst, fun d hd => ?_⟩
    exact forall_ascii (P := fun c => isNamePart c = true → isNamePart (f c) = true) hpart
      (hs d hd) (List.all_eq_true.1 hrest d hd)

theorem isName_toLower {s : List Char} (h : isName s = true) :
    isName (s.map Char.toLower) = true :=
  isName_map (by decide) (by decide) h

theorem isName_toUpper {s : List Char} (h : isName s = true) :
    isName (s.map Char.toUpper) = true :=
  isName_map (by decide) (by decide) h

/-! ## Texts of tokens -/

theorem takes_identifier : Takes (fun w => isName w = true) identifier := by
  refine ((takes_one isNameStart).andThen (takes_many isNamePart).last).mono ?_
  rintro w ⟨-, rest, ⟨c, hc, rfl⟩, hrest, rfl⟩
  exact Bool.and_eq_true_iff.2 ⟨hc, List.all_eq_true.2 hrest⟩

theorem takes_dollarName : Takes (fun w => ∃ name, isName name = true ∧
    (∀ c ∈ name, isNameChar c = true) ∧ w = '$' :: '$' :: name) dollarName := by
  refine ((takes_word "$$".toList).andThen
    ((takes_one isNameStart).andThen (takes_many isNameChar).last)).mono ?_
  rintro w ⟨-, -, rfl, ⟨-, rest, ⟨c, hc, rfl⟩, hrest, rfl⟩, rfl⟩
  have hpart : ∀ d ∈ rest, isNamePart d = true := by
    intro d hd
    rw [isNamePart, hrest d hd, Bool.true_or]
  have hfirst : isNameChar c = true := by
    rw [isNameStart, Bool.or_eq_true] at hc
    rw [isNameChar, Char.isAlphanum]
    rcases hc with halpha | hunderscore
    · simp [halpha]
    · simp [hunderscore]
  refine ⟨c :: rest, ?_, List.forall_mem_cons.2 ⟨hfirst, hrest⟩, rfl⟩
  exact Bool.and_eq_true_iff.2 ⟨hc, List.all_eq_true.2 hpart⟩

theorem identifier_stops {s : List Char} {n : Nat} (h : identifier s = some n) :
    ∀ c ∈ (s.drop n).head?, isNamePart c = false := by
  cases s with
  | nil => cases h
  | cons c s =>
    have hc : isNameStart c = true := by
      by_contra hc
      have hnone : identifier (c :: s) = none := andThen_of_none _ (by rw [one_cons, if_neg hc])
      rw [hnone] at h
      cases h
    rw [identifier_cons s hc, Option.some.injEq] at h
    have hdrop : (c :: s).drop n = s.dropWhile isNamePart := by
      have hleft : (s.takeWhile isNamePart ++ s.dropWhile isNamePart).drop
          (s.takeWhile isNamePart).length = s.dropWhile isNamePart := List.drop_left
      rwa [List.takeWhile_append_dropWhile, ← List.drop_succ_cons, h] at hleft
    intro d hd
    have hhead := List.head?_dropWhile_not isNamePart s
    rw [hdrop] at hd
    rwa [Option.mem_def.1 hd] at hhead

/-- The text starts with a character as `p` says. -/
def Starts (p : Char → Prop) (w : List Char) : Prop :=
  ∃ c rest, w = c :: rest ∧ p c

abbrev StartsAscii : List Char → Prop :=
  Starts fun c => c.toNat < 128

section Starts

variable {p : Char → Prop}

theorem takes_starts_one {q : Char → Bool} (h : ∀ c, q c = true → p c) :
    Takes (Starts p) (one q) := by
  refine (takes_one q).mono ?_
  rintro w ⟨c, hc, rfl⟩
  exact ⟨c, [], rfl, h c hc⟩

theorem takes_starts_word {c : Char} {w : List Char} (hc : p c) :
    Takes (Starts p) (word (c :: w)) := by
  refine (takes_word (c :: w)).mono ?_
  rintro w rfl
  exact ⟨c, _, rfl, hc⟩

theorem takes_starts_andThen {first : Scan} (second : Scan) (h : Takes (Starts p) first) :
    Takes (Starts p) (andThen first second) := by
  have hany : Takes (fun _ => True) second := fun _ _ _ => trivial
  refine (h.andThen hany).mono ?_
  rintro w ⟨-, v, ⟨c, rest, rfl, hc⟩, -, rfl⟩
  exact ⟨c, rest ++ v, rfl, hc⟩

theorem takes_starts_char {c : Char} (hc : p c) : Takes (Starts p) (char c) := by
  apply takes_starts_one
  intro d hd
  rw [eq_of_beq hd]
  exact hc

theorem takes_starts_quoted {q : Char} (hq : p q) : Takes (Starts p) (quoted q) := by
  intro s n h
  cases s with
  | nil => cases h
  | cons c s =>
    rw [quoted_cons] at h
    split at h
    next hc =>
      obtain ⟨m, -, rfl⟩ := Option.map_eq_some_iff.1 h
      exact ⟨c, s.take m, rfl, by rw [hc]; exact hq⟩
    next => cases h

theorem takes_starts_operator (h : ∀ c, "-+*/&^=<>".toList.contains c = true → p c) :
    Takes (Starts p) operator :=
  (takes_starts_word (h '<' (by decide))).orElse ((takes_starts_word (h '>' (by decide))).orElse
    ((takes_starts_word (h '<' (by decide))).orElse ((takes_starts_one h).orElse takes_never)))

end Starts

theorem takes_startsAscii_digits : Takes StartsAscii digits := by
  refine (takes_atLeastOne Char.isDigit).mono ?_
  rintro w ⟨hne, hdigits⟩
  obtain ⟨c, rest, rfl⟩ := List.exists_cons_of_ne_nil hne
  have hbounds : 48 ≤ c.toNat ∧ c.toNat ≤ 57 :=
    Char.isDigit_iff_toNat.1 (hdigits c List.mem_cons_self)
  exact ⟨c, rest, rfl, by omega⟩

theorem takes_startsAscii_keyword {target : Char} (w : List Char)
    (htarget : target ≠ 's' ∧ target.toNat < 128) : Takes StartsAscii (anyCase (target :: w)) := by
  apply takes_starts_andThen
  apply takes_starts_one
  intro c hc
  rw [isCaseOf, beq_false_of_ne htarget.1, Bool.false_and, Bool.or_false, beq_iff_eq] at hc
  unfold Char.toLower at hc
  split at hc
  next hupper =>
    have hletter := letter_of_isAlpha (Bool.or_eq_true_iff.2 (.inl (decide_eq_true hupper)))
    omega
  next => rw [hc]; exact htarget.2

end TokenRule

theorem AddressText.startsAscii_chars (t : AddressText) : TokenRule.StartsAscii t.chars := by
  have hcorner {c : Char} (hc : c ∈ t.first.chars ++ t.lastChars) : c.toNat < 128 := by
    rcases mem_corners hc with rfl | halphanum | ⟨rfl, -⟩
    · decide
    · have hascii := ascii_of_isAlphanum halphanum
      omega
    · decide
  unfold chars
  cases t.sheet with
  | here =>
    obtain ⟨c, rest, heq⟩ := List.exists_cons_of_ne_nil t.first_chars_ne
    refine ⟨c, rest ++ t.lastChars, by rw [heq]; rfl, hcorner ?_⟩
    rw [heq]
    exact List.mem_cons_self
  | quoted name hne => exact ⟨'\'', _, rfl, by decide⟩
  | plain name hne hplain =>
    obtain ⟨c, rest, rfl⟩ := List.exists_cons_of_ne_nil hne
    exact ⟨c, _, rfl, Address.ascii_of_isPlainSheetChar (hplain c List.mem_cons_self)⟩

namespace Grammar

open TokenRule Scan

/-- Every token starts with a character of ASCII. -/
theorem takes_startsAscii {rule : TokenRule} (hrule : rule ∈ formula.rules) :
    Takes StartsAscii rule.scan := by
  have hkeyword (w : List Char) : Takes StartsAscii (anyCase ('t' :: w)) ∧
      Takes StartsAscii (anyCase ('f' :: w)) :=
    ⟨takes_startsAscii_keyword w (by decide), takes_startsAscii_keyword w (by decide)⟩
  simp only [rules, shared, List.cons_append, List.nil_append, List.mem_cons,
    List.not_mem_nil, or_false] at hrule
  rcases hrule with rfl | rfl | rfl | rfl | rfl | rfl | rfl | rfl | rfl | rfl
  · refine takes_address.mono ?_
    rintro w ⟨t, -, -, rfl⟩
    exact t.startsAscii_chars
  · exact (takes_starts_andThen _ takes_startsAscii_digits).orElse
      ((takes_starts_andThen _ (takes_starts_char (by decide))).orElse takes_never)
  · exact takes_starts_quoted (by decide)
  · exact takes_starts_andThen _ ((hkeyword _).1.orElse ((hkeyword _).2.orElse takes_never))
  · exact takes_starts_andThen _ (takes_starts_word (by decide))
  · apply takes_starts_andThen
    apply takes_starts_one
    exact fun c hc => ascii_of_isNamePart (isNamePart_of_isNameStart hc)
  · exact takes_starts_char (by decide)
  · exact takes_starts_char (by decide)
  · exact takes_starts_char (by decide)
  · apply takes_starts_operator
    intro c hc
    have hall : ("-+*/&^=<>".toList.all fun c => decide (c.toNat < 128)) = true := by decide
    exact of_decide_eq_true (List.all_eq_true.1 hall c (List.contains_iff_mem.1 hc))

/-- Behind a token that has taken all the name characters there are, a word ends. -/
theorem atWordEnd_of_tokensFrom {offset : Nat} {rest : List Char} {ts : List Token}
    (h : formula.tokensFrom offset 0 rest = .ok ts)
    (hstop : ∀ c ∈ rest.head?, isNameChar c = false) : atWordEnd rest = true := by
  cases rest with
  | nil => rfl
  | cons c rest =>
    suffices hc : isWordChar c = false by rw [atWordEnd, hc]; rfl
    by_cases hblank : isBlank c = true
    · exact isWordChar_of_isBlank hblank
    · -- what is no blank starts a token
      have hascii : c.toNat < 128 := by
        rw [tokensFrom, if_neg hblank] at h
        cases hmatch : formula.firstMatch? (c :: rest) with
        | none =>
          rw [hmatch] at h
          cases h
        | some found =>
          obtain ⟨rule, hrule, -, hscan⟩ := rule_of_firstMatch? hmatch
          obtain ⟨d, more, htake, hd⟩ := takes_startsAscii hrule _ _ hscan
          have hmem : d ∈ (c :: rest).take found.2 := htake ▸ List.mem_cons_self
          cases hn : found.2 with
          | zero =>
            rw [hn] at htake
            cases htake
          | succ n =>
            rw [hn, List.take_succ_cons] at htake
            cases htake
            exact hd
      rw [isWordChar, if_pos hascii]
      exact hstop c rfl

/-- A rule for tokens of another kind has not matched. -/
theorem findSome?_of_kind_ne {rule : TokenRule} {rest : List TokenRule} {s : List Char}
    {kind : Option TokenKind} {n : Nat}
    (h : (rule :: rest).findSome? (fun rule => (rule.scan s).map fun n => (rule.kind, n)) =
      some (kind, n)) (hkind : rule.kind ≠ kind) :
    rule.scan s = none ∧
      rest.findSome? (fun rule => (rule.scan s).map fun n => (rule.kind, n)) = some (kind, n) := by
  rw [List.findSome?_cons] at h
  cases hscan : rule.scan s with
  | none =>
    rw [hscan] at h
    exact ⟨rfl, h⟩
  | some m =>
    rw [hscan] at h
    cases h
    exact absurd rfl hkind

/-- The text of an identifier token makes an identifier by itself: it is a name, and no keyword is
found in it. -/
theorem name_of_identifier {offset : Nat} {s : List Char} {ts : List Token} {t : Token}
    (h : formula.tokensFrom offset 0 s = .ok ts) (ht : t ∈ ts) (hkind : t.kind = .identifier) :
    isName t.text.toList = true ∧ boolean t.text.toList = none := by
  obtain ⟨w, n, offset', ts', hmatch, htext, hbehind⟩ := exists_of_mem_tokensFrom h t ht
  rw [hkind] at hmatch
  have hscan : identifier w = some n := scan_of_firstMatch? hmatch
  obtain ⟨-, hmatch⟩ := findSome?_of_kind_ne hmatch (by decide)
  obtain ⟨-, hmatch⟩ := findSome?_of_kind_ne hmatch (by decide)
  obtain ⟨-, hmatch⟩ := findSome?_of_kind_ne hmatch (by decide)
  obtain ⟨hboolean, -⟩ := findSome?_of_kind_ne hmatch (by decide)
  have hname : isName (w.take n) = true := takes_identifier w n hscan
  rw [htext, String.toList_ofList]
  refine ⟨hname, boolean_of_append (atWordEnd_of_tokensFrom hbehind fun c hc => ?_) ?_⟩
  · exact (Bool.or_eq_false_iff.1 (identifier_stops hscan c hc)).1
  · rw [List.take_append_drop]
    exact hboolean

end Grammar
end Spreadsheet
