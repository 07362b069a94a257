import Spreadsheet.Proofs.AddressTokens
import Spreadsheet.Proofs.TokenLayout

/-!
Tokens that stand by themselves. Wherever a break follows it, the text of a token makes the same
token again: what is looked for in front of it is told by characters that it does not have, and a
keyword is found in a name only where a word ends. Main statement: the texts of the tokens of a
text, with single blanks between them, make the same tokens in the same order.
-/
namespace Spreadsheet

open Text

/-- A token without its place. -/
def Token.word (t : Token) : TokenKind × String :=
  (t.kind, t.text)

theorem Text.atWordEnd_of_atBreak {rest : List Char} (h : AtBreak rest) :
    atWordEnd rest = true := by
  have hword : Unbroken isWordChar := by decide
  cases rest with
  | nil => rfl
  | cons c rest =>
    rw [atWordEnd, hword.eq_false (h c rfl)]
    rfl

namespace Scan

variable {scan : Scan} {w rest : List Char}

theorem Takes.left {P : List Char → Prop} (h : Takes P scan)
    (hscan : scan (w ++ rest) = some w.length) : P w := by
  have hw := h _ _ hscan
  rwa [List.take_left] at hw

theorem takes_wordEnd : Takes (· = []) wordEnd := by
  intro s n h
  unfold wordEnd at h
  split at h
  · cases h
    rfl
  · cases h

theorem local_times {p : Char → Bool} (hp : Unbroken p) (n : Nat) : Local (times p n) where
  bounded := bounded_times p n
  append := by
    intro s rest hrest
    unfold times
    by_cases hle : n ≤ s.length
    · rw [List.take_append_of_le_length hle]
    · have hshort : ¬((s.take n).length = n ∧ (s.take n).all p = true) := by
        rw [List.length_take]
        omega
      rw [if_neg hshort, if_neg]
      -- the break would have to be one of the characters
      rintro ⟨hlength, hall⟩
      cases rest with
      | nil =>
        rw [List.append_nil] at hlength
        rw [List.length_take] at hlength
        omega
      | cons c rest =>
        obtain ⟨k, hk⟩ : ∃ k, n - s.length = k + 1 := ⟨n - s.length - 1, by omega⟩
        rw [List.take_append, hk, List.take_succ_cons, List.all_append, List.all_cons,
          hp.eq_false (hrest c rfl), Bool.false_and, Bool.and_false] at hall
        cases hall

theorem consumes_times {p : Char → Bool} (hall : ∀ c ∈ w, p c = true) (rest : List Char) :
    Consumes (times p w.length) w rest := by
  unfold Consumes times
  rw [List.take_left, if_pos ⟨rfl, List.all_eq_true.2 hall⟩]

theorem consumes_one {p : Char → Bool} {c : Char} (hc : p c = true) (rest : List Char) :
    Consumes (one p) [c] rest := by
  unfold Consumes
  rw [List.singleton_append, one_cons, if_pos hc]
  rfl

theorem consumes_many {p : Char → Bool} (hall : ∀ c ∈ w, p c = true)
    (hrest : ∀ c ∈ rest.head?, p c = false) : Consumes (many p) w rest := by
  unfold Consumes many
  rw [List.takeWhile_append_of_pos hall, (span_of_head? hrest).1, List.append_nil]

theorem consumes_word (w rest : List Char) : Consumes (word w) w rest := by
  unfold Consumes word
  rw [if_pos (List.isPrefixOf_iff_prefix.2 (List.prefix_append w rest))]

theorem consumes_wordEnd (hrest : atWordEnd rest = true) : Consumes wordEnd [] rest := by
  unfold Consumes wordEnd
  rw [List.nil_append, if_pos hrest]
  rfl

end Scan

namespace TokenRule

open Scan

/-! ## Rules that come earlier -/

/-- The rules of definitions that come before all others. -/
def leading : Grammar → List TokenRule
  | .definitions => [⟨none, comment⟩, ⟨some .date, date⟩]
  | .formula => []

/-- The rules of both grammars that come before the shared ones. -/
def literals : List TokenRule :=
  [⟨some .address, address⟩, ⟨some .number, number⟩, ⟨some .text, quoted '"'⟩,
    ⟨some .boolean, boolean⟩]

/-- The rules of definitions that stand between those of both grammars. -/
def reserved : Grammar → List TokenRule
  | .definitions => [⟨some .define, define⟩, ⟨some .assign, assign⟩]
  | .formula => []

theorem rules_eq (g : Grammar) : g.rules = leading g ++ (literals ++ (reserved g ++ shared)) := by
  cases g <;> rfl

theorem local_date : Local date := by
  have hdigits (n : Nat) : Local (times Char.isDigit n) := local_times (by decide) n
  have hdash : Local (char '-') := local_char (by decide)
  exact local_andThen (hdigits 4) (local_andThen hdash (local_andThen (hdigits 2)
    (local_andThen hdash (local_andThen (hdigits 2) (local_andThen local_wordEnd local_done)))))

theorem local_define : Local define :=
  local_andThen (local_word (by decide)) (local_andThen local_wordEnd local_done)

theorem needs_date : Needs (· == '-') date :=
  needs_second _ (needs_first _ (needs_one fun _ hc => hc))

theorem date_eq_none {w rest : List Char} (hw : '-' ∉ w) (hrest : AtBreak rest) :
    date (w ++ rest) = none := by
  rw [local_date.append hrest]
  cases hdate : date w with
  | none => rfl
  | some n =>
    obtain ⟨c, hc, hdash⟩ := needs_date w n hdate
    rw [eq_of_beq hdash] at hc
    exact absurd hc hw

theorem date_cons {c : Char} (s : List Char) (hc : c.isDigit = false) : date (c :: s) = none := by
  apply andThen_of_none
  unfold times
  rw [if_neg]
  rw [List.take_succ_cons, List.all_cons, hc, Bool.false_and]
  rintro ⟨-, h⟩
  cases h

theorem comment_eq_none {c : Char} (s : List Char) (hc : c ≠ '#') : comment (c :: s) = none :=
  andThen_of_none _ (by rw [char, one_cons, if_neg (by simpa using hc)])

theorem assign_eq_none {c : Char} (s : List Char) (hc : c ≠ ':') : assign (c :: s) = none := by
  unfold assign word
  rw [if_neg]
  intro h
  change (':' == c && ['='].isPrefixOf s) = true at h
  exact hc (eq_of_beq (Bool.and_eq_true_iff.1 h).1).symm

section Leading

variable {g : Grammar} {c : Char} {w rest : List Char}

theorem leading_cons (s : List Char) (hc : c ≠ '#') (hdigit : c.isDigit = false) :
    ∀ rule ∈ leading g, rule.scan (c :: s) = none := by
  cases g with
  | formula => exact List.forall_mem_nil _
  | definitions =>
    exact List.forall_mem_cons.2 ⟨comment_eq_none s hc,
      List.forall_mem_cons.2 ⟨date_cons s hdigit, List.forall_mem_nil _⟩⟩

theorem leading_word (hne : w ≠ []) (hw : ∀ c ∈ w, c ≠ '#' ∧ c ≠ '-') (hrest : AtBreak rest) :
    ∀ rule ∈ leading g, rule.scan (w ++ rest) = none := by
  obtain ⟨c, s, rfl⟩ := List.exists_cons_of_ne_nil hne
  have hdate : date (c :: s ++ rest) = none := date_eq_none (fun h => (hw '-' h).2 rfl) hrest
  cases g with
  | formula => exact List.forall_mem_nil _
  | definitions =>
    exact List.forall_mem_cons.2 ⟨comment_eq_none _ (hw c List.mem_cons_self).1,
      List.forall_mem_cons.2 ⟨hdate, List.forall_mem_nil _⟩⟩

end Leading

/-! ## Texts of tokens -/

theorem takes_number : Takes (fun w => (∃ whole fraction, Number.Decimal whole fraction w) ∨
    ∃ fraction, fraction ≠ [] ∧ (∀ c ∈ fraction, c.isDigit = true) ∧ w = '.' :: fraction)
    number := by
  have hdigits := takes_atLeastOne Char.isDigit
  have hpoint := (takes_char '.').andThen hdigits.last
  refine Takes.orElse ((hdigits.andThen hpoint.optional.last).mono ?_)
    (Takes.orElse (hpoint.mono ?_) takes_never)
  · rintro w ⟨whole, -, ⟨hne, hwhole⟩, ⟨-, fraction, rfl, ⟨hne', hfraction⟩, rfl⟩ | rfl, rfl⟩
    · exact .inl ⟨whole, fraction, .point hne hne'
        (List.forall_mem_append.2 ⟨hwhole, hfraction⟩)⟩
    · rw [List.append_nil]
      exact .inl ⟨whole, [], .whole hne hwhole⟩
  · rintro w ⟨-, fraction, rfl, ⟨hne, hfraction⟩, rfl⟩
    exact .inr ⟨fraction, hne, hfraction, rfl⟩

theorem number_point {fraction : List Char} (hne : fraction ≠ [])
    (hdigits : ∀ c ∈ fraction, c.isDigit = true) :
    number ('.' :: fraction) = some ('.' :: fraction).length := by
  have hbehind : ∀ c ∈ ([] : List Char).head?, c.isDigit = false := by
    intro c hc
    cases hc
  have hpoint : Consumes (sequence [char '.', digits]) (['.'] ++ fraction) [] :=
    (consumes_char '.' _).andThen (consumes_atLeastOne hne hdigits hbehind).last
  have hall : Consumes number (['.'] ++ fraction) [] :=
    consumes_orElse rfl (hpoint.orElse _)
  unfold Consumes at hall
  rwa [List.append_nil] at hall

theorem anyCase_left {keyword w rest : List Char}
    (h : anyCase keyword (w ++ rest) = some w.length) : anyCase keyword w = some w.length := by
  induction keyword generalizing w with
  | nil => exact h
  | cons target keyword ih =>
    cases w with
    | nil =>
      cases rest with
      | nil => exact h
      | cons c rest =>
        obtain ⟨-, m, -, hm⟩ := anyCase_cons_eq_some h
        cases hm
    | cons c w =>
      obtain ⟨hc, m, hm, heq⟩ := anyCase_cons_eq_some h
      cases heq
      exact anyCase_cons_of_isCaseOf hc (ih hm)

theorem takes_date : Takes (fun w => ∃ year month day : List Char,
    (year.length = 4 ∧ ∀ c ∈ year, c.isDigit = true) ∧
    (month.length = 2 ∧ ∀ c ∈ month, c.isDigit = true) ∧
    (day.length = 2 ∧ ∀ c ∈ day, c.isDigit = true) ∧
    w = year ++ (['-'] ++ (month ++ (['-'] ++ (day ++ []))))) date := by
  have hdigits := takes_times Char.isDigit
  refine ((hdigits 4).andThen ((takes_char '-').andThen ((hdigits 2).andThen
    ((takes_char '-').andThen ((hdigits 2).andThen takes_wordEnd.last))))).mono ?_
  rintro w ⟨year, -, hyear, ⟨-, -, rfl, ⟨month, -, hmonth, ⟨-, -, rfl, ⟨day, -, hday, rfl, rfl⟩, rfl⟩,
    rfl⟩, rfl⟩, rfl⟩
  exact ⟨year, month, day, hyear, hmonth, hday, rfl⟩

/-- The characters that make an operator by themselves. -/
def operators : List Char :=
  ['-', '+', '*', '/', '&', '^', '=', '<', '>']

theorem takes_operator : Takes (fun w => w ∈ ["<=".toList, ">=".toList, "<>".toList] ∨
    ∃ c ∈ operators, w = [c]) operator := by
  have hall : "-+*/&^=<>".toList = operators := by decide
  refine Takes.orElse ((takes_word _).mono ?_) (Takes.orElse ((takes_word _).mono ?_)
    (Takes.orElse ((takes_word _).mono ?_) (Takes.orElse ((takes_one _).mono ?_) takes_never)))
  · rintro w rfl
    exact .inl (by decide)
  · rintro w rfl
    exact .inl (by decide)
  · rintro w rfl
    exact .inl (by decide)
  · rintro w ⟨c, hc, rfl⟩
    exact .inr ⟨c, hall ▸ List.contains_iff_mem.1 hc, rfl⟩

theorem takes_define : Takes (· = "def".toList) define := by
  refine ((takes_word "def".toList).andThen takes_wordEnd.last).mono ?_
  rintro w ⟨-, -, rfl, rfl, rfl⟩
  rfl

theorem define_eq_some_iff {s : List Char} {n : Nat} : define s = some n ↔
    ∃ more, s = "def".toList ++ more ∧ atWordEnd more = true ∧ n = "def".toList.length := by
  have hscan : define = andThen (word "def".toList) (andThen wordEnd fun _ => some 0) := rfl
  constructor
  · intro h
    by_cases hstart : "def".toList <+: s
    · obtain ⟨more, rfl⟩ := hstart
      refine ⟨more, rfl, ?_⟩
      rw [hscan, andThen_of_some _ (consumes_word "def".toList more), List.drop_left] at h
      unfold andThen wordEnd at h
      cases hend : atWordEnd more with
      | false =>
        rw [hend] at h
        cases h
      | true =>
        rw [hend] at h
        cases h
        exact ⟨rfl, rfl⟩
    · rw [hscan, andThen_of_none _ (by
        rw [word, if_neg (mt List.isPrefixOf_iff_prefix.1 hstart)])] at h
      cases h
  · rintro ⟨more, rfl, hend, rfl⟩
    have hall : Consumes define ("def".toList ++ []) more :=
      (consumes_word "def".toList _).andThen (consumes_wordEnd hend).last
    rwa [List.append_nil] at hall

/-- Where a word ends behind a text, the text has no keyword in front if it has none there. -/
theorem define_of_append {s rest : List Char} (hrest : atWordEnd rest = true)
    (h : define (s ++ rest) = none) : define s = none := by
  cases hs : define s with
  | none => rfl
  | some n =>
    obtain ⟨more, rfl, hend, -⟩ := define_eq_some_iff.1 hs
    have hboth : atWordEnd (more ++ rest) = true := by
      cases more with
      | nil => exact hrest
      | cons c more => exact hend
    rw [List.append_assoc, define_eq_some_iff.2 ⟨_, rfl, hboth, rfl⟩] at h
    cases h

/-- A word of name characters, in which a long s may stand for a small one. -/
theorem address_text_word {w rest : List Char} (hne : w ≠ [])
    (hw : ∀ c ∈ w, isNamePart c = true ∨ c = 'ſ') (hrest : AtBreak rest) :
    address (w ++ rest) = none ∧ quoted '"' (w ++ rest) = none := by
  have hmark : ∀ c ∈ w, isAddressMark c = false := by
    intro c hc
    rcases hw c hc with hpart | rfl
    · exact isAddressMark_of_isNamePart hpart
    · decide
  obtain ⟨c, s, rfl⟩ := List.exists_cons_of_ne_nil hne
  have hhead : c ≠ '\'' ∧ c ≠ '"' := by
    rcases hw c List.mem_cons_self with hpart | rfl
    · constructor <;> (rintro rfl; exact absurd hpart (by decide))
    · decide
  constructor
  · rw [address_append (by simpa using hhead.1) hrest, address_eq_none hmark]
  · rw [List.cons_append, quoted_cons, if_neg hhead.2]

theorem leading_name {g : Grammar} {w rest : List Char} (hne : w ≠ [])
    (hw : ∀ c ∈ w, isNamePart c = true ∨ c = 'ſ') (hrest : AtBreak rest) :
    ∀ rule ∈ leading g, rule.scan (w ++ rest) = none := by
  apply leading_word hne _ hrest
  intro c hc
  rcases hw c hc with hpart | rfl
  · constructor <;> (rintro rfl; exact absurd hpart (by decide))
  · decide

end TokenRule

/-- An address that does not start with a quote has none of the characters that start comments and
divide dates. -/
theorem AddressText.mem_chars {t : AddressText} (hspelled : t.sheet.IsSpelled)
    (hquote : t.chars.head? ≠ some '\'') : ∀ c ∈ t.chars, c ≠ '#' ∧ c ≠ '-' := by
  have hcorners : ∀ c ∈ t.first.chars ++ t.lastChars, c ≠ '#' ∧ c ≠ '-' := by
    intro c hc
    rcases mem_corners hc with rfl | halphanum | ⟨rfl, -⟩
    · decide
    · constructor <;> (rintro rfl; exact absurd halphanum (by decide))
    · decide
  unfold chars at hquote ⊢
  cases hsheet : t.sheet with
  | here => exact hcorners
  | quoted name hne =>
    rw [hsheet] at hquote
    exact absurd rfl hquote
  | plain name hne hplain =>
    rw [hsheet] at hspelled
    rw [SheetText.chars, List.append_assoc, List.forall_mem_append]
    refine ⟨fun c hc => ?_, List.forall_mem_cons.2 ⟨by decide, hcorners⟩⟩
    have hname : TokenRule.isNameChar c = true := hspelled c hc
    constructor <;> (rintro rfl; exact absurd hname (by decide))

namespace Grammar

open TokenRule Scan

/-! ## Tokens that stand alone -/

theorem firstMatch?_of_first {g : Grammar} {before : List TokenRule} {rule : TokenRule}
    {s : List Char} {n : Nat} (hrules : before ++ [rule] <+: g.rules)
    (hbefore : ∀ rule ∈ before, rule.scan s = none) (hscan : rule.scan s = some n) :
    g.firstMatch? s = some (rule.kind, n) := by
  obtain ⟨behind, hrules⟩ := hrules
  have hnone : before.findSome? (fun rule => (rule.scan s).map fun n => (rule.kind, n)) = none := by
    rw [List.findSome?_eq_none_iff]
    intro rule hrule
    rw [hbefore rule hrule, Option.map_none]
  rw [firstMatch?, ← hrules, List.append_assoc, List.findSome?_append, hnone, Option.none_or,
    List.singleton_append, List.findSome?_cons, hscan, Option.map_some]

theorem scan_eq_none_of_firstMatch? {g : Grammar} {before : List TokenRule} {s : List Char}
    {kind : Option TokenKind} {n : Nat} (hrules : before <+: g.rules)
    (hkinds : ∀ rule ∈ before, rule.kind ≠ kind) (h : g.firstMatch? s = some (kind, n)) :
    ∀ rule ∈ before, rule.scan s = none := by
  obtain ⟨behind, hrules⟩ := hrules
  rw [firstMatch?, ← hrules, List.findSome?_append] at h
  cases hfound : before.findSome? (fun rule => (rule.scan s).map fun n => (rule.kind, n)) with
  | none =>
    intro rule hrule
    exact Option.map_eq_none_iff.1 (List.findSome?_eq_none_iff.1 hfound rule hrule)
  | some found =>
    rw [hfound, Option.some_or, Option.some.injEq] at h
    obtain ⟨rule, hrule, hmatch⟩ := List.exists_of_findSome?_eq_some hfound
    obtain ⟨m, -, heq⟩ := Option.map_eq_some_iff.1 hmatch
    rw [h] at heq
    exact absurd (congrArg Prod.fst heq) (hkinds rule hrule)

/-- Wherever a break follows it, the text makes one token of the kind. -/
structure Stands (g : Grammar) (kind : TokenKind) (w : List Char) : Prop where
  first : w.head?.map isBlank = some false
  found : ∀ {rest : List Char}, AtBreak rest →
    g.firstMatch? (w ++ rest) = some (some kind, w.length)

section Kinds

variable {g : Grammar} {w after : List Char}

theorem stands_address (hscan : address (w ++ after) = some w.length) : g.Stands .address w := by
  obtain ⟨t, hmarked, hspelled, rfl⟩ := takes_address.left hscan
  have halone : address t.chars = some t.chars.length := by
    have hall := consumes_address hmarked hspelled
    unfold Consumes at hall
    rwa [List.append_nil] at hall
  refine ⟨t.head?_chars, fun {rest} hrest => ?_⟩
  have hrules : leading g ++ [⟨some .address, address⟩] <+: g.rules := by
    cases g <;> exact ⟨_, rfl⟩
  by_cases hquote : t.chars.head? = some '\''
  · obtain ⟨s, hs⟩ := List.head?_eq_some_iff.1 hquote
    rw [hs] at halone ⊢
    exact firstMatch?_of_first hrules (leading_cons _ (by decide) (by decide))
      (address_quote_append halone hrest)
  · have hne : t.chars ≠ [] := by
      intro hnil
      have hfirst := t.head?_chars
      rw [hnil] at hfirst
      cases hfirst
    refine firstMatch?_of_first hrules (leading_word hne (t.mem_chars hspelled hquote) hrest) ?_
    exact (address_append hquote hrest).trans halone

theorem stands_number (hscan : number (w ++ after) = some w.length) : g.Stands .number w := by
  have hw : number w = some w.length ∧ w ≠ [] ∧ ∀ c ∈ w, c.isDigit = true ∨ c = '.' := by
    rcases takes_number.left hscan with ⟨whole, fraction, hdecimal⟩ | ⟨fraction, hne, hdigits, rfl⟩
    · exact ⟨number_decimal hdecimal, decimal_chars hdecimal⟩
    · exact ⟨number_point hne hdigits, List.cons_ne_nil _ _,
        List.forall_mem_cons.2 ⟨.inr rfl, fun c hc => .inl (hdigits c hc)⟩⟩
  obtain ⟨halone, hne, hchars⟩ := hw
  have hparts : ∀ c ∈ w, isNamePart c = true ∨ c = 'ſ' := by
    intro c hc
    rcases hchars c hc with hdigit | rfl
    · exact .inl (by rw [isNamePart, isNameChar, Char.isAlphanum, hdigit, Bool.or_true]; rfl)
    · exact .inl rfl
  refine ⟨?_, fun {rest} hrest => ?_⟩
  · obtain ⟨c, s, rfl⟩ := List.exists_cons_of_ne_nil hne
    rcases hchars c List.mem_cons_self with hdigit | rfl
    · exact congrArg some
        (isBlank_of_isAlphanum (by rw [Char.isAlphanum, hdigit, Bool.or_true]))
    · rfl
  · have hrules : leading g ++ [⟨some .address, address⟩] ++ [⟨some .number, number⟩] <+:
        g.rules := by
      cases g <;> exact ⟨_, rfl⟩
    obtain ⟨haddress, -⟩ := address_text_word hne hparts hrest
    refine firstMatch?_of_first hrules (List.forall_mem_append.2 ⟨leading_name hne hparts hrest,
      List.forall_mem_singleton.2 haddress⟩) ?_
    exact (local_number.append hrest).trans halone

theorem exists_enclose_of_quoted (hscan : quoted '"' (w ++ after) = some w.length) :
    ∃ said, w = enclose '"' said := by
  cases w with
  | nil =>
    cases after with
    | nil => cases hscan
    | cons c after =>
      rw [List.nil_append, quoted_cons] at hscan
      split at hscan
      · obtain ⟨n, -, hn⟩ := Option.map_eq_some_iff.1 hscan
        cases hn
      · cases hscan
  | cons c w =>
    rw [List.cons_append, quoted_cons] at hscan
    split at hscan
    next hc =>
      obtain ⟨n, hclosing, hn⟩ := Option.map_eq_some_iff.1 hscan
      obtain ⟨said, hsaid⟩ := exists_of_closing hclosing
      rw [List.length_cons, Nat.add_right_cancel_iff] at hn
      rw [hn, List.take_left] at hsaid
      exact ⟨said, by rw [hc, hsaid, enclose, List.cons_append]⟩
    next => cases hscan

theorem stands_text (hscan : quoted '"' (w ++ after) = some w.length) : g.Stands .text w := by
  obtain ⟨said, rfl⟩ := exists_enclose_of_quoted hscan
  refine ⟨rfl, fun {rest} hrest => ?_⟩
  have hquote : rest.head? ≠ some '"' := by
    intro hquote
    exact absurd (hrest '"' hquote) (by decide)
  have hfound : quoted '"' (enclose '"' said ++ rest) = some (enclose '"' said).length := by
    rw [enclose, List.cons_append, List.cons_append, quoted_cons, if_pos rfl, List.append_assoc,
      List.singleton_append, closing_double '"' said rest hquote, Option.map_some,
      List.length_cons, List.length_append]
    rfl
  have hrules : leading g ++ [⟨some .address, address⟩, ⟨some .number, number⟩] ++
      [⟨some .text, quoted '"'⟩] <+: g.rules := by
    cases g <;> exact ⟨_, rfl⟩
  refine firstMatch?_of_first hrules (List.forall_mem_append.2
    ⟨leading_cons _ (by decide) (by decide), ?_⟩) hfound
  exact List.forall_mem_cons.2 ⟨rfl, List.forall_mem_singleton.2 rfl⟩

theorem exists_cons_of_keyword {keyword : List Char} (hkeyword : keyword ∈ keywords)
    (hcase : anyCase keyword w = some w.length) : ∃ c s, w = c :: s ∧ c.isAlpha = true := by
  -- neither keyword starts with a letter that a long s is a case of
  obtain ⟨first, more, rfl, hletter, hlong⟩ : ∃ first more, keyword = first :: more ∧
      first.isAlpha = true ∧ isCaseOf first 'ſ' = false := by
    simp only [keywords, List.mem_cons, List.not_mem_nil, or_false] at hkeyword
    rcases hkeyword with rfl | rfl
    · exact ⟨'t', "rue".toList, rfl, by decide, by decide⟩
    · exact ⟨'f', "alse".toList, rfl, by decide, by decide⟩
  cases w with
  | nil => cases hcase
  | cons c s =>
    have hfirst : isCaseOf first c = true := (anyCase_cons_eq_some hcase).1
    rcases isAlpha_of_isCaseOf hletter hfirst with halpha | rfl
    · exact ⟨c, s, rfl, halpha⟩
    · rw [hlong] at hfirst
      cases hfirst

theorem stands_boolean (hscan : boolean (w ++ after) = some w.length) : g.Stands .boolean w := by
  obtain ⟨keyword, hkeyword, hcase, -⟩ := boolean_eq_some_iff.1 hscan
  have halone := anyCase_left hcase
  have hletters : keyword.all Char.isAlpha = true := by
    have hall : (keywords.all fun keyword => keyword.all Char.isAlpha) = true := by decide
    exact List.all_eq_true.1 hall keyword hkeyword
  have hparts : ∀ c ∈ w, isNamePart c = true ∨ c = 'ſ' := by
    have hchars := anyCase_take (p := fun c => isNamePart c || c == 'ſ') (fun target ht c hc => by
      rcases isAlpha_of_isCaseOf (List.all_eq_true.1 hletters target ht) hc with halpha | rfl
      · rw [isNamePart_of_isNameStart (Bool.or_eq_true_iff.2 (.inl halpha)), Bool.true_or]
      · decide) halone
    intro c hc
    rw [List.take_length] at hchars
    simpa using hchars c hc
  obtain ⟨c, s, rfl, hc⟩ := exists_cons_of_keyword hkeyword halone
  have hne : c :: s ≠ [] := List.cons_ne_nil c s
  refine ⟨congrArg some (isBlank_of_isAlphanum (Bool.or_eq_true_iff.2 (.inl hc))),
    fun {rest} hrest => ?_⟩
  have hrules : leading g ++ [⟨some .address, address⟩, ⟨some .number, number⟩,
      ⟨some .text, quoted '"'⟩] ++ [⟨some .boolean, boolean⟩] <+: g.rules := by
    cases g <;> exact ⟨_, rfl⟩
  obtain ⟨haddress, htext⟩ := address_text_word hne hparts hrest
  refine firstMatch?_of_first hrules (List.forall_mem_append.2 ⟨leading_name hne hparts hrest,
    List.forall_mem_cons.2 ⟨haddress, List.forall_mem_cons.2
      ⟨number_name _ (Bool.or_eq_true_iff.2 (.inl hc)), List.forall_mem_singleton.2 htext⟩⟩⟩) ?_
  refine boolean_eq_some_iff.2 ⟨keyword, hkeyword, anyCase_append rest halone, ?_⟩
  rw [List.drop_left]
  exact atWordEnd_of_atBreak hrest

theorem stands_date (hg : g = .definitions) (hscan : date (w ++ after) = some w.length) :
    g.Stands .date w := by
  obtain ⟨year, month, day, ⟨hyear, hyears⟩, ⟨hmonth, hmonths⟩, ⟨hday, hdays⟩, hw⟩ :=
    takes_date.left hscan
  obtain ⟨c, s, hcons, hc⟩ : ∃ c s, w = c :: s ∧ c.isDigit = true := by
    obtain ⟨c, years, rfl⟩ := List.exists_cons_of_length_eq_add_one hyear
    exact ⟨c, _, hw, hyears c List.mem_cons_self⟩
  refine ⟨?_, fun {rest} hrest => ?_⟩
  · rw [hcons]
    exact congrArg some (isBlank_of_isAlphanum (Bool.or_eq_true_iff.2 (.inr hc)))
  · have hend := consumes_wordEnd (atWordEnd_of_atBreak hrest)
    have hall : Consumes date w rest := by
      have hyears := consumes_times hyears
      have hmonths := consumes_times hmonths
      have hdays := consumes_times hdays
      rw [hyear] at hyears
      rw [hmonth] at hmonths
      rw [hday] at hdays
      rw [hw]
      exact (hyears _).andThen ((consumes_char '-' _).andThen ((hmonths _).andThen
        ((consumes_char '-' _).andThen ((hdays _).andThen hend.last))))
    have hrules : [⟨none, comment⟩] ++ [⟨some .date, date⟩] <+: g.rules := by
      rw [hg]
      exact ⟨_, rfl⟩
    have hcomment : comment (w ++ rest) = none := by
      rw [hcons]
      apply comment_eq_none
      rintro rfl
      exact absurd hc (by decide)
    exact firstMatch?_of_first hrules (List.forall_mem_singleton.2 hcomment) hall

theorem stands_define (hg : g = .definitions) (hscan : define (w ++ after) = some w.length) :
    g.Stands .define w := by
  obtain rfl : w = "def".toList := takes_define.left hscan
  refine ⟨by decide, fun {rest} hrest => ?_⟩
  have hne : "def".toList ≠ [] := by decide
  have hparts : ∀ c ∈ "def".toList, isNamePart c = true ∨ c = 'ſ' := by
    have hall : "def".toList.all isNamePart = true := by decide
    exact fun c hc => .inl (List.all_eq_true.1 hall c hc)
  obtain ⟨haddress, htext⟩ := address_text_word hne hparts hrest
  have hfound := define_eq_some_iff.2 ⟨rest, rfl, atWordEnd_of_atBreak hrest, rfl⟩
  have hrules : leading g ++ literals ++ [⟨some .define, define⟩] <+: g.rules := by
    rw [hg]
    exact ⟨_, rfl⟩
  exact firstMatch?_of_first hrules (List.forall_mem_append.2 ⟨leading_name hne hparts hrest,
    List.forall_mem_cons.2 ⟨haddress, List.forall_mem_cons.2 ⟨rfl, List.forall_mem_cons.2
      ⟨htext, List.forall_mem_singleton.2 rfl⟩⟩⟩⟩) hfound

theorem stands_assign (hg : g = .definitions) (hscan : assign (w ++ after) = some w.length) :
    g.Stands .assign w := by
  obtain rfl : w = ":=".toList := (takes_word ":=".toList).left hscan
  refine ⟨by decide, fun {rest} _ => ?_⟩
  have hrules : leading g ++ (literals ++ [⟨some .define, define⟩]) ++ [⟨some .assign, assign⟩] <+:
      g.rules := by
    rw [hg]
    exact ⟨_, rfl⟩
  refine firstMatch?_of_first hrules (List.forall_mem_append.2
    ⟨leading_cons _ (by decide) (by decide), ?_⟩) (consumes_word ":=".toList rest)
  intro rule hrule
  simp only [literals, List.cons_append, List.nil_append, List.mem_cons, List.not_mem_nil,
    or_false] at hrule
  rcases hrule with rfl | rfl | rfl | rfl | rfl <;> rfl

theorem stands_dollarName (hscan : dollarName (w ++ after) = some w.length) :
    g.Stands .dollarName w := by
  obtain ⟨name, hname, hchars, rfl⟩ := takes_dollarName.left hscan
  refine ⟨rfl, fun {rest} hrest => ?_⟩
  have hall : Consumes dollarName (['$', '$'] ++ name) rest := by
    obtain ⟨c, name, rfl⟩ := List.exists_cons_of_ne_nil (l := name) (by rintro rfl; cases hname)
    obtain ⟨hc, -⟩ := Bool.and_eq_true_iff.1 hname
    have hbreak : Unbroken isNameChar := by decide
    have hmore := (consumes_many (List.forall_mem_cons.1 hchars).2
      fun c hc => hbreak.eq_false (hrest c hc)).last
    exact (consumes_word "$$".toList _).andThen ((consumes_one hc _).andThen hmore)
  have hleading : ∀ rule ∈ leading g, rule.scan ('$' :: '$' :: name ++ rest) = none :=
    leading_cons _ (by decide) (by decide)
  have hrules : leading g ++ (literals ++ reserved g) ++ [⟨some .dollarName, dollarName⟩] <+:
      g.rules := by
    cases g <;> exact ⟨_, rfl⟩
  refine firstMatch?_of_first hrules (List.forall_mem_append.2 ⟨hleading, ?_⟩) hall
  refine List.forall_mem_append.2 ⟨fun rule hrule => ?_, fun rule hrule => ?_⟩
  · simp only [literals, List.mem_cons, List.not_mem_nil, or_false] at hrule
    rcases hrule with rfl | rfl | rfl | rfl <;> rfl
  · cases g with
    | formula => cases hrule
    | definitions =>
      simp only [reserved, List.mem_cons, List.not_mem_nil, or_false] at hrule
      rcases hrule with rfl | rfl <;> rfl

/-- A name in which no keyword is found. -/
theorem stands_name (hname : isName w = true) (hboolean : boolean w = none)
    (hdefine : g = .definitions → define w = none) : g.Stands .identifier w := by
  have hparts : ∀ c ∈ w, isNamePart c = true ∨ c = 'ſ' :=
    fun c hc => .inl (isNamePart_of_mem hname c hc)
  have halone : identifier w = some w.length := by
    cases w with
    | nil => cases hname
    | cons c s =>
      obtain ⟨hc, hs⟩ := Bool.and_eq_true_iff.1 hname
      rw [identifier_cons s hc, List.takeWhile_eq_self_iff.2 (List.all_eq_true.1 hs),
        List.length_cons]
  have hne : w ≠ [] := by
    rintro rfl
    cases hname
  obtain ⟨c, s, rfl⟩ := List.exists_cons_of_ne_nil hne
  obtain ⟨hc, -⟩ := Bool.and_eq_true_iff.1 hname
  refine ⟨?_, fun {rest} hrest => ?_⟩
  · exact congrArg some (forall_ascii (P := fun c => isNameStart c = true → isBlank c = false)
      (by decide) (ascii_of_isNamePart (isNamePart_of_isNameStart hc)) hc)
  · obtain ⟨haddress, htext⟩ := address_text_word hne hparts hrest
    have hrules : leading g ++ (literals ++ (reserved g ++ [⟨some .dollarName, dollarName⟩])) ++
        [⟨some .identifier, identifier⟩] <+: g.rules := by
      cases g <;> exact ⟨_, rfl⟩
    have hliterals : ∀ rule ∈ literals, rule.scan (c :: s ++ rest) = none :=
      List.forall_mem_cons.2 ⟨haddress, List.forall_mem_cons.2 ⟨number_name _ hc,
        List.forall_mem_cons.2 ⟨htext, List.forall_mem_singleton.2
          ((local_boolean.append hrest).trans hboolean)⟩⟩⟩
    have hreserved : ∀ rule ∈ reserved g, rule.scan (c :: s ++ rest) = none := by
      cases g with
      | formula => exact List.forall_mem_nil _
      | definitions =>
        exact List.forall_mem_cons.2 ⟨(local_define.append hrest).trans (hdefine rfl),
          List.forall_mem_singleton.2 (assign_eq_none _ (ne_of_isNameStart hc (by decide)))⟩
    refine firstMatch?_of_first hrules (List.forall_mem_append.2 ⟨leading_name hne hparts hrest,
      List.forall_mem_append.2 ⟨hliterals, List.forall_mem_append.2 ⟨hreserved,
        List.forall_mem_singleton.2 (dollarName_name _ hc)⟩⟩⟩) ?_
    exact (local_identifier.append hrest).trans halone

/-- Nothing is found before the rules for symbols. -/
theorem firstMatch?_symbol {c : Char} (hc : c ∈ '(' :: ')' :: ',' :: operators) (s : List Char) :
    g.firstMatch? (c :: s) = (shared.drop 2).findSome?
      fun rule => (rule.scan (c :: s)).map fun n => (rule.kind, n) := by
  have hleading : ∀ rule ∈ leading g, rule.scan (c :: s) = none := by
    have hall : (('(' :: ')' :: ',' :: operators).all fun c => c != '#' && !c.isDigit) = true := by
      decide
    have hboth := List.all_eq_true.1 hall c hc
    simp only [Bool.and_eq_true, bne_iff_ne, Bool.not_eq_true'] at hboth
    exact leading_cons s hboth.1 hboth.2
  have hnone : (leading g).findSome? (fun rule => (rule.scan (c :: s)).map fun n =>
      (rule.kind, n)) = none := by
    rw [List.findSome?_eq_none_iff]
    intro rule hrule
    rw [hleading rule hrule, Option.map_none]
  rw [firstMatch?, rules_eq, List.findSome?_append, hnone, Option.none_or]
  simp only [operators, List.mem_cons, List.not_mem_nil, or_false] at hc
  rcases hc with rfl | rfl | rfl | rfl | rfl | rfl | rfl | rfl | rfl | rfl | rfl | rfl <;>
    cases g <;> rfl

theorem stands_operator (hscan : operator (w ++ after) = some w.length) :
    g.Stands .operator w := by
  have hw : ∃ c s, w = c :: s ∧ c ∈ operators ∧ operator w = some w.length := by
    rcases takes_operator.left hscan with hmem | ⟨c, hc, rfl⟩
    · simp only [List.mem_cons, List.not_mem_nil, or_false] at hmem
      rcases hmem with rfl | rfl | rfl
      · exact ⟨'<', ['='], rfl, by decide, rfl⟩
      · exact ⟨'>', ['='], rfl, by decide, rfl⟩
      · exact ⟨'<', ['>'], rfl, by decide, rfl⟩
    · have hall : (operators.all fun c => operator [c] == some 1) = true := by decide
      exact ⟨c, [], rfl, hc, eq_of_beq (List.all_eq_true.1 hall c hc)⟩
  obtain ⟨c, s, rfl, hc, halone⟩ := hw
  have hall : (operators.all fun c => !isBlank c && c != '(' && c != ')' && c != ',') = true := by
    decide
  have hnot := List.all_eq_true.1 hall c hc
  simp only [Bool.and_eq_true, Bool.not_eq_true', bne_iff_ne] at hnot
  obtain ⟨⟨⟨hblank, hopening⟩, hclosing⟩, hcomma⟩ := hnot
  refine ⟨congrArg some hblank, fun {rest} hrest => ?_⟩
  have hfound := (local_operator.append (s := c :: s) hrest).trans halone
  have hnone {d : Char} (hd : c ≠ d) : char d (c :: (s ++ rest)) = none :=
    char_eq_none (by simpa using hd)
  rw [List.cons_append] at hfound ⊢
  rw [firstMatch?_symbol (List.mem_cons_of_mem _ (List.mem_cons_of_mem _
    (List.mem_cons_of_mem _ hc)))]
  simp only [shared, List.drop_succ_cons, List.drop_zero, List.findSome?_cons, hnone hopening,
    hnone hclosing, hnone hcomma, hfound, Option.map_none, Option.map_some]

/-- A parenthesis or a comma. -/
theorem stands_symbol {kind : TokenKind} {c : Char}
    (hsymbol : (kind, c) ∈ [(TokenKind.opening, '('), (.closing, ')'), (.comma, ',')]) :
    g.Stands kind [c] := by
  simp only [List.mem_cons, Prod.mk.injEq, List.not_mem_nil, or_false] at hsymbol
  rcases hsymbol with ⟨rfl, rfl⟩ | ⟨rfl, rfl⟩ | ⟨rfl, rfl⟩ <;>
    exact ⟨rfl, fun _ => by
      rw [List.singleton_append, firstMatch?_symbol (by decide)]
      rfl⟩

end Kinds

/-! ## Tokens of a text -/

theorem ascii_of_firstMatch? {g : Grammar} {c : Char} {s : List Char}
    {found : Option TokenKind × Nat} (h : g.firstMatch? (c :: s) = some found) :
    c.toNat < 128 := by
  obtain ⟨rule, hrule, -, hscan⟩ := rule_of_firstMatch? h
  obtain ⟨d, more, htake, hd⟩ := takes_startsAscii_rule hrule _ _ hscan
  cases hn : found.2 with
  | zero =>
    rw [hn] at htake
    cases htake
  | succ n =>
    rw [hn, List.take_succ_cons] at htake
    cases htake
    exact hd

/-- Behind a token that has taken all the name characters there are, a word ends. -/
theorem Cuts.atWordEnd {g : Grammar} {offset : Nat} {s : List Char} {ts : List Token}
    (h : g.Cuts [] offset s ts) (hstop : ∀ c ∈ s.head?, isNameChar c = false) :
    atWordEnd s = true := by
  -- what is no blank is found by some rule
  have hfound {w s : List Char} {kind : Option TokenKind}
      (hstop : ∀ c ∈ (w ++ s).head?, isNameChar c = false)
      (hfirst : w.head?.map isBlank = some false)
      (hmatch : g.firstMatch? (w ++ (s ++ [])) = some (kind, w.length)) :
      Text.atWordEnd (w ++ s) = true := by
    cases w with
    | nil => cases hfirst
    | cons c w =>
      have hascii := ascii_of_firstMatch? hmatch
      have hc : isNameChar c = false := hstop c rfl
      unfold isNameChar at hc
      rw [List.cons_append, Text.atWordEnd, isWordChar, if_pos hascii, hc]
      rfl
  cases h with
  | done => rfl
  | blank hc _ =>
    rw [Text.atWordEnd, isWordChar_of_isBlank hc]
    rfl
  | dropped hfirst hmatch _ => exact hfound hstop hfirst hmatch
  | token hfirst hmatch _ => exact hfound hstop hfirst hmatch

theorem definitions_of_firstMatch? {g : Grammar} {s : List Char} {kind : TokenKind} {n : Nat}
    (h : g.firstMatch? s = some (some kind, n)) (hkind : kind ∈ [.date, .define, .assign]) :
    g = .definitions := by
  cases g with
  | definitions => rfl
  | formula =>
    obtain ⟨rule, hrule, hsame, -⟩ := rule_of_firstMatch? h
    have hothers : ∀ rule ∈ formula.rules, rule.kind ∉ [some .date, some .define, some .assign] := by
      decide
    have hmem := List.mem_map_of_mem (f := some) hkind
    rw [← hsame] at hmem
    exact absurd hmem (hothers rule hrule)

/-- An identifier with the text behind it cut into tokens. -/
theorem stands_identifier {g : Grammar} {offset : Nat} {w after : List Char} {ts : List Token}
    (hmatch : g.firstMatch? (w ++ after) = some (some .identifier, w.length))
    (hbehind : g.Cuts [] offset after ts) : g.Stands .identifier w := by
  have hscan : identifier (w ++ after) = some w.length := scan_of_firstMatch? hmatch
  have hend : Text.atWordEnd after = true := by
    apply hbehind.atWordEnd
    intro c hc
    have hstop := identifier_stops hscan
    rw [List.drop_left] at hstop
    exact (Bool.or_eq_false_iff.1 (hstop c hc)).1
  have hbefore : ∀ rule ∈ leading g ++ (literals ++ reserved g), rule.scan (w ++ after) = none := by
    refine scan_eq_none_of_firstMatch? ?_ ?_ hmatch
    · rw [rules_eq]
      exact ⟨shared, by simp only [List.append_assoc]⟩
    · cases g <;> decide
  apply stands_name (takes_identifier.left hscan)
  · exact boolean_of_append hend (hbefore ⟨some .boolean, boolean⟩ (by simp [literals]))
  · rintro rfl
    exact define_of_append hend (hbefore ⟨some .define, define⟩ (by simp [reserved]))

theorem stands_of_firstMatch? {g : Grammar} {offset : Nat} {kind : TokenKind} {w after : List Char}
    {ts : List Token} (hmatch : g.firstMatch? (w ++ after) = some (some kind, w.length))
    (hbehind : g.Cuts [] offset after ts) : g.Stands kind w := by
  have hscan := scan_of_firstMatch? hmatch
  cases kind with
  | number => exact stands_number hscan
  | text => exact stands_text hscan
  | boolean => exact stands_boolean hscan
  | date => exact stands_date (definitions_of_firstMatch? hmatch (by decide)) hscan
  | address => exact stands_address hscan
  | dollarName => exact stands_dollarName hscan
  | identifier => exact stands_identifier hmatch hbehind
  | define => exact stands_define (definitions_of_firstMatch? hmatch (by decide)) hscan
  | assign => exact stands_assign (definitions_of_firstMatch? hmatch (by decide)) hscan
  | operator => exact stands_operator hscan
  | opening =>
    obtain rfl := (takes_char '(').left hscan
    exact stands_symbol (by decide)
  | closing =>
    obtain rfl := (takes_char ')').left hscan
    exact stands_symbol (by decide)
  | comma =>
    obtain rfl := (takes_char ',').left hscan
    exact stands_symbol (by decide)
  | finish => cases hscan

theorem Cuts.stands {g : Grammar} {offset : Nat} {s : List Char} {ts : List Token}
    (h : g.Cuts [] offset s ts) : ∀ word ∈ ts.map Token.word, g.Stands word.1 word.2.toList := by
  induction h with
  | done => exact List.forall_mem_nil _
  | blank _ _ ih => exact ih
  | dropped _ _ _ ih => exact ih
  | token hfirst hmatch hbehind ih =>
    rw [List.append_nil] at hmatch
    refine List.forall_mem_cons.2 ⟨?_, ih⟩
    rw [Token.word, String.toList_ofList]
    exact stands_of_firstMatch? hmatch hbehind

/-! ## Words with blanks between them -/

/-- Words that stand alone make their tokens, if nothing but a blank follows the last of them. -/
theorem tokensFrom_intercalate {g : Grammar} {words : List (TokenKind × String)}
    (hwords : ∀ word ∈ words, g.Stands word.1 word.2.toList) (offset : Nat) {rest : List Char}
    (hrest : rest ∈ [[], [' ']]) :
    ∃ ts, g.tokensFrom offset 0 ([' '].intercalate (words.map (·.2.toList)) ++ rest) = .ok ts ∧
      ts.map Token.word = words := by
  have hbreak : AtBreak rest ∧ ∀ offset, g.tokensFrom offset 0 rest = .ok [] := by
    simp only [List.mem_cons, List.not_mem_nil, or_false] at hrest
    rcases hrest with rfl | rfl
    · exact ⟨atBreak_nil, fun _ => rfl⟩
    · exact ⟨atBreak_cons [] rfl, fun _ => rfl⟩
  induction words generalizing offset with
  | nil => exact ⟨[], hbreak.2 offset, rfl⟩
  | cons word words ih =>
    obtain ⟨hword, hwords⟩ := List.forall_mem_cons.1 hwords
    have htoken (offset : Nat) : Token.word ⟨word.1, String.ofList word.2.toList, offset⟩ = word := by
      rw [Token.word, String.ofList_toList]
    cases words with
    | nil =>
      refine ⟨[⟨word.1, String.ofList word.2.toList, offset⟩], ?_, ?_⟩
      · rw [List.map_cons, List.map_nil, List.intercalate_singleton,
          tokensFrom_word _ _ hword.first (hword.found hbreak.1), hbreak.2]
        rfl
      · rw [List.map_cons, htoken, List.map_nil]
    | cons next words =>
      obtain ⟨ts, htokens, hts⟩ :=
        ih hwords (offset + byteLength word.2.toList + ' '.utf8Size)
      refine ⟨⟨word.1, String.ofList word.2.toList, offset⟩ :: ts, ?_, ?_⟩
      · rw [List.map_cons, List.intercalate_cons_of_ne_nil (by simp), List.append_assoc,
          List.append_assoc, List.singleton_append,
          tokensFrom_word _ _ hword.first (hword.found (atBreak_cons _ rfl)),
          tokensFrom_blank _ _ _ (by decide), htokens]
        rfl
      · rw [List.map_cons, htoken, hts]

theorem tokenize_intercalate {g : Grammar} {words : List (TokenKind × String)}
    (hwords : ∀ word ∈ words, g.Stands word.1 word.2.toList) {input : String} (rest : List Char)
    (hrest : rest ∈ [[], [' ']])
    (hinput : input.toList = [' '].intercalate (words.map (·.2.toList)) ++ rest) :
    ∃ ts, tokenize g input = .ok ts ∧ ts.map Token.word = words ++ [(.finish, "")] := by
  obtain ⟨ts, htokens, hts⟩ := tokensFrom_intercalate hwords 0 hrest
  refine ⟨ts ++ [finish input.toList], ?_, ?_⟩
  · rw [tokenize, tokens, hinput, htokens]
  · rw [List.map_append, hts]
    rfl

/-- The texts of tokens, joined by single blanks, make tokens of the same kinds and texts in the
same order. It makes no difference whether the last token, which has no text, is joined too. -/
theorem tokenize_spaced (g : Grammar) (input : String) (ts : List Token)
    (h : tokenize g input = .ok ts) :
    (∃ spaced, tokenize g (" ".intercalate (ts.dropLast.map Token.text)) = .ok spaced ∧
      spaced.map Token.word = ts.map Token.word) ∧
    ∃ spaced, tokenize g (" ".intercalate (ts.map Token.text)) = .ok spaced ∧
      spaced.map Token.word = ts.map Token.word := by
  obtain ⟨found, hcuts, rfl⟩ := exists_of_tokenize h
  have hchars : (" ".intercalate (found.map Token.text)).toList =
      [' '].intercalate ((found.map Token.word).map (·.2.toList)) := by
    rw [String.toList_intercalate, List.map_map, List.map_map]
    rfl
  have hwords : (found ++ [finish input.toList]).map Token.word =
      found.map Token.word ++ [(.finish, "")] := by
    rw [List.map_append]
    rfl
  rw [hwords]
  constructor
  · refine tokenize_intercalate hcuts.stands [] (by decide) ?_
    rw [List.dropLast_concat, hchars, List.append_nil]
  · by_cases hnil : found = []
    · subst hnil
      exact ⟨[Token.finish 0], rfl, rfl⟩
    · refine tokenize_intercalate hcuts.stands [' '] (by decide) ?_
      rw [List.map_append, String.intercalate_append_of_ne_nil (by simpa using hnil) (by simp),
        String.toList_append, String.toList_append, hchars, List.append_assoc]
      exact congrArg _ rfl

theorem tokenize_spaced_crowded : ∃ spaced,
    tokenize .definitions "f := .5 .5 <> 'a'!A1:$B2 \"q\"" = .ok spaced ∧
      spaced.map Token.word = [(.identifier, "f"), (.assign, ":="), (.number, ".5"),
        (.number, ".5"), (.operator, "<>"), (.address, "'a'!A1:$B2"), (.text, "\"q\""),
        (.finish, "")] := by
  have htokens : tokenize .definitions "f:=.5.5<>'a'!A1:$B2\"q\"#end" =
      .ok [⟨.identifier, "f", 0⟩, ⟨.assign, ":=", 1⟩, ⟨.number, ".5", 3⟩, ⟨.number, ".5", 5⟩,
        ⟨.operator, "<>", 7⟩, ⟨.address, "'a'!A1:$B2", 9⟩, ⟨.text, "\"q\"", 19⟩,
        ⟨.finish, "", 26⟩] := by
    decide +kernel
  have hjoined : " ".intercalate (["f", ":=", ".5", ".5", "<>", "'a'!A1:$B2", "\"q\""]) =
      "f := .5 .5 <> 'a'!A1:$B2 \"q\"" := by
    decide +kernel
  rw [← hjoined]
  exact (tokenize_spaced _ _ _ htokens).1

end Grammar
end Spreadsheet
