import Mathlib.Data.List.TakeWhile
import Spreadsheet.Token.Lexer

/-!
Where words end. In a written formula a word is followed by a blank, a parenthesis, a comma or
nothing; no scanner of words looks past such a place, so that a word is scanned in front of one as
it is scanned alone. Only quoted texts have to be looked at by themselves.
-/
namespace Spreadsheet

namespace Text

/-- The characters that may follow a word. -/
def isBreak (c : Char) : Bool :=
  c == ' ' || c == '(' || c == ')' || c == ','

/-- Whether a word may end in front of the text. -/
def AtBreak (s : List Char) : Prop :=
  ∀ c ∈ s.head?, isBreak c = true

theorem atBreak_nil : AtBreak [] := by
  intro c hc
  cases hc

theorem atBreak_cons {c : Char} (s : List Char) (hc : isBreak c = true) : AtBreak (c :: s) := by
  intro d hd
  rw [List.head?_cons, Option.mem_some] at hd
  rw [← hd]
  exact hc

/-- No break belongs to the class. -/
def Unbroken (p : Char → Bool) : Prop :=
  p ' ' = false ∧ p '(' = false ∧ p ')' = false ∧ p ',' = false

instance (p : Char → Bool) : Decidable (Unbroken p) :=
  inferInstanceAs (Decidable (_ ∧ _))

theorem Unbroken.eq_false {p : Char → Bool} (hp : Unbroken p) {c : Char}
    (hc : isBreak c = true) : p c = false := by
  obtain ⟨hblank, hopening, hclosing, hcomma⟩ := hp
  simp only [isBreak, Bool.or_eq_true, beq_iff_eq] at hc
  rcases hc with ((rfl | rfl) | rfl) | rfl
  · exact hblank
  · exact hopening
  · exact hclosing
  · exact hcomma

theorem takeWhile_append_atBreak {p : Char → Bool} (hp : Unbroken p) (s : List Char)
    {rest : List Char} (hrest : AtBreak rest) : (s ++ rest).takeWhile p = s.takeWhile p := by
  induction s with
  | nil =>
    cases rest with
    | nil => rfl
    | cons c rest =>
      have hc : p c = false := hp.eq_false (hrest c rfl)
      rw [List.nil_append, List.takeWhile_nil, List.takeWhile_cons_of_neg (by rw [hc]; decide)]
  | cons c s ih =>
    rw [List.cons_append, List.takeWhile_cons, List.takeWhile_cons, ih]

end Text

namespace Scan

open Text

theorem andThen_of_none {first : Scan} {s : List Char} (second : Scan) (h : first s = none) :
    andThen first second s = none := by
  unfold andThen
  rw [h]

theorem andThen_of_some {first : Scan} {s : List Char} {n : Nat} (second : Scan)
    (h : first s = some n) : andThen first second s = (second (s.drop n)).map (n + ·) := by
  unfold andThen
  rw [h]

theorem orElse_of_none {first : Scan} {s : List Char} (second : Scan) (h : first s = none) :
    orElse first second s = second s := by
  unfold orElse
  rw [h]

theorem orElse_of_some {first : Scan} {s : List Char} {n : Nat} (second : Scan)
    (h : first s = some n) : orElse first second s = some n := by
  unfold orElse
  rw [h]

theorem quoted_cons (q c : Char) (s : List Char) :
    quoted q (c :: s) = if c = q then (closing q s).map (· + 1) else none :=
  rfl

theorem andThen_congr {first first' : Scan} {s : List Char} (second : Scan)
    (h : first s = first' s) : andThen first second s = andThen first' second s := by
  unfold andThen
  rw [h]

theorem orElse_congr {first first' : Scan} {s : List Char} (second : Scan)
    (h : first s = first' s) : orElse first second s = orElse first' second s := by
  unfold orElse
  rw [h]

/-- A scanner that stays inside the text. -/
def Bounded (scan : Scan) : Prop :=
  ∀ (s : List Char) (n : Nat), scan s = some n → n ≤ s.length

theorem bounded_andThen {first second : Scan} (hfirst : Bounded first)
    (hsecond : Bounded second) : Bounded (andThen first second) := by
  intro s n h
  cases hm : first s with
  | none =>
    rw [andThen_of_none _ hm] at h
    cases h
  | some m =>
    rw [andThen_of_some _ hm] at h
    obtain ⟨k, hk, rfl⟩ := Option.map_eq_some_iff.1 h
    have hlem := hfirst _ _ hm
    have hlek := hsecond _ _ hk
    rw [List.length_drop] at hlek
    omega

theorem bounded_orElse {first second : Scan} (hfirst : Bounded first)
    (hsecond : Bounded second) : Bounded (orElse first second) := by
  intro s n h
  unfold orElse at h
  split at h
  · exact hsecond _ _ h
  · exact hfirst _ _ h

/-- A scanner that stays inside the text and does not look past a break behind it. -/
structure Local (scan : Scan) : Prop where
  bounded : Bounded scan
  append : ∀ {s rest : List Char}, AtBreak rest → scan (s ++ rest) = scan s

theorem one_cons (p : Char → Bool) (c : Char) (s : List Char) :
    one p (c :: s) = if p c then some 1 else none :=
  rfl

theorem bounded_one (p : Char → Bool) : Bounded (one p) := by
  intro s n h
  cases s with
  | nil => cases h
  | cons c s =>
    rw [one_cons] at h
    split at h
    · cases h
      exact Nat.succ_pos s.length
    · cases h

theorem local_one {p : Char → Bool} (hp : Unbroken p) : Local (one p) where
  bounded := bounded_one p
  append := by
    intro s rest hrest
    cases s with
    | cons c s => rfl
    | nil =>
      cases rest with
      | nil => rfl
      | cons c rest =>
        have hc : p c = false := hp.eq_false (hrest c rfl)
        rw [List.nil_append, one_cons, hc]
        rfl

theorem bounded_many (p : Char → Bool) : Bounded (many p) := by
  intro s n h
  cases h
  exact (List.takeWhile_sublist p).length_le

theorem local_many {p : Char → Bool} (hp : Unbroken p) : Local (many p) where
  bounded := bounded_many p
  append := by
    intro s rest hrest
    unfold many
    rw [takeWhile_append_atBreak hp s hrest]

theorem local_atLeastOne {p : Char → Bool} (hp : Unbroken p) : Local (atLeastOne p) where
  bounded := by
    intro s n h
    have hle := (List.takeWhile_sublist (l := s) p).length_le
    unfold atLeastOne at h
    split at h
    · cases h
    · cases h
      exact hle
  append := by
    intro s rest hrest
    unfold atLeastOne
    rw [takeWhile_append_atBreak hp s hrest]

theorem local_word {w : List Char} (hw : w.any isBreak = false) : Local (word w) where
  bounded := by
    intro s n h
    unfold word at h
    split at h
    · rename_i hstart
      cases h
      exact (List.isPrefixOf_iff_prefix.1 hstart).length_le
    · cases h
  append := by
    intro s rest hrest
    unfold word
    suffices hsame : w.isPrefixOf (s ++ rest) = w.isPrefixOf s by rw [hsame]
    induction w generalizing s with
    | nil => simp
    | cons d w ih =>
      obtain ⟨hd, hw⟩ := Bool.or_eq_false_iff.1 (List.any_cons ▸ hw)
      cases s with
      | cons c s =>
        have hind := ih hw (s := s)
        rw [List.cons_append, List.isPrefixOf_cons_cons, List.isPrefixOf_cons_cons, hind]
      | nil =>
        cases rest with
        | nil => rfl
        | cons c rest =>
          -- the word would have to go on with a break
          have hne : d ≠ c := by
            intro heq
            rw [heq, hrest c rfl] at hd
            cases hd
          rw [List.nil_append, List.isPrefixOf_cons_cons, beq_false_of_ne hne]
          rfl

theorem local_wordEnd : Local wordEnd where
  bounded := by
    intro s n h
    unfold wordEnd at h
    split at h
    · cases h
      exact Nat.zero_le _
    · cases h
  append := by
    intro s rest hrest
    have hword : Unbroken isWordChar := by decide
    cases s with
    | cons c s => rfl
    | nil =>
      cases rest with
      | nil => rfl
      | cons c rest =>
        have hc : isWordChar c = false := hword.eq_false (hrest c rfl)
        change (if !isWordChar c then some 0 else none) = some 0
        rw [hc]
        rfl

theorem local_andThen {first second : Scan} (hfirst : Local first) (hsecond : Local second) :
    Local (andThen first second) where
  bounded := bounded_andThen hfirst.bounded hsecond.bounded
  append := by
    intro s rest hrest
    unfold andThen
    rw [hfirst.append hrest]
    cases hm : first s with
    | none => rfl
    | some m =>
      have hlem := hfirst.bounded _ _ hm
      dsimp only
      rw [List.drop_append_of_le_length hlem, hsecond.append hrest]

theorem local_orElse {first second : Scan} (hfirst : Local first) (hsecond : Local second) :
    Local (orElse first second) where
  bounded := bounded_orElse hfirst.bounded hsecond.bounded
  append := by
    intro s rest hrest
    unfold orElse
    rw [hfirst.append hrest, hsecond.append hrest]

theorem local_optional {scan : Scan} (hscan : Local scan) : Local (optional scan) where
  bounded := by
    intro s n h
    cases h
    cases hn : scan s with
    | none => exact Nat.zero_le _
    | some n => exact hscan.bounded _ _ hn
  append := by
    intro s rest hrest
    unfold optional
    rw [hscan.append hrest]

theorem local_done : Local fun _ => some 0 :=
  ⟨fun _ _ h => (by cases h; exact Nat.zero_le _), fun _ => rfl⟩

theorem local_never : Local fun _ => none :=
  ⟨fun _ _ h => (by cases h), fun _ => rfl⟩

theorem local_sequence {scans : List Scan} (h : ∀ scan ∈ scans, Local scan) :
    Local (sequence scans) := by
  induction scans with
  | nil => exact local_done
  | cons scan scans ih =>
    apply local_andThen (h scan List.mem_cons_self)
    exact ih fun scan hmem => h scan (List.mem_cons_of_mem _ hmem)

end Scan
end Spreadsheet
