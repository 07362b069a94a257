/-!
Quoting. Inside quotes the quote character is written twice; a single one closes the text.
-/
namespace Spreadsheet.Text

/-- The text with every `q` written twice. -/
def double (q : Char) : List Char → List Char
  | [] => []
  | c :: rest => if c = q then q :: q :: double q rest else c :: double q rest

/-- The text with every two neighbouring `q` read as one. -/
def undouble (q : Char) : List Char → List Char
  | a :: b :: rest =>
    if a = q ∧ b = q then q :: undouble q rest else a :: undouble q (b :: rest)
  | s => s

/-- The text between quotes. -/
def enclose (q : Char) (s : List Char) : List Char :=
  q :: double q s ++ [q]

/-- Reads a quoted text whose opening quote has been passed: what it says, and what follows the
closing quote. -/
def readQuoted (q : Char) : List Char → Option (List Char × List Char)
  | [] => none
  | a :: rest =>
    if a = q then
      match rest with
      | b :: more =>
        if b = q then (readQuoted q more).map fun (said, after) => (q :: said, after)
        else some ([], rest)
      | [] => some ([], rest)
    else
      (readQuoted q rest).map fun (said, after) => (a :: said, after)

/-- How many characters there are up to the closing quote, itself included. When the text ends
before a lone quote is met, the last doubled quote is taken apart and its first half closes. -/
def closing (q : Char) : List Char → Option Nat
  | [] => none
  | a :: rest =>
    if a = q then
      match rest with
      | b :: more =>
        if b = q then
          match closing q more with
          | some n => some (n + 2)
          | none => some 1
        else some 1
      | [] => some 1
    else
      (closing q rest).map (· + 1)

theorem undouble_double (q : Char) (s : List Char) : undouble q (double q s) = s := by
  induction s with
  | nil => simp [double, undouble]
  | cons c rest ih =>
    by_cases h : c = q
    · simp [double, undouble, h, ih]
    · cases hd : double q rest with
      | nil =>
        rw [hd] at ih
        have hrest : rest = [] := by simpa [undouble] using ih.symm
        simp [hrest, double, undouble, h]
      | cons d more =>
        rw [hd] at ih
        simp [double, undouble, h, hd, ih]

theorem length_readQuoted {q : Char} {s said after : List Char}
    (h : readQuoted q s = some (said, after)) : after.length < s.length := by
  fun_induction readQuoted q s generalizing said after with
  | case1 => simp at h
  | case2 more ih =>
    obtain ⟨⟨said', after'⟩, hread, heq⟩ := Option.map_eq_some_iff.1 h
    have hlt := ih hread
    simp only [Prod.mk.injEq] at heq
    simp only [List.length_cons, ← heq.2]
    omega
  | case3 => simp_all
  | case4 => simp_all
  | case5 a rest hne ih =>
    obtain ⟨⟨said', after'⟩, hread, heq⟩ := Option.map_eq_some_iff.1 h
    have hlt := ih hread
    simp only [Prod.mk.injEq] at heq
    simp only [List.length_cons, ← heq.2]
    omega

theorem readQuoted_double (q : Char) (s rest : List Char) (h : rest.head? ≠ some q) :
    readQuoted q (double q s ++ q :: rest) = some (s, rest) := by
  induction s with
  | nil =>
    cases rest with
    | nil => simp [double, readQuoted]
    | cons d more =>
      have hd : d ≠ q := by simpa using h
      simp [double, readQuoted, hd]
  | cons c more ih =>
    by_cases hc : c = q
    · simp [double, readQuoted, hc, ih]
    · rw [double, if_neg hc, List.cons_append, readQuoted.eq_def]
      simp [hc, ih]

end Spreadsheet.Text
