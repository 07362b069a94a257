import Spreadsheet.Text.WordChar
import Spreadsheet.Text.Quoted

/-!
Scanners measure how much of the front of a text belongs to a token. They are built from single
characters by sequence, ordered choice and repetition.
-/
namespace Spreadsheet

/-- How many characters at the front of a text match, if they do. -/
abbrev Scan := List Char → Option Nat

namespace Scan

/-- One character of a class. -/
def one (p : Char → Bool) : Scan
  | [] => none
  | c :: _ => if p c then some 1 else none

/-- The given character. -/
def char (c : Char) : Scan :=
  one (· == c)

/-- As many characters of a class as there are. -/
def many (p : Char → Bool) : Scan := fun s =>
  some (s.takeWhile p).length

/-- As many characters of a class as there are, and at least one. -/
def atLeastOne (p : Char → Bool) : Scan := fun s =>
  match s.takeWhile p with
  | [] => none
  | matched => some matched.length

/-- The characters of a class one after the other, `n` of them. -/
def times (p : Char → Bool) (n : Nat) : Scan := fun s =>
  if (s.take n).length = n ∧ (s.take n).all p then some n else none

/-- The given word. -/
def word (w : List Char) : Scan := fun s =>
  if w.isPrefixOf s then some w.length else none

/-- The first scanner and, behind it, the second. -/
def andThen (first second : Scan) : Scan := fun s =>
  match first s with
  | none => none
  | some n => (second (s.drop n)).map (n + ·)

/-- The first scanner or, where it fails, the second. -/
def orElse (first second : Scan) : Scan := fun s =>
  match first s with
  | none => second s
  | found => found

/-- The scanner or, where it fails, nothing. -/
def optional (scan : Scan) : Scan := fun s =>
  some ((scan s).getD 0)

/-- All of the scanners in sequence. -/
def sequence (scans : List Scan) : Scan :=
  scans.foldr andThen fun _ => some 0

/-- The first of the scanners that matches. -/
def choice (scans : List Scan) : Scan :=
  scans.foldr orElse fun _ => none

/-- Nothing, at a place where a word can end. -/
def wordEnd : Scan := fun s =>
  if Text.atWordEnd s then some 0 else none

/-- A text in quotes. -/
def quoted (q : Char) : Scan := fun s =>
  match s with
  | [] => none
  | c :: rest => if c = q then (Text.closing q rest).map (· + 1) else none

/-- Whether `c` is the lower-case letter `target` in any of its cases. The long s is a small s. -/
def isCaseOf (target c : Char) : Bool :=
  c.toLower == target || (target == 's' && c == 'ſ')

/-- The given lower-case word, in any mixture of cases. -/
def anyCase (w : List Char) : Scan :=
  sequence (w.map fun target => one (isCaseOf target))

end Scan
end Spreadsheet
