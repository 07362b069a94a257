import Spreadsheet.Text.WordRanges

/-!
Word characters. A keyword ends where no word character follows it.
-/
namespace Spreadsheet.Text

/-- Whether the code point lies in one of the closed ranges. -/
def inRanges (ranges : List (Nat × Nat)) (n : Nat) : Bool :=
  ranges.any fun range => range.1 ≤ n && n ≤ range.2

/-- Letters, digits, marks and connectors of any script. -/
def isWordChar (c : Char) : Bool :=
  if c.toNat < 128 then c.isAlphanum || c == '_' else inRanges wordRanges c.toNat

/-- Whether a word can end here: the text that follows does not go on with a word character. -/
def atWordEnd (s : List Char) : Bool :=
  match s with
  | [] => true
  | c :: _ => !isWordChar c

end Spreadsheet.Text
