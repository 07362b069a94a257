import Spreadsheet.Text.Lines

/-!
Source files. A line `---` separates the definition section from the sheet section; a file without
one is all sheet.
-/
namespace Spreadsheet

structure Source where
  filename : String
  /-- The text before the separator, if there is one. -/
  definitions : Option (List Char)
  sheet : List Char
  /-- The line, counted from one, on which the sheet section starts. -/
  sheetLine : Nat
deriving DecidableEq, Inhabited

namespace Source

def isLineEnd (c : Char) : Bool :=
  c == '\n' || c == '\r'

/-- Whether a line, its line end included, is the separator. -/
def isSeparator (line : List Char) : Bool :=
  (line.reverse.dropWhile isLineEnd).reverse == ['-', '-', '-']

/-- The lines before the first separator, how many they are, and the lines after it. -/
def splitAtSeparator : (before : List (List Char)) → List (List Char) →
    Option (List (List Char) × List (List Char))
  | _, [] => none
  | before, line :: rest =>
    if isSeparator line then some (before.reverse, rest)
    else splitAtSeparator (line :: before) rest

/-- The two sections of a file. -/
def split (filename : String) (input : List Char) : Source :=
  match splitAtSeparator [] (Text.lines input) with
  | some (before, after) =>
    { filename := filename
      definitions := some before.flatten
      sheet := after.flatten
      sheetLine := before.length + 2 }
  | none => { filename := filename, definitions := none, sheet := input, sheetLine := 1 }

/-- The line in the file of a line in the sheet section, which is counted from zero. -/
def lineOfSheet (s : Source) (index : Nat) : Nat :=
  s.sheetLine + index

end Source
end Spreadsheet
