/-!
Places in a text, counted in bytes of its UTF-8 form, and the lines they fall on.
-/
namespace Spreadsheet.Text

/-- The number of bytes that the text takes in UTF-8. -/
def byteLength (s : List Char) : Nat :=
  s.foldl (fun size c => size + c.utf8Size) 0

/-- The text from the given byte on. -/
def dropBytes : Nat → List Char → List Char
  | 0, s => s
  | _ + 1, [] => []
  | n + 1, c :: rest => dropBytes (n + 1 - c.utf8Size) rest

/-- The text before the given byte. -/
def takeBytes : Nat → List Char → List Char
  | 0, _ => []
  | _ + 1, [] => []
  | n + 1, c :: rest => c :: takeBytes (n + 1 - c.utf8Size) rest

/-- The line, counted from one, on which the given byte lies. -/
def lineOf (s : List Char) (offset : Nat) : Nat :=
  (takeBytes offset s).count '\n' + 1

end Spreadsheet.Text
