/-!
Lines and pieces of a text.
-/
namespace Spreadsheet.Text

/-- The pieces of `s` between the characters that `cut` accepts. `done` holds the piece before
`s`, in reverse, and `pieces` the earlier ones, in reverse. -/
def piecesFrom (cut : Char → Bool) (pieces : List (List Char)) (done : List Char) :
    List Char → List (List Char)
  | [] => (done.reverse :: pieces).reverse
  | c :: rest =>
    if cut c then piecesFrom cut (done.reverse :: pieces) [] rest
    else piecesFrom cut pieces (c :: done) rest

/-- The pieces of the text between the occurrences of `separator`. -/
def splitAt (separator : Char) (s : List Char) : List (List Char) :=
  piecesFrom (· == separator) [] [] s

/-- The lines of `s`, each with its line feed. `done` holds the line before `s`, in reverse, and
`lines` the earlier ones, in reverse. -/
def linesFrom (lines : List (List Char)) (done : List Char) : List Char → List (List Char)
  | [] => (if done = [] then lines else done.reverse :: lines).reverse
  | c :: rest =>
    if c = '\n' then linesFrom ((c :: done).reverse :: lines) [] rest
    else linesFrom lines (c :: done) rest

/-- The lines of the text, each with its line feed; only the last one may lack it. -/
def lines (s : List Char) : List (List Char) :=
  linesFrom [] [] s

/-- Splits at the first occurrence of `separator`. -/
def splitOnce (separator : Char) (s : List Char) : Option (List Char × List Char) :=
  match s.dropWhile (· != separator) with
  | [] => none
  | _ :: after => some (s.takeWhile (· != separator), after)

/-- What follows `start`, if the text begins with it. -/
def afterStart (start : List Char) (s : List Char) : Option (List Char) :=
  if start.isPrefixOf s then some (s.drop start.length) else none

end Spreadsheet.Text
