import Spreadsheet.Address.Basic
import Spreadsheet.Address.Column
import Spreadsheet.Text.Blank
import Spreadsheet.Text.Quoted

/-!
The written form of addresses: `B3`, `$A$1:D10`, `C`, `Sheet1!B2`, `'Quoted sheet'!B2:C3`.
-/
namespace Spreadsheet

namespace Corner

/-- A `$` for a fixed axis. -/
def marker (fixed : Bool) : List Char :=
  if fixed then ['$'] else []

def render (c : Corner) : List Char :=
  (match c.column with
    | some column => marker c.columnFixed ++ Column.letters column
    | none => []) ++
  (match c.row with
    | some row => marker c.rowFixed ++ Text.decimal (row + 1)
    | none => [])

/-- Takes a leading `$` off. -/
def readMarker : List Char → Bool × List Char
  | '$' :: rest => (true, rest)
  | s => (false, s)

/-- Reads digits as a row; the first row is written `1`. -/
def readRowNumber (digits : List Char) : Option Nat :=
  match Text.readUnsigned Text.indexLimit digits with
  | some (row + 1) => some row
  | _ => none

/-- Reads a row behind the column that `c` holds, if there is one. A row that is written but
cannot be named makes the whole unreadable. -/
def readRow (c : Corner) (s : List Char) : Option (Corner × List Char) :=
  let (fixed, rest) := readMarker s
  let digits := rest.takeWhile Char.isDigit
  if digits = [] then some (c, s)
  else (readRowNumber digits).map fun row =>
    ({ c with row := some row, rowFixed := fixed }, rest.dropWhile Char.isDigit)

/-- Reads a corner from the front of a text: a column, a row, both or neither. -/
def read (s : List Char) : Option (Corner × List Char) :=
  let (fixed, rest) := readMarker s
  let letters := rest.takeWhile Char.isAlpha
  if letters = [] then readRow {} s
  else (Column.read letters).bind fun column =>
    readRow { column := some column, columnFixed := fixed } (rest.dropWhile Char.isAlpha)

end Corner

namespace Address

/-- The characters of a sheet name that needs no quotes. -/
def isPlainSheetChar (c : Char) : Bool :=
  c.isAlphanum || c == '_' || c == '.'

/-- A sheet name as it is written, quoted where it has other characters than plain ones. -/
def renderSheet (name : List Char) : List Char :=
  if name.all isPlainSheetChar then name else Text.enclose '\'' name

def renderChars (a : Address) : List Char :=
  (match a.sheet with
    | some name => renderSheet name.toList ++ ['!']
    | none => []) ++
  a.first.render ++
  (if a.isRange then ':' :: a.last.render else [])

/-- The written form. -/
def render (a : Address) : String :=
  String.ofList a.renderChars

/-- Reads a sheet name and the `!` behind it; without one, there is no sheet and all is left. -/
def readSheet (s : List Char) : Option String × List Char :=
  match s with
  | '\'' :: quoted =>
    match Text.readQuoted '\'' quoted with
    | some (name, '!' :: rest) => if name = [] then (none, s) else (some (String.ofList name), rest)
    | _ => (none, s)
  | _ =>
    let name := s.takeWhile isPlainSheetChar
    match s.dropWhile isPlainSheetChar with
    | '!' :: rest => if name = [] then (none, s) else (some (String.ofList name), rest)
    | _ => (none, s)

/-- Reads the corner behind a `:`, up to the end of the text. -/
def readLast : List Char → Option Corner
  | [] => some {}
  | ':' :: s =>
    match Corner.read s with
    | some (last, []) => some last
    | _ => none
  | _ => none

/-- Reads the written form. The first corner must not be empty, and neither must the last one
when there is a `:` anywhere in the text. -/
def readChars (text : List Char) : Option Address :=
  let (sheet, s) := readSheet (Text.trim text)
  match Corner.read s with
  | none => none
  | some (first, rest) =>
    match readLast rest with
    | none => none
    | some last =>
      if first.isEmpty || (text.contains ':' && last.isEmpty) then none
      else some { sheet := sheet, first := first, last := last }

/-- Reads the written form. -/
def read (text : String) : Option Address :=
  readChars text.toList

end Address
end Spreadsheet
