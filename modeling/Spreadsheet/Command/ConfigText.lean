import Spreadsheet.Modifier.Color

/-!
Texts in a config file. Between double quotes a backslash starts an escape, between single quotes
every character stands for itself. A text between three quotes may go over several lines.
-/
namespace Spreadsheet.Command.ConfigText

def isGap (c : Char) : Bool :=
  c == ' ' || c == '\t'

def skipGap (s : List Char) : List Char :=
  s.dropWhile isGap

/-- Whether a character may stand in a comment or a text. -/
def isPlain (c : Char) : Bool :=
  c == '\t' || (' ' ≤ c && c != '\x7f')

/-- The text behind a line end, which is a line feed, possibly with a carriage return before it. -/
def nextLine? : List Char → Option (List Char)
  | '\n' :: rest => some rest
  | '\r' :: '\n' :: rest => some rest
  | _ => none

/-- How a text is delimited. -/
structure Form where
  quote : Char
  /-- Whether there are three quotes on either side. -/
  isBlock : Bool
deriving DecidableEq, Inhabited

namespace Form

def hasEscapes (form : Form) : Bool :=
  form.quote == '"'

end Form

/-- What the next character of a text is part of. -/
inductive Mode where
  | content
  /-- The blanks and line ends behind a backslash at the end of a line. -/
  | gap
  /-- An escape, behind its backslash. -/
  | escape
  /-- The number of a character, of which some hexadecimal digits are missing. -/
  | code (missing value : Nat)
deriving DecidableEq, Inhabited

/-- The character that a letter behind a backslash stands for. -/
def escape? : Char → Option Char
  | 'b' => some '\x08'
  | 't' => some '\t'
  | 'n' => some '\n'
  | 'f' => some '\x0c'
  | 'r' => some '\r'
  | '"' => some '"'
  | '\\' => some '\\'
  | _ => none

/-- The number of quotes, up to two, that a text has more than it needs at its end. -/
def spareQuotes (quote : Char) (s : List Char) : Nat :=
  ((s.take 2).takeWhile (· == quote)).length

/-- Reads a text behind its opening quotes; `done` is what has been read, in reverse. Gives the text
and what follows its closing quotes. Of a longer run of quotes the last three close a block. -/
def scan (form : Form) (mode : Mode) (done : List Char) :
    List Char → Option (List Char × List Char)
  | [] => none
  | c :: rest =>
    match mode with
    | .escape =>
      if c = 'u' then scan form (.code 4 0) done rest
      else if c = 'U' then scan form (.code 8 0) done rest
      else
        match escape? c with
        | some c => scan form .content (c :: done) rest
        | none => none
    | .code missing value =>
      match Color.hexValue? c with
      | none => none
      | some digit =>
        let value := 16 * value + digit
        if 1 < missing then scan form (.code (missing - 1) value) done rest
        else if value.isValidChar then scan form .content (Char.ofNat value :: done) rest
        else none
    | _ =>
      if c = form.quote then
        if !form.isBlock then some (done.reverse, rest)
        else if rest.take 2 = [c, c] then
          let spare := spareQuotes c (rest.drop 2)
          some (done.reverse ++ List.replicate spare c, rest.drop (2 + spare))
        else scan form .content (c :: done) rest
      else if c = '\\' ∧ form.hasEscapes then
        if form.isBlock ∧ (nextLine? (skipGap rest)).isSome then scan form .gap done rest
        else scan form .escape done rest
      else if form.isBlock ∧ c = '\r' ∧ rest.head? = some '\n' then scan form mode done rest
      else if mode = .gap ∧ (isGap c ∨ c = '\n') then scan form mode done rest
      else if isPlain c ∨ (form.isBlock ∧ c = '\n') then scan form .content (c :: done) rest
      else none

/-- Reads a text of one line, if there is one. -/
def readLine : List Char → Option (List Char × List Char)
  | '"' :: rest => scan ⟨'"', false⟩ .content [] rest
  | '\x27' :: rest => scan ⟨'\x27', false⟩ .content [] rest
  | _ => none

/-- Reads a text, if there is one. A line end right behind three quotes is left out. -/
def read (s : List Char) : Option (List Char × List Char) :=
  let block := fun (quote : Char) (rest : List Char) =>
    scan ⟨quote, true⟩ .content [] ((nextLine? rest).getD rest)
  match s with
  | '"' :: '"' :: '"' :: rest => block '"' rest
  | '\x27' :: '\x27' :: '\x27' :: rest => block '\x27' rest
  | _ => readLine s

end Spreadsheet.Command.ConfigText
