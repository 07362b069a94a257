import Spreadsheet.Token.Basic
import Spreadsheet.Token.Scan

/-!
The token rules of definitions and of cell formulas. At each place the first rule that matches
wins; comments are matched and dropped.
-/
namespace Spreadsheet

/-- What a row of tokens is for. -/
inductive Grammar where
  | definitions
  | formula
deriving DecidableEq, Inhabited

/-- A scanner and the kind of token that it finds; without a kind the match is dropped. -/
structure TokenRule where
  kind : Option TokenKind
  scan : Scan

namespace TokenRule

open Scan

def isNameStart (c : Char) : Bool :=
  c.isAlpha || c == '_'

def isNameChar (c : Char) : Bool :=
  c.isAlphanum || c == '_'

def letters : Scan :=
  atLeastOne Char.isAlpha

def digits : Scan :=
  atLeastOne Char.isDigit

def dollar : Scan :=
  char '$'

/-- `$?COLUMN($?ROW)?` or `$?ROW`. -/
def corner : Scan :=
  choice
    [sequence [optional dollar, letters, optional (sequence [optional dollar, digits])],
      sequence [optional dollar, digits]]

/-- A quoted sheet name that is not empty. -/
def quotedSheet : Scan := fun s =>
  match quoted '\'' s with
  | some n => if 2 < n then some n else none
  | none => none

/-- Only what cannot be an identifier: an address with a sheet, a range, or a `$`. -/
def address : Scan :=
  choice
    [sequence
        [choice [quotedSheet, atLeastOne isNameChar], char '!', corner,
          optional (sequence [char ':', corner])],
      sequence [corner, char ':', corner],
      sequence [dollar, letters, optional dollar, digits],
      sequence [letters, dollar, digits]]

def number : Scan :=
  choice
    [sequence [digits, optional (sequence [char '.', digits])],
      sequence [char '.', digits]]

def boolean : Scan :=
  sequence [choice [anyCase "true".toList, anyCase "false".toList], wordEnd]

def dollarName : Scan :=
  sequence [word "$$".toList, one isNameStart, many isNameChar]

def identifier : Scan :=
  sequence [one isNameStart, many fun c => isNameChar c || c == '.']

def operator : Scan :=
  choice
    [word "<=".toList, word ">=".toList, word "<>".toList,
      one fun c => "-+*/&^=<>".toList.contains c]

def comment : Scan :=
  sequence [char '#', many (· != '\n')]

def date : Scan :=
  sequence
    [times Char.isDigit 4, char '-', times Char.isDigit 2, char '-', times Char.isDigit 2, wordEnd]

def define : Scan :=
  sequence [word "def".toList, wordEnd]

def assign : Scan :=
  word ":=".toList

/-- What both grammars end with. -/
def shared : List TokenRule :=
  [⟨some .dollarName, dollarName⟩, ⟨some .identifier, identifier⟩, ⟨some .opening, char '('⟩,
    ⟨some .closing, char ')'⟩, ⟨some .comma, char ','⟩, ⟨some .operator, operator⟩]

end TokenRule

namespace Grammar

open TokenRule

/-- The rules of a grammar, in order. -/
def rules : Grammar → List TokenRule
  | .definitions =>
    [⟨none, comment⟩, ⟨some .date, date⟩, ⟨some .address, address⟩, ⟨some .number, number⟩,
      ⟨some .text, Scan.quoted '"'⟩, ⟨some .boolean, boolean⟩, ⟨some .define, define⟩,
      ⟨some .assign, assign⟩] ++ shared
  | .formula =>
    [⟨some .address, address⟩, ⟨some .number, number⟩, ⟨some .text, Scan.quoted '"'⟩,
      ⟨some .boolean, boolean⟩] ++ shared

/-- The kind and length of the first match at the front of a text. -/
def firstMatch? (g : Grammar) (s : List Char) : Option (Option TokenKind × Nat) :=
  g.rules.findSome? fun rule => (rule.scan s).map fun n => (rule.kind, n)

end Grammar
end Spreadsheet
