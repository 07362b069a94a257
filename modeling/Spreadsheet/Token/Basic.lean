/-!
Tokens: the words of formulas and definitions.
-/
namespace Spreadsheet

/-- The kinds of token. An `address` can be nothing but one: it has a sheet, a range or a `$`. -/
inductive TokenKind where
  | number
  | text
  | boolean
  | date
  | address
  | dollarName
  | identifier
  | define
  | assign
  | operator
  | opening
  | closing
  | comma
  | finish
deriving DecidableEq, Inhabited

/-- A token, its text as written and the byte at which it starts. -/
structure Token where
  kind : TokenKind
  text : String
  offset : Nat
deriving DecidableEq, Inhabited

namespace Token

/-- The token that ends every row of tokens. -/
def finish (offset : Nat) : Token :=
  { kind := .finish, text := "", offset := offset }

/-- How messages name a token. -/
def describe (t : Token) : String :=
  if t.kind = .finish then "end of input" else "`" ++ t.text ++ "`"

end Token
end Spreadsheet
