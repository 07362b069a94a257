import Spreadsheet.Text.Digits

/-!
Column letters. Columns are counted from zero and written in bijective base twenty-six: `A` to
`Z`, then `AA`. There is no letter for zero.
-/
namespace Spreadsheet.Column

/-- The capital letter at a place of the alphabet. -/
def letter (place : Nat) : Char :=
  Char.ofNat ('A'.toNat + place)

/-- The letters of a column. -/
def letters (column : Nat) : List Char :=
  if column < 26 then [letter column]
  else letters (column / 26 - 1) ++ [letter (column % 26)]
termination_by column
decreasing_by omega

/-- The place of a letter of either case in the alphabet, counted from one. -/
def letterValue (c : Char) : Nat :=
  c.toUpper.toNat - 'A'.toNat + 1

/-- A number, if it is a machine index. -/
def index? (n : Nat) : Option Nat :=
  if n < Text.indexLimit then some n else none

/-- The number that letters stand for in bijective base twenty-six, from that of all but the last
one, `c`. Neither the product nor the sum may leave the machine indices. -/
def append? (value : Nat) (c : Char) : Option Nat :=
  if c.isAlpha then (index? (value * 26)).bind fun shifted => index? (shifted + letterValue c)
  else none

/-- Reads letters of either case as a column. There must be at least one, and the column one past
the one they name must still be a machine index. -/
def read (s : List Char) : Option Nat :=
  match s.foldlM append? 0 with
  | some (column + 1) => some column
  | _ => none

end Spreadsheet.Column
