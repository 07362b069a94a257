/-!
Decimal digits: the number that a row of digits stands for, and unsigned numbers below a limit.
-/
namespace Spreadsheet.Text

/-- The value of one digit character. -/
def digitValue (c : Char) : Nat :=
  c.toNat - '0'.toNat

/-- The number that a row of digits stands for, continued from `start`. -/
def digitsValue (start : Nat) (digits : List Char) : Nat :=
  digits.foldl (fun value c => 10 * value + digitValue c) start

/-- Reads a row of digits, with or without a leading plus, that stands for a number below
`limit`. -/
def readUnsigned (limit : Nat) (s : List Char) : Option Nat :=
  let digits := match s with
    | '+' :: rest => rest
    | _ => s
  if digits ≠ [] ∧ digits.all Char.isDigit ∧ digitsValue 0 digits < limit then
    some (digitsValue 0 digits)
  else
    none

/-- A number in decimal digits. -/
def decimal (n : Nat) : List Char :=
  Nat.toDigits 10 n

/-- A number in decimal digits, with leading zeros up to the given width. -/
def decimalPadded (width n : Nat) : List Char :=
  List.replicate (width - (decimal n).length) '0' ++ decimal n

/-- Every machine index is below this, two to the power of 64. -/
def indexLimit : Nat :=
  18446744073709551616

end Spreadsheet.Text
