import Spreadsheet.Text.Blank

/-!
Colours, written `#rrggbb`, `rrggbb`, or with one digit a channel.
-/
namespace Spreadsheet

structure Color where
  red : Nat
  green : Nat
  blue : Nat
deriving DecidableEq, Inhabited

namespace Color

/-- The value of a hexadecimal digit. -/
def hexValue? (c : Char) : Option Nat :=
  if c.isDigit then some (c.toNat - '0'.toNat)
  else if 'a' ≤ c ∧ c ≤ 'f' then some (c.toNat - 'a'.toNat + 10)
  else if 'A' ≤ c ∧ c ≤ 'F' then some (c.toNat - 'A'.toNat + 10)
  else none

/-- Reads a colour. Blanks around it do not matter. -/
def read (s : List Char) : Option Color :=
  let s := Text.trim s
  let digits := match s with
    | '#' :: rest => rest
    | _ => s
  match digits.mapM hexValue? with
  | some [r, r', g, g', b, b'] =>
    some { red := 16 * r + r', green := 16 * g + g', blue := 16 * b + b' }
  | some [r, g, b] => some { red := 17 * r, green := 17 * g, blue := 17 * b }
  | _ => none

/-- Two hexadecimal digits. -/
def channelChars (n : Nat) : List Char :=
  [n / 16, n % 16].map fun digit =>
    if digit < 10 then Char.ofNat ('0'.toNat + digit) else Char.ofNat ('A'.toNat + (digit - 10))

def render (c : Color) : String :=
  String.ofList ('#' :: channelChars c.red ++ channelChars c.green ++ channelChars c.blue)

end Color
end Spreadsheet
