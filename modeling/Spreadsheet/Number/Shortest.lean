import Spreadsheet.Number.Decimal

/-!
Writing numbers. A finite number is written with the fewest significant digits that read back as
the same number, of those the nearest, and never with an exponent.
-/
namespace Spreadsheet.Number

/-- How far the exponent of a magnitude is above the least one. The numbers below the least normal
one have the least exponent too. -/
def scale (m : Nat) : Nat :=
  m / exponentWeight - 1

/-- A magnitude is this many units of `2 ^ (scale m - 1074)`. -/
def significand (m : Nat) : Nat :=
  m - scale m * exponentWeight

/-- The number of decimal places in which a magnitude can be written exactly. -/
def places (m : Nat) : Nat :=
  1074 - scale m

/-- The exact value of a magnitude in units of `10 ^ -places`: a half is five tenths. -/
def expansion (m : Nat) : Nat :=
  significand m * Nat.pow 2 (scale m - 1074) * Nat.pow 5 (places m)

/-- Significant digits followed by `zeros` zeros, counted in units of `10 ^ -places`. -/
structure Digits where
  value : Nat
  zeros : Nat
  places : Nat

/-- Whether the digits read back as the magnitude `m`. -/
def Digits.readsAs (d : Digits) (m : Nat) : Bool :=
  nearestMagnitude (d.value * Nat.pow 10 d.zeros) (Nat.pow 10 d.places) == m

/-- The decimals of `count` significant digits on either side of `exact`, which has `size` digits,
the nearer one first; of two equally near ones the greater. -/
def neighbours (exact places size count : Nat) : List Digits :=
  let zeros := size - count
  let unit := Nat.pow 10 zeros
  let below := exact / unit
  let lesser : Digits := ⟨below, zeros, places⟩
  -- a carry out of the top digit leaves a one
  let greater : Digits :=
    if below + 1 = Nat.pow 10 count then ⟨1, zeros + count, places⟩ else ⟨below + 1, zeros, places⟩
  if 2 * (exact % unit) < unit then [lesser, greater] else [greater, lesser]

/-- The fewest digits, from `count` on, that read back as the magnitude `m`. After `tries` counts
it is the exact expansion. -/
def shortestFrom (m exact size : Nat) : (tries count : Nat) → Digits
  | 0, _ => ⟨exact, 0, places m⟩
  | tries + 1, count =>
    match (neighbours exact (places m) size count).find? fun d => d.readsAs m with
    | some d => d
    | none => shortestFrom m exact size tries (count + 1)

/-- The fewest digits that read back as the magnitude `m`. Seventeen are always enough. -/
def shortest (m : Nat) : Digits :=
  let exact := expansion m
  shortestFrom m exact (Text.decimal exact).length 17 1

/-- Digits in positional form. -/
def Digits.render (d : Digits) : List Char :=
  let digits := Text.decimal d.value
  if d.places ≤ d.zeros then
    digits ++ List.replicate (d.zeros - d.places) '0'
  else
    let places := d.places - d.zeros
    if places < digits.length then
      digits.take (digits.length - places) ++ '.' :: digits.drop (digits.length - places)
    else
      '0' :: '.' :: List.replicate (places - digits.length) '0' ++ digits

/-- The text of a number without its sign. -/
def renderMagnitude (m : Nat) : List Char :=
  if m = 0 then ['0'] else (shortest m).render

/-- The text of a number. -/
def render (x : Number) : List Char :=
  if x.isNaN then
    ['N', 'a', 'N']
  else
    let text := if x.isInfinite then ['i', 'n', 'f'] else renderMagnitude x.magnitude
    if x.negative then '-' :: text else text

end Spreadsheet.Number
